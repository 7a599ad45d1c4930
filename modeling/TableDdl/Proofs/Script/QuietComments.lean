import TableDdl.Proofs.Script.Harmless

/-!
# Everyday comments

A comment without quotes and semicolons that is closed where it seems to be closed is harmless if it
stands on one line, or if its last line does not begin like a comment (`harmless_of_quiet`).
-/

namespace TableDdl.Script

open Text Mode

variable {c x y z : List Char}

/-! ## Comments stripped whole -/

/-- The text has no quotes, no semicolons, and no closing mark behind a star. -/
structure Quiet (c : List Char) : Prop where
  chars : ∀ x ∈ c, isOpening x = false ∧ x ≠ ';'
  close : ¬['*', '/'] <:+: '*' :: c

/-- A text without cuts that is stripped to nothing vanishes in front of every statement. -/
theorem vanishes_of_stripComments (hx : ∀ y ∈ x, isOpening y = false ∧ y ≠ ';')
    (h : stripComments x = []) : Vanishes x := by
  have hscan : plain.scan x = .plain := scan_plain fun y hy => (hx y hy).1
  have hpieces : pieces x = [] ++ [x] :=
    pieces_of_uncut (uncut_of_not_mem .plain fun hmem => (hx ';' hmem).2 rfl)
  exact (vanishes_iff hpieces).2 ⟨hscan, by simp, h⟩

theorem stripComments_of_isBlank (hx : ∀ y ∈ x, isBlank y = true) : stripComments x = [] := by
  have h := stripComments_blanks_append hx []
  rw [List.append_nil] at h
  rw [h, stripComments_of_none rfl]
  rfl

/-- A comment that is not closed before its end is stripped to nothing. -/
theorem stripComments_closing (h : afterClose ('*' :: y) = none) :
    stripComments ('/' :: '*' :: (y ++ ['*', '/', ' '])) = [] := by
  have hclose := afterClose_closing h [' ']
  have hopen : afterComment? ('/' :: '*' :: (y ++ ['*', '/', ' '])) = some [' '] := by
    rw [afterComment?_cons, if_pos ⟨rfl, rfl⟩]
    exact hclose
  have hslash : isBlank '/' = false := by decide
  rw [← trimStart_eq_self (headNot_cons.2 hslash)] at hopen
  rw [stripComments_of_some hopen]
  exact stripComments_of_isBlank (List.forall_mem_singleton.2 (by decide))

theorem Mute.newline (h : afterClose x = none) : Mute ('\n' :: x) := by
  refine ⟨headNot_cons.2 (by decide), ?_⟩
  rw [afterClose_cons, if_neg (by simp), h]

/-- Lines without closing marks have none together. -/
theorem afterClose_flatMap {ks : List (List Char)} (hks : ∀ k ∈ ks, afterClose k = none)
    (hz : afterClose z = none) : afterClose (ks.flatMap (· ++ ['\n']) ++ z) = none := by
  induction ks with
  | nil => exact hz
  | cons k ks ih =>
      obtain ⟨hk, hks⟩ := List.forall_mem_cons.1 hks
      rw [List.flatMap_cons, List.append_assoc, List.append_assoc, List.singleton_append]
      exact (Mute.newline (ih hks)).afterClose_eq_none hk

/-! ## Quiet comments -/

/-- A line that begins like a block comment is kept if it does not close it. -/
theorem isKeptLine_opening (h : ¬['*', '/'] <:+: '/' :: '*' :: y) :
    isKeptLine ('/' :: '*' :: y) = true := by
  have hslash : isBlank '/' = false := by decide
  obtain ⟨more, htrim⟩ := exists_trim_eq_cons (trimStart_eq_self (headNot_cons.2 hslash))
    (l := '/' :: '*' :: y)
  have hends : ¬['*', '/'] <:+: trim ('/' :: '*' :: y) := fun hin =>
    h (hin.trans (trim_infix_self _))
  have hshort (w : List Char) (hw : ['*', '/'] <+: w) :
      w.isSuffixOf (trim ('/' :: '*' :: y)) = false := by
    by_contra hsuffix
    have hsuffix := List.isSuffixOf_iff_suffix.1 (Bool.of_not_eq_false hsuffix)
    exact hends (hw.isInfix.trans hsuffix.isInfix)
  have hblank : isAllBlank ('/' :: '*' :: y) = false := by
    rw [isAllBlank, List.all_cons, hslash, Bool.false_and]
  rw [isKeptLine, isCommentLine, hblank, hshort _ (by decide), hshort _ (by decide), htrim]
  simp [List.isPrefixOf]

theorem vanishes_blockComment (hy : Quiet y) : Vanishes (blockComment y) := by
  refine vanishes_of_stripComments (fun x hx => ?_)
    (stripComments_closing (afterClose_eq_none_iff.2 hy.close))
  simp only [blockComment, List.mem_cons, List.mem_append, List.not_mem_nil, or_false] at hx
  rcases hx with rfl | rfl | hx | rfl | rfl | rfl
  · decide
  · decide
  · exact hy.chars x hx
  · decide
  · decide
  · decide

/-- A quiet comment is not closed by its own opening mark either. -/
theorem not_infix_opening (hc : Quiet c) : ¬['*', '/'] <:+: '/' :: '*' :: c := by
  rw [List.infix_cons_iff, not_or]
  exact ⟨by simp [List.cons_prefix_cons], hc.close⟩

/-- Lines of a quiet comment, its first one among them, are a quiet comment. -/
theorem quiet_lines (hc : Quiet c) {ks : List (List Char)}
    (hy : '/' :: '*' :: y <:+: '/' :: '*' :: c) (hks : ∀ k ∈ z :: ks, k <:+: '/' :: '*' :: c) :
    Quiet (y ++ '\n' :: (ks.flatMap (· ++ ['\n']) ++ z)) := by
  have hcalm : ∀ x ∈ '/' :: '*' :: c, isOpening x = false ∧ x ≠ ';' :=
    List.forall_mem_cons.2 ⟨by decide, List.forall_mem_cons.2 ⟨by decide, hc.chars⟩⟩
  have hnone {k : List Char} (hk : k <:+: '/' :: '*' :: c) : afterClose k = none :=
    afterClose_eq_none_iff.2 fun h => not_infix_opening hc (h.trans hk)
  obtain ⟨hz, hks⟩ := List.forall_mem_cons.1 hks
  refine ⟨fun x hx => ?_, ?_⟩
  · simp only [List.mem_append, List.mem_cons, List.mem_flatMap, List.not_mem_nil, or_false] at hx
    rcases hx with hx | rfl | ⟨k, hk, hx | rfl⟩ | hx
    · have hmem : x ∈ '/' :: '*' :: y := by simp [hx]
      exact hcalm x (hy.subset hmem)
    · decide
    · exact hcalm x ((hks k hk).subset hx)
    · decide
    · exact hcalm x (hz.subset hx)
  · have hopen : '*' :: y <:+: '/' :: '*' :: c := (List.suffix_cons '/' _).isInfix.trans hy
    have hrest := afterClose_flatMap (fun k hk => hnone (hks k hk)) (hnone hz)
    have hmute := Mute.newline hrest
    exact afterClose_eq_none_iff.1 (hmute.afterClose_eq_none (hnone hopen))

/-- A quiet comment of one line is harmless. -/
theorem harmless_of_unbroken (hc : Quiet c) (hline : Unbroken c) : Harmless c := by
  have hslash : isBlank '/' = false := by decide
  have hunbroken : Unbroken (blockComment c) :=
    List.forall_mem_cons.2 ⟨by decide, List.forall_mem_cons.2 ⟨by decide,
      unbroken_append.2 ⟨hline, unbroken_closing⟩⟩⟩
  have hlines : lines (blockComment c) = [blockComment c] :=
    lines_of_unbroken hunbroken (by simp [blockComment])
  have hfront : keptFront (blockComment c) = [] := by rw [keptFront, hlines]; rfl
  have hself : lastLine (blockComment c) = blockComment c := by rw [lastLine, hlines]; rfl
  refine ⟨?_, ?_, fun _ => ?_⟩
  · have htrim := trim_closing ('/' :: '*' :: c)
    rw [trimStart_eq_self (headNot_cons.2 hslash)] at htrim
    have hshape : blockComment c = '/' :: '*' :: c ++ ['*', '/', ' '] := rfl
    rw [hself, opensLineComment, hshape, htrim]
    simp [List.isPrefixOf]
  · rw [hfront, hself]
    exact vanishes_blockComment hc
  · rw [hfront]
    exact vanishes_of_stripComments (by simp) (stripComments_of_isBlank (by simp))

/-- The first line of a comment of several lines begins with the marks that open it. -/
theorem exists_lines_of_break (hline : ¬Unbroken c) :
    ∃ y ls z, (∀ l ∈ ('/' :: '*' :: y) :: z :: ls, l <:+: '/' :: '*' :: c) ∧
      lines (blockComment c) = ('/' :: '*' :: y) :: (ls ++ [z ++ ['*', '/', ' ']]) := by
  rcases exists_line c with hc | ⟨y, br, rest, rfl, hy, hbr⟩
  · exact absurd hc hline
  · obtain ⟨ls, z, hin, -, hlines, -⟩ := exists_lines_closing rest
    have hopen : Unbroken ('/' :: '*' :: y) :=
      List.forall_mem_cons.2 ⟨by decide, List.forall_mem_cons.2 ⟨by decide, hy⟩⟩
    have hrest : rest <:+: '/' :: '*' :: (y ++ (br ++ rest)) :=
      ((List.suffix_append br rest).trans (List.suffix_append ('/' :: '*' :: y) _)).isInfix
    refine ⟨y, ls, z, List.forall_mem_cons.2 ⟨?_, fun l hl => (hin l hl).trans hrest⟩, ?_⟩
    · exact (List.prefix_append ('/' :: '*' :: y) _).isInfix
    · have h := lines_append_of_breaks hopen (hbr.append (v := ['*', '/', ' ']) fun _ _ => by simp)
      rw [hlines] at h
      rw [← h, blockComment]
      simp

/-- **Everyday comments**: a quiet comment is harmless if its last line is kept for itself and does
not begin like a comment that goes on to its end. -/
theorem harmless_of_quiet (hc : Quiet c)
    (hopen : opensLineComment (lastLine (blockComment c)) = false)
    (hkept : isKeptLine (lastLine (blockComment c)) = true) : Harmless c := by
  by_cases hline : Unbroken c
  · exact harmless_of_unbroken hc hline
  · obtain ⟨y, ls, z, hin, hlines⟩ := exists_lines_of_break hline
    obtain ⟨hy, hrest⟩ := List.forall_mem_cons.1 hin
    have hfirst : isKeptLine ('/' :: '*' :: y) = true :=
      isKeptLine_opening fun h => not_infix_opening hc (h.trans hy)
    have hself : lastLine (blockComment c) = z ++ ['*', '/', ' '] := by
      rw [lastLine, hlines, ← List.cons_append, List.getLastD_concat]
    have hfront : keptFront (blockComment c) =
        '/' :: '*' :: (y ++ '\n' :: (ls.filter isKeptLine).flatMap (· ++ ['\n'])) := by
      rw [keptFront, hlines, ← List.cons_append, List.dropLast_concat, List.filter_cons,
        if_pos hfirst]
      simp
    have hkeptLines : ∀ k ∈ z :: ls.filter isKeptLine, k <:+: '/' :: '*' :: c :=
      List.forall_mem_cons.2 ⟨hrest z List.mem_cons_self, fun k hk =>
        hrest k (List.mem_cons_of_mem z (List.mem_of_mem_filter hk))⟩
    have hvanish := vanishes_blockComment (quiet_lines hc hy hkeptLines)
    refine ⟨hopen, ?_, fun hdropped => ?_⟩
    · rw [hfront, hself]
      simpa [blockComment] using hvanish
    · rw [hkept] at hdropped
      exact absurd hdropped.symm Bool.false_ne_true

end TableDdl.Script
