import TableDdl.Proofs.Script.Reading

/-!
# Comments that vanish

What stands in front of a statement does not count if it vanishes (`Vanishes`): its quotes are
closed, all it is cut into is skipped, and what is left in front of the statement is stripped from
it.  Statements behind a text that vanishes have the tables they have alone
(`Vanishes.result_readTables`).
-/

namespace TableDdl.Script

open Text Mode

variable {d : Dialect} {s u v : List Char} {ts : List Table}

/-! ## Stripping -/

theorem stripComments_of_none (h : afterComment? (trimStart s) = none) :
    stripComments s = trimStart s := by
  rw [stripComments.eq_def]
  split
  · next r hr =>
    rw [h] at hr
    simp at hr
  · rfl

theorem stripComments_of_some {rest : List Char} (h : afterComment? (trimStart s) = some rest) :
    stripComments s = stripComments rest := by
  rw [stripComments.eq_def]
  split
  · next r hr =>
    rw [h] at hr
    rw [Option.some.inj hr]
  · next hnone =>
    rw [h] at hnone
    simp at hnone

/-- Blanks in front do not count. -/
theorem stripComments_blanks_append {b : List Char} (hb : ∀ c ∈ b, isBlank c = true)
    (v : List Char) : stripComments (b ++ v) = stripComments v := by
  have htrim := trimStart_append (v := v) hb
  cases h : afterComment? (trimStart v) with
  | none => rw [stripComments_of_none (by rwa [htrim]), stripComments_of_none h, htrim]
  | some rest => rw [stripComments_of_some (by rwa [htrim]), stripComments_of_some h]

theorem stripComments_trimStart (s : List Char) :
    stripComments (trimStart s) = stripComments s := by
  have hb := isBlank_of_mem_takeWhile s
  rw [← stripComments_blanks_append hb, takeWhile_append_trimStart]

theorem afterClose_cons (c : Char) (u : List Char) :
    afterClose (c :: u) =
      if c = '*' ∧ u.head? = some '/' then some u.tail else afterClose u := by
  rw [afterClose.eq_def]
  split
  · next h => simp at h
  · next r h =>
    obtain ⟨rfl, rfl⟩ := List.cons.inj h
    rfl
  · next d r hclose h =>
    obtain ⟨rfl, rfl⟩ := List.cons.inj h
    rw [if_neg]
    rintro ⟨rfl, hhead⟩
    obtain ⟨r, rfl⟩ := List.head?_eq_some_iff.1 hhead
    exact hclose r rfl rfl

/-- A comment that is closed ends where it ends, whatever stands behind. -/
theorem afterClose_append {rest : List Char} (h : afterClose u = some rest) (v : List Char) :
    afterClose (u ++ v) = some (rest ++ v) := by
  induction u with
  | nil => simp [afterClose] at h
  | cons c u ih =>
      cases u with
      | nil => simp [afterClose_cons, afterClose] at h
      | cons d u =>
          rw [afterClose_cons] at h
          rw [List.cons_append, afterClose_cons]
          split at h
          · next hclose =>
            obtain rfl := Option.some.inj h
            exact if_pos hclose
          · next hclose => exact (if_neg hclose).trans (ih h)

/-- The text neither closes a comment nor goes on with the marks of one. -/
def Mute (v : List Char) : Prop := HeadNot (fun c => c == '*' || c == '/') v ∧ afterClose v = none

/-- A mute text does not close a comment in front of it. -/
theorem Mute.afterClose_eq_none (hv : Mute v) (h : afterClose u = none) :
    afterClose (u ++ v) = none := by
  induction u with
  | nil => exact hv.2
  | cons c u ih =>
      rw [afterClose_cons] at h
      rw [List.cons_append, afterClose_cons]
      split at h
      · simp at h
      · next hclose =>
        rw [if_neg, ih h]
        rintro ⟨hc, hhead⟩
        cases u with
        | nil => exact absurd (hv.1 '/' hhead) (by decide)
        | cons d u => exact hclose ⟨hc, hhead⟩

theorem afterComment?_cons (c : Char) (u : List Char) :
    afterComment? (c :: u) =
      if c = '/' ∧ u.head? = some '*' then afterClose u else none := by
  rw [afterComment?.eq_def]
  split
  · next r h =>
    obtain ⟨rfl, rfl⟩ := List.cons.inj h
    rfl
  · next hopen =>
    rw [if_neg]
    rintro ⟨rfl, hhead⟩
    obtain ⟨r, rfl⟩ := List.head?_eq_some_iff.1 hhead
    exact hopen r rfl

theorem afterComment?_append {rest : List Char} (h : afterComment? u = some rest) (v : List Char) :
    afterComment? (u ++ v) = some (rest ++ v) := by
  cases u with
  | nil => simp [afterComment?] at h
  | cons c u =>
      rw [afterComment?_cons] at h
      rw [List.cons_append, afterComment?_cons]
      split at h
      · next hopen =>
        obtain ⟨r, rfl⟩ := List.head?_eq_some_iff.1 hopen.2
        rw [if_pos ⟨hopen.1, rfl⟩, afterClose_append h]
      · simp at h

/-- A mute text completes no opening mark and closes no comment in front of it. -/
theorem Mute.afterComment?_eq_none (hv : Mute v) (hu : u ≠ []) (h : afterComment? u = none) :
    afterComment? (u ++ v) = none := by
  cases u with
  | nil => exact absurd rfl hu
  | cons c u =>
      rw [afterComment?_cons] at h
      rw [List.cons_append, afterComment?_cons]
      split
      · next hopen =>
        cases u with
        | nil => exact absurd (hv.1 '*' hopen.2) (by decide)
        | cons d u =>
            exact hv.afterClose_eq_none ((if_pos hopen).symm.trans h)
      · rfl

theorem trimStart_ne_nil_of_afterComment? {rest : List Char}
    (h : afterComment? (trimStart u) = some rest) : trimStart u ≠ [] := by
  intro hnil
  rw [hnil, afterComment?] at h
  · simp at h
  · simp

/-- A text that is stripped to nothing counts for nothing in front of another. -/
theorem stripComments_append (h : stripComments u = []) (v : List Char) :
    stripComments (u ++ v) = stripComments v := by
  fun_induction stripComments u with
  | case1 u rest hrest ih =>
      have hne := trimStart_ne_nil_of_afterComment? hrest
      have happ := afterComment?_append hrest v
      rw [← trimStart_append_of_not_blank hne] at happ
      rw [stripComments_of_some happ, ih h]
  | case2 u hnone =>
      exact stripComments_blanks_append (trimStart_eq_nil_iff.1 h) v

/-- What is left of a text stays in front of a text without the marks of comments. -/
theorem Mute.stripComments_eq (hv : Mute v) (h : stripComments u ≠ []) :
    stripComments (u ++ v) = stripComments u ++ v := by
  fun_induction stripComments u with
  | case1 u rest hrest ih =>
      have hne := trimStart_ne_nil_of_afterComment? hrest
      have happ := afterComment?_append hrest v
      rw [← trimStart_append_of_not_blank hne] at happ
      rw [stripComments_of_some happ, ih h]
  | case2 u hnone =>
      have htrim := trimStart_append_of_not_blank h v
      have happ := hv.afterComment?_eq_none h hnone
      rw [← htrim] at happ
      rw [stripComments_of_none happ, htrim]

/-- Behind a comment stands an end of the text. -/
theorem afterClose_suffix {rest : List Char} (h : afterClose u = some rest) : rest <:+ u := by
  induction u with
  | nil => simp [afterClose] at h
  | cons c u ih =>
      rw [afterClose_cons] at h
      split at h
      · obtain rfl := Option.some.inj h
        exact (List.tail_suffix u).trans (List.suffix_cons c u)
      · exact (ih h).trans (List.suffix_cons c u)

/-- Comments are taken off in front only. -/
theorem stripComments_suffix (u : List Char) : stripComments u <:+ u := by
  fun_induction stripComments u with
  | case1 u rest hrest ih =>
      have htrim : rest <:+ trimStart u := by
        cases h : trimStart u with
        | nil => exact absurd h (trimStart_ne_nil_of_afterComment? hrest)
        | cons c t =>
            rw [h, afterComment?_cons] at hrest
            split at hrest
            · exact (afterClose_suffix hrest).trans (List.suffix_cons c t)
            · simp at hrest
      exact ih.trans (htrim.trans (List.dropWhile_suffix _))
  | case2 u hnone => exact List.dropWhile_suffix _

/-- What is left begins with no blank. -/
theorem headNot_stripComments (u : List Char) : HeadNot isBlank (stripComments u) := by
  fun_induction stripComments u with
  | case1 u rest hrest ih => exact ih
  | case2 u hnone => exact headNot_trimStart u

theorem afterClose_eq_none (h : '/' ∉ v) : afterClose v = none := by
  induction v with
  | nil => rfl
  | cons c v ih =>
      have htail : '/' ∉ v := fun hv => h (List.mem_cons_of_mem c hv)
      rw [afterClose_cons, if_neg, ih htail]
      exact fun hclose => htail (List.mem_of_head? hclose.2)

/-- Without a slash no comment is closed, and without a star in front none is opened. -/
theorem mute_of_not_mem (hhead : v.head? ≠ some '*') (h : '/' ∉ v) : Mute v := by
  refine ⟨fun c hc => ?_, afterClose_eq_none h⟩
  have hstar : c ≠ '*' := fun hx => hhead (hx ▸ hc)
  have hslash : c ≠ '/' := fun hx => h (List.mem_of_head? (hx ▸ hc))
  simp [hstar, hslash]

/-- Blanks neither close a comment nor go on a closing mark. -/
theorem mute_of_isBlank (hv : ∀ c ∈ v, isBlank c = true) : Mute v := by
  refine mute_of_not_mem (fun h => ?_) fun h => ?_
  · exact absurd (hv _ (List.mem_of_head? h)) (by decide)
  · exact absurd (hv _ h) (by decide)

/-! ## Where a comment is closed -/

/-- A comment is open to the end just if no closing mark is left. -/
theorem afterClose_eq_none_iff : afterClose u = none ↔ ¬['*', '/'] <:+: u := by
  induction u with
  | nil => simp [afterClose]
  | cons c u ih =>
      rw [afterClose_cons, List.infix_cons_iff, not_or, ← ih]
      have hopen : ['*', '/'] <+: c :: u ↔ c = '*' ∧ u.head? = some '/' := by
        rw [List.cons_prefix_cons, eq_comm (a := '*')]
        cases u with
        | nil => simp
        | cons e u => simp [List.cons_prefix_cons, eq_comm (a := '/')]
      rw [hopen]
      split
      · next hclose => simp [hclose]
      · next hclose => simp [hclose]

/-- What closes a comment is the first closing mark. -/
theorem afterClose_closing (h : afterClose u = none) (v : List Char) :
    afterClose (u ++ '*' :: '/' :: v) = some v := by
  induction u with
  | nil => rfl
  | cons c u ih =>
      rw [afterClose_cons] at h
      rw [List.cons_append, afterClose_cons]
      split at h
      · simp at h
      · next hclose =>
        rw [if_neg, ih h]
        rintro ⟨hc, hhead⟩
        cases u with
        | nil => exact absurd hhead (by simp)
        | cons e u => exact hclose ⟨hc, hhead⟩

/-- A comment goes to the first closing mark. -/
theorem afterClose_eq_some_iff {rest : List Char} :
    afterClose u = some rest ↔ ∃ y, ¬['*', '/'] <:+: y ∧ u = y ++ '*' :: '/' :: rest := by
  constructor
  · intro h
    induction u with
    | nil => simp [afterClose] at h
    | cons c u ih =>
        rw [afterClose_cons] at h
        split at h
        · next hclose =>
          obtain ⟨t, rfl⟩ := List.head?_eq_some_iff.1 hclose.2
          obtain rfl := Option.some.inj h
          exact ⟨[], by simp, by rw [hclose.1]; rfl⟩
        · next hclose =>
          obtain ⟨y, hy, rfl⟩ := ih h
          refine ⟨c :: y, ?_, rfl⟩
          rw [← afterClose_eq_none_iff, afterClose_cons, if_neg, afterClose_eq_none_iff.2 hy]
          rintro ⟨hc, hhead⟩
          cases y with
          | nil => exact absurd hhead (by simp)
          | cons e y => exact hclose ⟨hc, hhead⟩
  · rintro ⟨y, hy, rfl⟩
    exact afterClose_closing (afterClose_eq_none_iff.2 hy) rest

/-! ## Stripping what is trimmed -/

theorem trimStart_concat {c : Char} (hc : isBlank c = false) (u : List Char) :
    trimStart (u ++ [c]) = trimStart u ++ [c] := by
  by_cases hu : trimStart u = []
  · rw [trimStart_append (trimStart_eq_nil_iff.1 hu), hu, trimStart_eq_self (headNot_cons.2 hc)]
    rfl
  · exact trimStart_append_of_not_blank hu [c]

theorem exists_trimEnd_concat (hv : isAllBlank v = false) :
    ∃ w c, trimEnd v = w ++ [c] ∧ isBlank c = false := by
  have hhead := headNot_dropWhile isBlank v.reverse
  cases h : v.reverse.dropWhile isBlank with
  | nil =>
      have hall := trimEnd_eq_nil_iff.1 (show trimEnd v = [] by rw [trimEnd, h]; rfl)
      rw [isAllBlank_iff.2 hall] at hv
      exact absurd hv.symm Bool.false_ne_true
  | cons c w =>
      rw [h] at hhead
      exact ⟨w.reverse, c, by rw [trimEnd, h, List.reverse_cons], headNot_cons.1 hhead⟩

/-- Behind a text that is not blank, trimming changes only its end. -/
theorem trim_append_of_not_blank (hv : isAllBlank v = false) :
    trim (u ++ v) = trimStart (u ++ trimEnd v) := by
  obtain ⟨b, hb, htext⟩ := exists_trimEnd v
  obtain ⟨w, c, hw, hc⟩ := exists_trimEnd_concat hv
  rw [hw] at htext ⊢
  rw [htext, ← List.append_assoc, trim_append_blanks hb, ← List.append_assoc, trim,
    trimStart_concat hc, trimEnd_concat hc]

/-- Trimmed, what stands behind a text that is stripped to nothing is stripped as it is alone. -/
theorem stripComments_trim_append (h : stripComments u = []) (hv : isAllBlank v = false) :
    stripComments (trim (u ++ v)) = stripComments (trim v) := by
  have hself := trim_append_of_not_blank (u := []) hv
  rw [List.nil_append, List.nil_append] at hself
  rw [trim_append_of_not_blank hv, hself, stripComments_trimStart, stripComments_trimStart,
    stripComments_append h]

/-- Trimming leaves nothing of a text that is stripped to nothing. -/
theorem stripComments_trim_eq_nil (h : stripComments u = []) : stripComments (trim u) = [] := by
  obtain ⟨b, hb, htext⟩ := exists_trimEnd (trimStart u)
  by_contra hne
  have hall := (mute_of_isBlank hb).stripComments_eq hne
  rw [trim, ← htext, stripComments_trimStart, h] at hall
  exact hne (List.append_eq_nil_iff.1 hall.symm).1

/-! ## Texts that vanish -/

/-- In front of other statements this text does not count. -/
structure Vanishes (front : List Char) : Prop where
  /-- The quotes of the text are closed. -/
  closed : plain.scan front = .plain
  /-- What the text is cut into is skipped. -/
  skipped : ∀ s ∈ (pieces front).dropLast.flatMap statementOf,
    Sql.isCreateTable (stripComments s) = false
  /-- What is left of it is stripped from the statement that it stands in front of. -/
  stripped : ∀ q ∈ (pieces front).getLast?, stripComments q = []

instance : DecidablePred Vanishes := fun front =>
  decidable_of_iff
    (plain.scan front = .plain ∧
      (∀ s ∈ (pieces front).dropLast.flatMap statementOf,
        Sql.isCreateTable (stripComments s) = false) ∧
      ∀ q ∈ (pieces front).getLast?, stripComments q = [])
    ⟨fun h => ⟨h.1, h.2.1, h.2.2⟩, fun h => ⟨h.1, h.2, h.3⟩⟩

/-- The text vanishes if its last piece does and the pieces before are skipped. -/
theorem vanishes_iff {front q : List Char} {qs : List (List Char)} (hq : pieces front = qs ++ [q]) :
    Vanishes front ↔ plain.scan front = .plain ∧
      (∀ s ∈ qs.flatMap statementOf, Sql.isCreateTable (stripComments s) = false) ∧
        stripComments q = [] := by
  constructor
  · rintro ⟨hclosed, hskipped, hstripped⟩
    rw [hq, List.dropLast_concat] at hskipped
    rw [hq, List.getLast?_concat] at hstripped
    exact ⟨hclosed, hskipped, hstripped q rfl⟩
  · rintro ⟨hclosed, hskipped, hstripped⟩
    refine ⟨hclosed, ?_, ?_⟩
    · rwa [hq, List.dropLast_concat]
    · rw [hq, List.getLast?_concat]
      rintro _ ⟨⟩
      exact hstripped

/-- Statements that create no table do not change which tables are read. -/
theorem result_readTables_skipped {xs : List (List Char)}
    (hxs : ∀ s ∈ xs, Sql.isCreateTable (stripComments s) = false) (ys : List (List Char)) :
    (readTables d (xs ++ ys)).result = .ok ts ↔ (readTables d ys).result = .ok ts := by
  induction xs with
  | nil => rfl
  | cons x xs ih =>
      rw [List.cons_append, result_readTables_skip (hxs x List.mem_cons_self)]
      exact ih fun s hs => hxs s (List.mem_cons_of_mem x hs)

/-- **Vanishing**: behind a text that vanishes, statements have the tables they have alone. -/
theorem Vanishes.result_readTables {front : List Char} (h : Vanishes front) (text : List Char) :
    (readTables d (statements (front ++ text))).result = .ok ts ↔
      (readTables d (statements text)).result = .ok ts := by
  obtain ⟨qs, q, hq, hv⟩ := exists_lastPiece front
  obtain ⟨p, ps, -, hps⟩ := exists_firstPiece .plain text
  obtain ⟨hclosed, hskipped, hstripped⟩ := (vanishes_iff hq).1 h
  have htext := hps []
  rw [List.reverse_nil, List.nil_append] at htext
  rw [statements_eq, hv, hclosed, hps, List.reverse_reverse, List.flatMap_append,
    result_readTables_skipped hskipped, statements_eq, pieces, htext, List.flatMap_cons,
    List.flatMap_cons]
  by_cases hp : isAllBlank p = true
  · have hnone : statementOf p = [] := by rw [statementOf, if_pos hp]
    rw [statementOf_append_blanks (isAllBlank_iff.1 hp), hnone, result_readTables_skipped]
    · rfl
    · intro s hs
      rw [statementOf] at hs
      split at hs
      · exact absurd hs List.not_mem_nil
      · rw [List.mem_singleton.1 hs, stripComments_trim_eq_nil hstripped]
        decide
  · have hblank := Bool.of_not_eq_true hp
    have happ : isAllBlank (q ++ p) = false := by
      rw [isAllBlank, List.all_append, ← isAllBlank, ← isAllBlank, hblank, Bool.and_false]
    have hstrip := stripComments_trim_append hstripped hblank
    rw [statementOf, happ, if_neg Bool.false_ne_true, statementOf, hblank,
      if_neg Bool.false_ne_true, List.singleton_append, List.singleton_append, readTables,
      readTables, hstrip]

end TableDdl.Script
