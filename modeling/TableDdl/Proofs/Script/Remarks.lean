import TableDdl.Proofs.Script.Cutting
import TableDdl.Proofs.Script.Padding
import TableDdl.Proofs.Text.Lines

/-!
# What cleaning drops

Cleaning drops whole lines: those that are blank, those that begin with `#` or `--`, and those that
run from `/*` to `*/`, a semicolon perhaps behind it (`isKeptLine_eq_false_iff`).  A dropped line
ought to be a remark, which is blank or nothing but comments, and it ought to begin outside of
quotes.  Two kinds of lines are dropped that are not meant:

```
/* a */ DROP TABLE t; /* b */       runs from `/*` to `*/`, with SQL between two comments
INSERT INTO t VALUES ('             begins a string, of which the next line is dropped
# no comment')
```

All that is dropped is remarks if and only if the script is tidy (`Tidy`): read line by line, no
line between quotes looks like a comment, and each line from `/*` to `*/` holds comments alone.
-/

namespace TableDdl.Script

open Text Mode
open Written (blanks0 mark)

variable {b l r t u v w : List Char} {m : Mode} {ls : List (List Char)}

/-! ## Remarks -/

/-- Blanks, and perhaps a comment that goes on to the end of the line. -/
def openRemarks : Language Char := blanks0 * (1 + (mark '#' + mark '-' * mark '-') * ⊤)

/-- A semicolon, perhaps, and blanks. -/
def closing : Language Char := (1 + mark ';') * blanks0

/-- What begins with an opening mark and ends with a closing mark, whatever is between them. -/
def enclosed : Language Char := {w | ['/', '*'] <+: w ∧ ['*', '/'] <:+ w}

/-- What runs from an opening mark to a closing mark, a semicolon perhaps behind it. -/
def spans : Language Char := blanks0 * (enclosed * closing)

/-- Nothing but comments: one that goes on to the end of the line, or closed ones, behind which a
semicolon may stand. -/
def remarks : Language Char := openRemarks + padding * closing

/-- In mode `m`, a line that is a remark in looks begins outside of quotes and is a remark; behind a
line that is kept, the mode is the one that its quotes lead to. -/
inductive Tidy : Mode → List (List Char) → Prop where
  | nil (m : Mode) : Tidy m []
  | kept {m : Mode} {l : List Char} {ls : List (List Char)} : l ∉ openRemarks + spans →
      Tidy (m.scan (l ++ ['\n'])) ls → Tidy m (l :: ls)
  | dropped {l : List Char} {ls : List (List Char)} : l ∈ openRemarks + spans → l ∈ remarks →
      Tidy .plain ls → Tidy .plain (l :: ls)

/-! ## Which lines are dropped -/

/-- What begins with marks is trimmed behind them only. -/
theorem prefix_trim (hw : ∀ c ∈ w, isBlank c = false) (h : trimStart l = w ++ v) :
    w <+: trim l := by
  obtain ⟨b, hb, htext⟩ := exists_trimEnd (trimStart l)
  have hsplit : w ++ v = trim l ++ b := h.symm.trans htext
  rcases List.append_eq_append_iff.1 hsplit with ⟨x, hx, -⟩ | ⟨x, hx, hbx⟩
  · exact ⟨x, hx.symm⟩
  · cases x with
    | nil => exact ⟨[], by simpa using hx⟩
    | cons c x =>
        have hc := hw c (by rw [hx]; simp)
        rw [hb c (by rw [hbx]; simp)] at hc
        exact absurd hc.symm Bool.false_ne_true

/-- Trimming takes off blanks in front and behind, up to a first and a last mark. -/
theorem trim_of_marks {c : Char} (hb : ∀ c ∈ b, isBlank c = true) (hv : ∀ c ∈ v, isBlank c = true)
    (hw : HeadNot isBlank (u ++ [c])) (hc : isBlank c = false) :
    trim (b ++ (u ++ [c] ++ v)) = u ++ [c] := by
  rw [trim_blanks_append hb, trim_append_blanks hv, trim, trimStart_eq_self hw, trimEnd_concat hc]

/-- A line of blanks, or one that begins with a mark behind them. -/
theorem mem_openRemarks_iff : l ∈ openRemarks ↔
    isAllBlank l = true ∨ ['#'] <+: trim l ∨ ['-', '-'] <+: trim l := by
  constructor
  · rintro ⟨b, hb, r, hr | ⟨w, hw, v, -, rfl⟩, rfl⟩
    · obtain rfl := Set.mem_singleton_iff.1 hr
      left
      change isAllBlank (b ++ []) = true
      rw [List.append_nil, isAllBlank_iff]
      exact hb
    · right
      rcases hw with rfl | ⟨_, rfl, _, rfl, rfl⟩
      · refine .inl (prefix_trim (v := v) (List.forall_mem_singleton.2 (by decide)) ?_)
        exact (trimStart_append hb).trans (trimStart_eq_self (headNot_cons.2 (by decide)))
      · have hdash : isBlank '-' = false := by decide
        refine .inr (prefix_trim (v := v) (List.forall_mem_cons.2 ⟨hdash,
          List.forall_mem_singleton.2 hdash⟩) ?_)
        exact (trimStart_append hb).trans (trimStart_eq_self (headNot_cons.2 (by decide)))
  · obtain ⟨b, b', hb, -, htext⟩ := exists_trim l
    rintro (hblank | ⟨v, hv⟩ | ⟨v, hv⟩)
    · exact ⟨l, isAllBlank_iff.1 hblank, [], .inl rfl, List.append_nil l⟩
    · refine ⟨b, hb, trim l ++ b', .inr ⟨['#'], .inl rfl, v ++ b', trivial, ?_⟩, ?_⟩
      · simp [← hv]
      · exact (List.append_assoc b _ b').symm.trans htext.symm
    · refine ⟨b, hb, trim l ++ b', .inr ⟨['-', '-'], .inr ⟨['-'], rfl, ['-'], rfl, rfl⟩, v ++ b',
        trivial, ?_⟩, ?_⟩
      · simp [← hv]
      · exact (List.append_assoc b _ b').symm.trans htext.symm

/-- An opening mark is trimmed of the blanks around it only. -/
theorem trim_of_opening {c : Char} (hb : ∀ c ∈ b, isBlank c = true)
    (hv : ∀ c ∈ v, isBlank c = true) (hopen : ['/', '*'] <+: u ++ [c]) (hc : isBlank c = false) :
    trim (b ++ (u ++ [c] ++ v)) = u ++ [c] := by
  refine trim_of_marks hb hv ?_ hc
  obtain ⟨x, hx⟩ := hopen
  rw [← hx]
  exact headNot_cons.2 (by decide)

/-- Trimmed, a span is what its marks enclose, with the semicolon or without it. -/
theorem exists_trim_of_mem_spans (h : l ∈ spans) :
    ∃ w ∈ enclosed, trim l = w ∨ trim l = w ++ [';'] := by
  obtain ⟨b, hb, _, ⟨_, ⟨hopen, y, rfl⟩, _, ⟨e, he, b', hb', rfl⟩, rfl⟩, rfl⟩ := h
  refine ⟨y ++ ['*', '/'], ⟨hopen, List.suffix_append y _⟩, ?_⟩
  change trim (b ++ (y ++ ['*', '/'] ++ (e ++ b'))) = _ ∨
    trim (b ++ (y ++ ['*', '/'] ++ (e ++ b'))) = _
  rcases he with rfl | rfl
  · left
    have hself : ['/', '*'] <+: y ++ ['*'] ++ ['/'] := by simpa using hopen
    simpa using trim_of_opening hb hb' hself (by decide)
  · right
    have hlonger : ['/', '*'] <+: y ++ ['*', '/'] ++ [';'] := hopen.trans (List.prefix_append _ _)
    simpa using trim_of_opening hb hb' hlonger (by decide)

/-- A line between marks, by how it begins and ends when it is trimmed. -/
theorem mem_spans_iff : l ∈ spans ↔
    ['/', '*'] <+: trim l ∧ (['*', '/', ';'] <:+ trim l ∨ ['*', '/'] <:+ trim l) := by
  constructor
  · intro h
    obtain ⟨_, ⟨hopen, y, rfl⟩, htrim | htrim⟩ := exists_trim_of_mem_spans h
    · rw [htrim]
      exact ⟨hopen, .inr (List.suffix_append y _)⟩
    · rw [htrim, List.append_assoc]
      refine ⟨?_, .inl (List.suffix_append y _)⟩
      simpa using hopen.trans (List.prefix_append _ [';'])
  · obtain ⟨b, b', hb, hb', htext⟩ := exists_trim l
    rintro ⟨hopen, ⟨y, hy⟩ | hclose⟩
    · have hw : ['/', '*'] <+: y ++ ['*', '/'] := by
        refine List.prefix_of_prefix_length_le hopen ⟨[';'], ?_⟩ (by simp)
        simpa using hy
      refine ⟨b, hb, _, ⟨y ++ ['*', '/'], ⟨hw, List.suffix_append y _⟩, [';'] ++ b',
        ⟨[';'], .inr rfl, b', hb', rfl⟩, rfl⟩, ?_⟩
      rw [htext, ← hy]
      simp
    · refine ⟨b, hb, _, ⟨trim l, ⟨hopen, hclose⟩, [] ++ b', ⟨[], .inl rfl, b', hb', rfl⟩, rfl⟩, ?_⟩
      exact (List.append_assoc b _ b').symm.trans htext.symm

/-- **The dropped lines.** -/
theorem isKeptLine_eq_false_iff : isKeptLine l = false ↔ l ∈ openRemarks + spans := by
  rw [Language.mem_add, mem_openRemarks_iff, mem_spans_iff]
  simp only [isKeptLine, isCommentLine, Bool.and_eq_false_iff, Bool.not_eq_false', Bool.or_eq_true,
    Bool.and_eq_true, List.isPrefixOf_iff_prefix, List.isSuffixOf_iff_suffix]
  tauto

/-! ## What is dropped where -/

/-- A line feed behind the lines opens and closes no quotes. -/
theorem scan_flatMap_newline (ks : List (List Char)) :
    plain.scan (ks.flatMap (· ++ ['\n'])) = .plain ↔ plain.scan (joinLines ks) = .plain := by
  by_cases hks : ks = []
  · simp [hks, joinLines]
  · have hquote : (plain.scan (joinLines ks)).HasQuote :=
      HasQuote.scan (show HasQuote plain from trivial) _
    rw [flatMap_newline hks, scan_append,
      scan_of_isBlank hquote (by simp) (List.forall_mem_singleton.2 (by decide)),
      afterBlank_eq_plain]

/-- Each dropped line, in mode `m` and behind the kept ones before it, begins outside of quotes and
is a remark. -/
def DropsRemarks (m : Mode) (ls : List (List Char)) : Prop :=
  ∀ front l back, ls = front ++ l :: back → isKeptLine l = false →
    m.scan ((front.filter isKeptLine).flatMap (· ++ ['\n'])) = .plain ∧ l ∈ remarks

theorem dropsRemarks_nil (m : Mode) : DropsRemarks m [] := fun _ _ _ h => by simp at h

/-- A line that is kept leads to the mode that the lines behind it are looked at in. -/
theorem dropsRemarks_cons_of_kept (hl : isKeptLine l = true) :
    DropsRemarks m (l :: ls) ↔ DropsRemarks (m.scan (l ++ ['\n'])) ls := by
  have hstep (front : List (List Char)) :
      m.scan (((l :: front).filter isKeptLine).flatMap (· ++ ['\n'])) =
        (m.scan (l ++ ['\n'])).scan ((front.filter isKeptLine).flatMap (· ++ ['\n'])) := by
    rw [List.filter_cons_of_pos hl, List.flatMap_cons, scan_append]
  constructor
  · intro h front k back htext hk
    have := h (l :: front) k back (by rw [htext]; rfl) hk
    rwa [hstep] at this
  · intro h front k back htext hk
    cases front with
    | nil =>
        obtain ⟨rfl, -⟩ := List.cons.inj htext
        rw [hl] at hk
        exact absurd hk.symm Bool.false_ne_true
    | cons j front =>
        obtain ⟨rfl, rfl⟩ := List.cons.inj htext
        rw [hstep]
        exact h front k back rfl hk

/-- A line that is dropped changes no mode, and must be a remark outside of quotes. -/
theorem dropsRemarks_cons_of_dropped (hl : isKeptLine l = false) :
    DropsRemarks m (l :: ls) ↔ m = .plain ∧ l ∈ remarks ∧ DropsRemarks m ls := by
  have hstep (front : List (List Char)) :
      (l :: front).filter isKeptLine = front.filter isKeptLine :=
    List.filter_cons_of_neg (by simp [hl])
  constructor
  · intro h
    obtain ⟨hm, hremark⟩ := h [] l ls rfl hl
    refine ⟨hm, hremark, fun front k back htext hk => ?_⟩
    have := h (l :: front) k back (by rw [htext]; rfl) hk
    rwa [hstep] at this
  · rintro ⟨hm, hremark, h⟩ front k back htext hk
    cases front with
    | nil =>
        obtain ⟨rfl, -⟩ := List.cons.inj htext
        exact ⟨hm, hremark⟩
    | cons j front =>
        obtain ⟨rfl, rfl⟩ := List.cons.inj htext
        rw [hstep]
        exact h front k back rfl hk

theorem tidy_cons_of_kept (hl : isKeptLine l = true) :
    Tidy m (l :: ls) ↔ Tidy (m.scan (l ++ ['\n'])) ls := by
  have hlooks : l ∉ openRemarks + spans := by rw [← isKeptLine_eq_false_iff, hl]; simp
  constructor
  · intro h
    cases h with
    | kept _ h => exact h
    | dropped h => exact absurd h hlooks
  · exact .kept hlooks

theorem tidy_cons_of_dropped (hl : isKeptLine l = false) :
    Tidy m (l :: ls) ↔ m = .plain ∧ l ∈ remarks ∧ Tidy m ls := by
  have hlooks := isKeptLine_eq_false_iff.1 hl
  constructor
  · intro h
    cases h with
    | kept h => exact absurd hlooks h
    | dropped _ hremark h => exact ⟨rfl, hremark, h⟩
  · rintro ⟨rfl, hremark, h⟩
    exact .dropped hlooks hremark h

/-- Only remarks are dropped if and only if the lines are tidy. -/
theorem dropsRemarks_iff : DropsRemarks m ls ↔ Tidy m ls := by
  induction ls generalizing m with
  | nil => exact iff_of_true (dropsRemarks_nil m) (.nil m)
  | cons l ls ih =>
      cases hl : isKeptLine l with
      | true => rw [dropsRemarks_cons_of_kept hl, tidy_cons_of_kept hl, ih]
      | false => rw [dropsRemarks_cons_of_dropped hl, tidy_cons_of_dropped hl, ih]

/-- Everyday scripts are tidy: each line closes the quotes that it opens, and what looks like
comments is. -/
theorem tidy_of_closed_lines (hquotes : ∀ l ∈ ls, l ∉ openRemarks + spans → plain.scan l = .plain)
    (hspans : ∀ l ∈ ls, l ∈ spans → l ∈ remarks) : Tidy .plain ls := by
  induction ls with
  | nil => exact .nil _
  | cons l ls ih =>
      obtain ⟨hquote, hquotes⟩ := List.forall_mem_cons.1 hquotes
      obtain ⟨hspan, hspans⟩ := List.forall_mem_cons.1 hspans
      by_cases hl : l ∈ openRemarks + spans
      · exact .dropped hl (hl.elim .inl hspan) (ih hquotes hspans)
      · refine .kept hl ?_
        rw [scan_append, hquote hl]
        exact ih hquotes hspans

/-- **What cleaning drops.**  The lines that are kept are joined as they are; the others are blank,
begin with `#` or `--`, or run from `/*` to `*/`; and all that is dropped is remarks, outside of
quotes, if and only if the lines are tidy. -/
theorem clean_drops_remarks_iff (script : List Char) :
    clean script = joinLines ((lines (dropByteOrderMark script)).filter isKeptLine) ∧
      (∀ l, isKeptLine l = false ↔ l ∈ openRemarks + spans) ∧
      ((∀ front l back, lines (dropByteOrderMark script) = front ++ l :: back →
          isKeptLine l = false →
          plain.scan (joinLines (front.filter isKeptLine)) = .plain ∧ l ∈ remarks) ↔
        Tidy .plain (lines (dropByteOrderMark script))) := by
  refine ⟨rfl, fun _ => isKeptLine_eq_false_iff, ?_⟩
  simp only [← scan_flatMap_newline]
  exact dropsRemarks_iff

/-! ## Lines that are no remarks -/

/-- What closes a remark consists of blanks and semicolons. -/
theorem mem_of_mem_closing {c : Char} (ht : t ∈ closing) (hc : c ∈ t) :
    isBlank c = true ∨ c = ';' := by
  obtain ⟨e, he, b, hb, rfl⟩ := ht
  rcases List.mem_append.1 hc with hc | hc
  · rcases he with rfl | rfl
    · exact absurd hc List.not_mem_nil
    · exact .inr (List.mem_singleton.1 hc)
  · exact .inl (hb c hc)

/-- What goes on behind comments is none. -/
theorem not_mem_padding_mul_closing {c : Char} (hu : u ∈ padding) (hblank : isBlank c = false)
    (hopen : c ≠ '/') (hsemi : c ≠ ';') : u ++ c :: v ∉ padding * closing := by
  have hclosing (q : List Char) (hq : q ∈ closing) : c ∉ q := by
    intro hc
    rcases mem_of_mem_closing hq hc with hc | hc
    · rw [hblank] at hc
      exact Bool.false_ne_true hc
    · exact hsemi hc
  refine padding_induction (P := fun u => u ++ c :: v ∉ padding * closing) ?_ ?_ hu
  · rintro ⟨p, hp, q, hq, h : p ++ q = c :: v⟩
    rcases mem_padding_iff.1 hp with rfl | ⟨x, ⟨d, hd, rfl⟩ | ⟨body, -, rfl⟩, p', -, rfl⟩
    · exact hclosing q hq (by rw [← List.nil_append q, h]; simp)
    · obtain ⟨rfl, -⟩ := List.cons.inj h
      rw [hblank] at hd
      exact Bool.false_ne_true hd
    · exact hopen (List.cons.inj h).1.symm
  · rintro y hy w - ih ⟨p, hp, q, hq, h : p ++ q = y ++ w ++ c :: v⟩
    rcases mem_padding_iff.1 hp with rfl | ⟨x, hx, p', hp', rfl⟩
    · exact hclosing q hq (by rw [← List.nil_append q, h]; simp)
    · rw [List.append_assoc, List.append_assoc] at h
      exact ih ⟨p', hp', q, hq, (unit_append_inj hx hy h).2⟩

/-- A statement between two comments is dropped. -/
theorem not_forall_dropped_remarks :
    ¬∀ script front l back, lines (dropByteOrderMark script) = front ++ l :: back →
      isKeptLine l = false →
        plain.scan (joinLines (front.filter isKeptLine)) = .plain ∧ l ∈ remarks := by
  intro h
  let line := "/* a */USE d; /* b */".toList
  obtain ⟨-, hremark⟩ := h line [] line [] (by decide) (by decide)
  have hcomment : "/* a */".toList ∈ comments := ⟨" a ".toList, by decide, by decide⟩
  rcases hremark with hopen | hclosed
  · exact absurd (mem_openRemarks_iff.1 hopen) (by decide)
  · have hfront := append_mem_padding (.inr hcomment) nil_mem_padding
    exact not_mem_padding_mul_closing (c := 'U') (v := "SE d; /* b */".toList) hfront (by decide)
      (by decide) (by decide) hclosed

end TableDdl.Script
