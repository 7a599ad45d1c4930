import Mathlib.Data.List.Basic
import TableDdl.Proofs.Text.Words
import TableDdl.Text.Lines

/-!
# Texts line by line

A text is a line without a break, or such a line, its break, and the rest of the text
(`line_induction`).  What is put behind a text changes its last line only (`exists_lastLine`).
Texts without a break, each with a line feed behind it, are the lines of what they make together
(`lines_flatMap_newline`).
-/

namespace TableDdl.Text

/-- There is no line break in the text. -/
def Unbroken (l : List Char) : Prop := ∀ c ∈ l, isLineBreak c = false

/-- `br` is one whole line break in front of `rest`. -/
inductive Breaks : List Char → List Char → Prop where
  | pair (rest : List Char) : Breaks ['\r', '\n'] rest
  | single {x : Char} {rest : List Char} (hx : isLineBreak x = true)
      (h : x = '\r' → rest.head? ≠ some '\n') : Breaks [x] rest

theorem unbroken_nil : Unbroken [] := fun _ hc => absurd hc List.not_mem_nil

theorem unbroken_cons {c : Char} {l : List Char} :
    Unbroken (c :: l) ↔ isLineBreak c = false ∧ Unbroken l :=
  List.forall_mem_cons

theorem unbroken_append {u v : List Char} : Unbroken (u ++ v) ↔ Unbroken u ∧ Unbroken v :=
  List.forall_mem_append

theorem unbroken_of_all {l : List Char} (h : l.all (fun c => !isLineBreak c) = true) :
    Unbroken l := fun c hc => by simpa using List.all_eq_true.1 h c hc

/-- Each of the line breaks is a blank, too. -/
theorem isBlank_of_isLineBreak {c : Char} (hc : isLineBreak c = true) : isBlank c = true := by
  simp only [isLineBreak, Bool.or_eq_true, Bool.and_eq_true, decide_eq_true_eq, beq_iff_eq] at hc
  simp only [isBlank, isWideBlank]
  split
  · simp only [Bool.or_eq_true, Bool.and_eq_true, decide_eq_true_eq, beq_iff_eq]
    omega
  · simp only [Bool.or_eq_true, Bool.and_eq_true, decide_eq_true_eq, beq_iff_eq]
    omega

/-- A word stands on one line. -/
theorem unbroken_of_isWord {l : List Char} (h : ∀ c ∈ l, isWord c = true) : Unbroken l := by
  intro c hc
  by_contra hbreak
  have hblank := isBlank_of_isLineBreak (Bool.of_not_eq_false hbreak)
  rw [not_isBlank_of_isWord (h c hc)] at hblank
  cases hblank

/-- A break is one or two line breaks, and nothing else. -/
theorem Breaks.isLineBreak {br rest : List Char} (h : Breaks br rest) :
    br ≠ [] ∧ ∀ c ∈ br, isLineBreak c = true := by
  cases h with
  | pair =>
      exact ⟨by simp, List.forall_mem_cons.2 ⟨by decide, List.forall_mem_singleton.2 (by decide)⟩⟩
  | single hx => exact ⟨by simp, by simpa using hx⟩

/-- A break stays one in front of more, unless a line feed would join a carriage return. -/
theorem Breaks.append {br rest : List Char} (h : Breaks br rest) {v : List Char}
    (hv : br = ['\r'] → rest = [] → v.head? ≠ some '\n') : Breaks br (rest ++ v) := by
  cases h with
  | pair => exact .pair _
  | single hx h =>
      refine .single hx fun hr => ?_
      cases rest with
      | nil => exact hv (by rw [hr]) rfl
      | cons c rest => exact h hr

theorem breaks_newline (rest : List Char) : Breaks ['\n'] rest :=
  .single (by decide) fun h => absurd h (by decide)

/-- A break begins with each character that can be one, a pair being taken as a whole. -/
theorem exists_breaks {c : Char} (hc : isLineBreak c = true) (text : List Char) :
    ∃ br rest, c :: text = br ++ rest ∧ Breaks br rest := by
  by_cases hpair : c = '\r' ∧ text.head? = some '\n'
  · obtain ⟨rfl, hhead⟩ := hpair
    obtain ⟨rest, rfl⟩ := List.head?_eq_some_iff.1 hhead
    exact ⟨_, rest, rfl, .pair rest⟩
  · exact ⟨[c], text, rfl, .single hc fun h hn => hpair ⟨h, hn⟩⟩

/-! ## The first line -/

/-- Characters that are no breaks go to the line at hand. -/
theorem linesFrom_append_of_unbroken {l : List Char} (hl : Unbroken l) (current rest : List Char) :
    linesFrom current (l ++ rest) = linesFrom (l.reverse ++ current) rest := by
  induction l generalizing current with
  | nil => rfl
  | cons c l ih =>
      have hc := hl c List.mem_cons_self
      have hcr : c ≠ '\r' := by
        rintro rfl
        exact absurd hc (by decide)
      rw [List.cons_append, linesFrom.eq_def]
      split
      · next h => simp at h
      · next h => exact absurd (List.cons.inj h).1 hcr
      · next d r _ h =>
        obtain ⟨rfl, rfl⟩ := List.cons.inj h
        rw [hc, if_neg Bool.false_ne_true, ih fun x hx => hl x (List.mem_cons_of_mem c hx)]
        simp

/-- A break ends the line at hand. -/
theorem linesFrom_append_of_breaks {br rest : List Char} (h : Breaks br rest)
    (current : List Char) :
    linesFrom current (br ++ rest) = current.reverse :: linesFrom [] rest := by
  cases h with
  | pair => rfl
  | @single x rest hx h =>
      rw [List.singleton_append, linesFrom.eq_def]
      split
      · next h => simp at h
      · next r hr =>
        obtain ⟨rfl, rfl⟩ := List.cons.inj hr
        exact absurd rfl (h rfl)
      · next d r _ hd =>
        obtain ⟨rfl, rfl⟩ := List.cons.inj hd
        rw [if_pos hx]

/-- A text without breaks is one line, unless it is empty. -/
theorem lines_of_unbroken {l : List Char} (hl : Unbroken l) (hne : l ≠ []) : lines l = [l] := by
  have h := linesFrom_append_of_unbroken hl [] []
  rw [List.append_nil, List.append_nil] at h
  rw [lines, h, linesFrom, if_neg (by simpa using hne), List.reverse_reverse]

/-- The first break ends the first line. -/
theorem lines_append_of_breaks {l br rest : List Char} (hl : Unbroken l) (h : Breaks br rest) :
    lines (l ++ (br ++ rest)) = l :: lines rest := by
  rw [lines, linesFrom_append_of_unbroken hl, linesFrom_append_of_breaks h, List.append_nil,
    List.reverse_reverse]
  rfl

/-- Lines that each end in a line feed are read back as they are. -/
theorem lines_flatMap_newline {ls : List (List Char)} (hls : ∀ l ∈ ls, Unbroken l) :
    lines (ls.flatMap (· ++ ['\n'])) = ls := by
  induction ls with
  | nil => rfl
  | cons l ls ih =>
      obtain ⟨hl, hls⟩ := List.forall_mem_cons.1 hls
      have hfirst := lines_append_of_breaks hl (breaks_newline (ls.flatMap (· ++ ['\n'])))
      rw [List.flatMap_cons, List.append_assoc, hfirst, ih hls]

/-- A text is one line, or a line, a break and the rest. -/
theorem exists_line (text : List Char) :
    Unbroken text ∨ ∃ l br rest, text = l ++ (br ++ rest) ∧ Unbroken l ∧ Breaks br rest := by
  induction text with
  | nil => exact .inl unbroken_nil
  | cons c text ih =>
      by_cases hc : isLineBreak c = true
      · obtain ⟨br, rest, htext, hbr⟩ := exists_breaks hc text
        exact .inr ⟨[], br, rest, htext, unbroken_nil, hbr⟩
      · have hc := Bool.of_not_eq_true hc
        rcases ih with h | ⟨l, br, rest, rfl, hl, hbr⟩
        · exact .inl (unbroken_cons.2 ⟨hc, h⟩)
        · exact .inr ⟨c :: l, br, rest, rfl, unbroken_cons.2 ⟨hc, hl⟩, hbr⟩

/-- **Line by line**: what holds of a line, and of a line with its break in front of a text of which
it holds, holds of each text. -/
@[elab_as_elim]
theorem line_induction {P : List Char → Prop} (unbroken : ∀ l, Unbroken l → P l)
    (line : ∀ l br rest, Unbroken l → Breaks br rest → P rest → P (l ++ (br ++ rest)))
    (text : List Char) : P text := by
  induction hn : text.length using Nat.strongRecOn generalizing text with
  | _ n ih =>
  subst hn
  rcases exists_line text with h | ⟨l, br, rest, rfl, hl, hbr⟩
  · exact unbroken text h
  · refine line l br rest hl hbr (ih rest.length ?_ rest rfl)
    have hpos := List.length_pos_iff.2 hbr.isLineBreak.1
    rw [List.length_append, List.length_append]
    omega

/-- The lines of a text stand in it. -/
theorem infix_of_mem_lines {text l : List Char} (h : l ∈ lines text) : l <:+: text := by
  induction text using line_induction with
  | unbroken line hline =>
      by_cases hne : line = []
      · subst hne
        simp [lines, linesFrom] at h
      · rw [lines_of_unbroken hline hne, List.mem_singleton] at h
        subst h
        exact List.infix_rfl
  | line line br rest hline hbr ih =>
      rw [lines_append_of_breaks hline hbr, List.mem_cons] at h
      rcases h with rfl | h
      · exact (List.prefix_append l _).isInfix
      · rw [← List.append_assoc]
        exact (ih h).trans (List.suffix_append _ rest).isInfix

/-! ## The last line -/

/-- A text has complete lines and a last line, perhaps empty, which goes on with whatever is put
behind the text. -/
theorem exists_lastLine (text : List Char) :
    ∃ front ls last, text = front ++ last ∧ Unbroken last ∧
      (∀ c ∈ front.getLast?, isLineBreak c = true) ∧
      ∀ v, (last = [] → v.head? ≠ some '\n') → lines (text ++ v) = ls ++ lines (last ++ v) := by
  induction text using line_induction with
  | unbroken l hl => exact ⟨[], [], l, rfl, hl, by simp, fun _ _ => rfl⟩
  | line l br rest hl hbr ih =>
      obtain ⟨front, ls, last, hrest, hlast, hfront, hlines⟩ := ih
      have hend : ∀ c ∈ (l ++ (br ++ front)).getLast?, isLineBreak c = true := by
        intro c hc
        obtain ⟨hne, hbreak⟩ := hbr.isLineBreak
        rw [List.getLast?_append_of_ne_nil _ (by simp [hne])] at hc
        by_cases hnil : front = []
        · rw [hnil, List.append_nil] at hc
          exact hbreak c (List.mem_of_getLast? hc)
        · rw [List.getLast?_append_of_ne_nil _ hnil] at hc
          exact hfront c hc
      refine ⟨l ++ (br ++ front), l :: ls, last, by simp [hrest], hlast, hend, fun v hv => ?_⟩
      have hnil : rest = [] → last = [] := fun h => (List.append_eq_nil_iff.1 (hrest ▸ h)).2
      have hbreaks := hbr.append (v := v) fun _ h => hv (hnil h)
      rw [List.append_assoc, List.append_assoc, lines_append_of_breaks hl hbreaks, hlines v hv]
      rfl

/-- A line feed behind a text that ends in no break ends its last line. -/
theorem lines_append_newline {text : List Char} {c : Char} (hc : isLineBreak c = false)
    (rest : List Char) :
    lines (text ++ c :: '\n' :: rest) = lines (text ++ [c]) ++ lines rest := by
  obtain ⟨front, ls, last, -, hlast, -, hlines⟩ := exists_lastLine text
  have hcn : c ≠ '\n' := by
    rintro rfl
    exact absurd hc (by decide)
  have hline : Unbroken (last ++ [c]) := unbroken_append.2 ⟨hlast, by simpa [Unbroken] using hc⟩
  have hall := lines_append_of_breaks hline (breaks_newline rest)
  rw [List.append_assoc] at hall
  rw [hlines _ fun _ => by simpa using hcn, hlines _ fun _ => by simpa using hcn,
    lines_of_unbroken hline (by simp), List.append_assoc]
  exact congrArg (ls ++ ·) hall

/-! ## Joining -/

theorem joinLines_singleton (l : List Char) : joinLines [l] = l := by
  simp [joinLines, List.intercalate]

theorem joinLines_cons_cons (l m : List Char) (ms : List (List Char)) :
    joinLines (l :: m :: ms) = l ++ '\n' :: joinLines (m :: ms) := by
  simp [joinLines, List.intercalate]

/-- Each line but the last one ends in a line feed. -/
theorem joinLines_append_cons (ls : List (List Char)) (m : List Char) (ms : List (List Char)) :
    joinLines (ls ++ m :: ms) = ls.flatMap (· ++ ['\n']) ++ joinLines (m :: ms) := by
  induction ls with
  | nil => rfl
  | cons l ls ih =>
      have hcons : joinLines (l :: (ls ++ m :: ms)) = l ++ '\n' :: joinLines (ls ++ m :: ms) := by
        cases ls with
        | nil => exact joinLines_cons_cons l m ms
        | cons k ls => exact joinLines_cons_cons l k (ls ++ m :: ms)
      rw [List.cons_append, hcons, ih, List.flatMap_cons, List.append_assoc, List.append_assoc]
      rfl

/-- In front of the last line, every line has its line feed. -/
theorem joinLines_concat (ls : List (List Char)) (l : List Char) :
    joinLines (ls ++ [l]) = ls.flatMap (· ++ ['\n']) ++ l := by
  rw [joinLines_append_cons, joinLines_singleton]

/-- A line feed behind every line is one behind all of them joined. -/
theorem flatMap_newline {ls : List (List Char)} (hls : ls ≠ []) :
    ls.flatMap (· ++ ['\n']) = joinLines ls ++ ['\n'] := by
  obtain ⟨front, l, rfl⟩ := (List.eq_nil_or_concat' ls).resolve_left hls
  rw [joinLines_concat, List.flatMap_append, List.flatMap_singleton, List.append_assoc]

/-- Joined lines are joined by a line feed. -/
theorem joinLines_append {ls ms : List (List Char)} (hls : ls ≠ []) (hms : ms ≠ []) :
    joinLines (ls ++ ms) = joinLines ls ++ '\n' :: joinLines ms := by
  obtain ⟨m, ms, rfl⟩ := List.exists_cons_of_ne_nil hms
  rw [joinLines_append_cons, flatMap_newline hls, List.append_assoc]
  rfl

theorem joinLines_cons (l : List Char) (ls : List (List Char)) :
    joinLines (l :: ls) = l ++ if ls = [] then [] else '\n' :: joinLines ls := by
  cases ls with
  | nil => rw [if_pos rfl, joinLines_singleton, List.append_nil]
  | cons m ms => rw [if_neg (List.cons_ne_nil m ms), joinLines_cons_cons]

end TableDdl.Text
