import Mathlib.Computability.Language
import TableDdl.Proofs.Text.Quoted
import TableDdl.Proofs.Text.Words
import TableDdl.Script.Pieces

/-!
# Strings in scripts

Two readers of a script follow its quotes.  The cut into pieces counts a backtick as a quote; the
grammar of statements does not, since a name may have a backtick on one side only.  `scanString`
follows the quotes as the grammar does.

What the grammar takes is in `lexemes`: outside of strings it consists of blanks, word characters
and a few marks, inside of strings of what a string may hold, and each string is closed.  So a line
feed never stands inside of a string, nor a semicolon outside of one.
-/

namespace TableDdl.Script

open Text

namespace Mode

/-! ## The quotes of the grammar -/

/-- Where the character behind `c` stands, as the grammar sees it. -/
def stepString : Mode → Char → Mode
  | plain, c => if Quoted.isQuote c then quoted c else plain
  | quoted q, c => (quoted q).step c
  | escaped q, c => (escaped q).step c

/-- Where the character behind `text` stands, as the grammar sees it. -/
def scanString (m : Mode) (text : List Char) : Mode := text.foldl stepString m

@[simp]
theorem scanString_nil (m : Mode) : m.scanString [] = m := rfl

@[simp]
theorem scanString_cons (m : Mode) (c : Char) (text : List Char) :
    m.scanString (c :: text) = (m.stepString c).scanString text := rfl

/-- A scan goes on where it stopped. -/
theorem scanString_append (m : Mode) (u v : List Char) :
    m.scanString (u ++ v) = (m.scanString u).scanString v :=
  List.foldl_append

/-- Outside of strings only a quote changes the mode. -/
theorem stepString_plain {c : Char} (hc : Quoted.isQuote c = false) :
    plain.stepString c = plain := by
  simp [stepString, hc]

/-! ## Characters that lead nowhere -/

/-- Characters that each leave a mode leave it together. -/
theorem foldl_eq_self {next : Mode → Char → Mode} {m : Mode} {text : List Char}
    (h : ∀ c ∈ text, next m c = m) : text.foldl next m = m := by
  induction text with
  | nil => rfl
  | cons c text ih =>
      obtain ⟨hc, htext⟩ := List.forall_mem_cons.1 h
      rw [List.foldl_cons, hc, ih htext]

theorem scan_eq_self {m : Mode} {text : List Char} (h : ∀ c ∈ text, m.step c = m) :
    m.scan text = m :=
  foldl_eq_self h

theorem scanString_eq_self {m : Mode} {text : List Char} (h : ∀ c ∈ text, m.stepString c = m) :
    m.scanString text = m :=
  foldl_eq_self h

/-- Without an opening mark the scan stays outside. -/
theorem scan_plain {text : List Char} (h : ∀ c ∈ text, isOpening c = false) :
    plain.scan text = plain :=
  scan_eq_self fun c hc => by simp [step, h c hc]

theorem scanString_plain {text : List Char} (h : ∀ c ∈ text, Quoted.isQuote c = false) :
    plain.scanString text = plain :=
  scanString_eq_self fun c hc => stepString_plain (h c hc)

/-- Only its quote ends a string, and only a backslash hides what comes next. -/
theorem step_quoted {q c : Char} (hq : c ≠ q) (hslash : c ≠ '\\') :
    (quoted q).step c = quoted q := by
  simp [step, hq, hslash]

/-! ## Blanks -/

theorem not_isOpening_of_isBlank {c : Char} (hc : isBlank c = true) : isOpening c = false := by
  by_contra h
  simp only [isOpening, Bool.not_eq_false, Bool.or_eq_true, beq_iff_eq] at h
  rcases h with (rfl | rfl) | rfl <;> exact absurd hc (by decide)

/-- Where a text stands between quotes, these are quotes. -/
def HasQuote : Mode → Prop
  | plain => True
  | quoted q => isOpening q = true
  | escaped q => isOpening q = true

/-- A mode with a quote leads to modes with quotes. -/
theorem HasQuote.step {m : Mode} (hm : m.HasQuote) (c : Char) : (m.step c).HasQuote := by
  cases m with
  | plain =>
      rw [Mode.step]
      split
      · next hc => exact hc
      · trivial
  | quoted q =>
      rw [Mode.step]
      split
      · trivial
      · split <;> exact hm
  | escaped q => exact hm

/-- Whatever is scanned, the mode inside of a string is one of a quote. -/
theorem HasQuote.scan {m : Mode} (hm : m.HasQuote) (text : List Char) : (m.scan text).HasQuote := by
  induction text generalizing m with
  | nil => exact hm
  | cons c text ih => exact ih (hm.step c)

/-- Where the character behind a blank stands. -/
def afterBlank : Mode → Mode
  | plain => plain
  | quoted q => quoted q
  | escaped q => quoted q

/-- A blank ends an escape and does nothing else. -/
theorem step_of_isBlank {m : Mode} (hm : m.HasQuote) {c : Char} (hc : isBlank c = true) :
    m.step c = m.afterBlank := by
  have hslash : c ≠ '\\' := by
    rintro rfl
    exact absurd hc (by decide)
  cases m with
  | plain => simp [step, afterBlank, not_isOpening_of_isBlank hc]
  | quoted q =>
      have hq : c ≠ q := by
        rintro rfl
        rw [HasQuote, not_isOpening_of_isBlank hc] at hm
        exact Bool.false_ne_true hm
      simp [step, afterBlank, hq, hslash]
  | escaped q => rfl

theorem HasQuote.afterBlank {m : Mode} (hm : m.HasQuote) : m.afterBlank.HasQuote := by
  cases m <;> exact hm

theorem afterBlank_afterBlank (m : Mode) : m.afterBlank.afterBlank = m.afterBlank := by
  cases m <;> rfl

/-- Of blanks it does not matter which they are, nor how many. -/
theorem scan_of_isBlank {m : Mode} (hm : m.HasQuote) {b : List Char} (hne : b ≠ [])
    (hb : ∀ c ∈ b, isBlank c = true) : m.scan b = m.afterBlank := by
  induction b generalizing m with
  | nil => exact absurd rfl hne
  | cons c b ih =>
      rw [scan_cons, step_of_isBlank hm (hb c List.mem_cons_self)]
      cases b with
      | nil => rfl
      | cons d b =>
          rw [ih hm.afterBlank (by simp) fun x hx => hb x (List.mem_cons_of_mem c hx),
            afterBlank_afterBlank]

/-- A blank does not bring a scan out of a string. -/
theorem afterBlank_eq_plain {m : Mode} : m.afterBlank = plain ↔ m = plain := by
  cases m <;> simp [afterBlank]

/-- Blanks do not end a string. -/
theorem scanString_of_isBlank {m : Mode} {b : List Char} (hb : ∀ c ∈ b, isBlank c = true)
    (hm : m.HasQuote) : m.scanString b = plain ↔ m = plain := by
  induction b generalizing m with
  | nil => rfl
  | cons c b ih =>
      have hc := hb c List.mem_cons_self
      have hstep : m.stepString c = m.afterBlank := by
        cases m with
        | plain => exact stepString_plain (Quoted.not_isQuote_of_isBlank hc)
        | quoted q => exact step_of_isBlank hm hc
        | escaped q => rfl
      rw [scanString_cons, hstep, ih (fun x hx => hb x (List.mem_cons_of_mem c hx)) hm.afterBlank,
        afterBlank_eq_plain]

theorem HasQuote.scanString {m : Mode} (hm : m.HasQuote) (text : List Char) :
    (m.scanString text).HasQuote := by
  induction text generalizing m with
  | nil => exact hm
  | cons c text ih =>
      refine ih ?_
      cases m with
      | plain =>
          rw [stepString]
          split
          · next hc => exact Bool.or_eq_true_iff.2 (.inl hc)
          · trivial
      | quoted q => exact hm.step c
      | escaped q => exact hm.step c

/-! ## What the grammar takes -/

/-- The marks that stand outside of strings. -/
def marks : List Char := ['`', '(', ')', ',', '=']

/-- Character that the grammar takes in this mode. -/
def admits : Mode → Char → Bool
  | plain, c => isBlank c || isWord c || Quoted.isQuote c || marks.contains c
  | quoted q, c => Quoted.isQuote q && (c == q || c == '\\' || Quoted.isPlain c)
  | escaped _, c => (Quoted.unescape c).isSome

/-- The grammar takes all the characters of the text. -/
def Legible (m : Mode) : List Char → Prop
  | [] => True
  | c :: text => m.admits c = true ∧ (m.stepString c).Legible text

/-- A text is legible just if its parts are, the second in the mode that the first leads to. -/
theorem legible_append {m : Mode} {u v : List Char} :
    m.Legible (u ++ v) ↔ m.Legible u ∧ (m.scanString u).Legible v := by
  induction u generalizing m with
  | nil => simp [Legible]
  | cons c u ih => simp [Legible, ih, and_assoc]

/-- A character in the middle of a legible text is admitted where it stands. -/
theorem Legible.admits {m : Mode} {u v : List Char} {c : Char} (h : m.Legible (u ++ c :: v)) :
    (m.scanString u).admits c = true :=
  (legible_append.1 h).2.1

/-- A semicolon stands in a statement only within a string. -/
theorem not_admits_plain_semicolon : plain.admits ';' = false := by decide

/-- A line may end outside of strings only. -/
theorem eq_plain_of_admits_newline {m : Mode} (h : m.admits '\n' = true) : m = plain := by
  cases m with
  | plain => rfl
  | quoted q =>
      rw [Mode.admits, Bool.and_eq_true] at h
      have hq : ('\n' == q) = false := by
        rw [beq_eq_false_iff_ne]
        rintro rfl
        exact absurd h.1 (by decide)
      rw [hq] at h
      exact absurd h.2 (by decide)
  | escaped q => exact absurd h Bool.false_ne_true

end Mode

open Mode

/-- Texts that the grammar takes: all characters are legible, and each string is closed. -/
def lexemes : Language Char := {w | plain.Legible w ∧ plain.scanString w = plain}

theorem nil_mem_lexemes : [] ∈ lexemes := ⟨trivial, rfl⟩

/-- Lexemes begin and end outside of strings, so they can be put together. -/
theorem append_mem_lexemes : ∀ u ∈ lexemes, ∀ v ∈ lexemes, u ++ v ∈ lexemes := by
  rintro u ⟨hu, hum⟩ v ⟨hv, hvm⟩
  refine ⟨legible_append.2 ⟨hu, ?_⟩, ?_⟩
  · rwa [hum]
  · rw [scanString_append, hum, hvm]

/-- A text without quotes is a lexeme if nothing in it opens a comment or ends a statement. -/
theorem mem_lexemes_of_forall {w : List Char}
    (hw : ∀ c ∈ w, plain.admits c = true ∧ Quoted.isQuote c = false) : w ∈ lexemes := by
  induction w with
  | nil => exact nil_mem_lexemes
  | cons c w ih =>
      obtain ⟨hadmits, hquote⟩ := hw c List.mem_cons_self
      have hstep := stepString_plain hquote
      obtain ⟨hl, hs⟩ := ih fun x hx => hw x (List.mem_cons_of_mem c hx)
      refine ⟨⟨hadmits, ?_⟩, ?_⟩
      · rwa [hstep]
      · rwa [scanString_cons, hstep]

theorem blanks_mem_lexemes {w : List Char} (hw : ∀ c ∈ w, isBlank c = true) : w ∈ lexemes :=
  mem_lexemes_of_forall fun c hc =>
    ⟨by simp [admits, hw c hc], Quoted.not_isQuote_of_isBlank (hw c hc)⟩

/-- A word opens no string and holds none of the marks of comments. -/
theorem words_mem_lexemes {w : List Char} (hw : ∀ c ∈ w, isWord c = true) : w ∈ lexemes :=
  mem_lexemes_of_forall fun c hc =>
    ⟨by simp [admits, hw c hc], Quoted.not_isQuote_of_isWord (hw c hc)⟩

/-- What stands between the quotes of a string is legible there, and leads back to the quotes. -/
theorem legible_of_spells {q : Char} (hq : Quoted.isQuote q = true) {content body : List Char}
    (h : Quoted.Spells content body) :
    (quoted q).Legible body ∧ (quoted q).scanString body = quoted q := by
  have htick : q ≠ '`' := by
    rintro rfl
    exact absurd hq (by decide)
  induction h with
  | nil => exact ⟨trivial, rfl⟩
  | @plain c content body hc h ih =>
      have hcq : c ≠ q := Quoted.ne_of_isPlain hq hc
      have hcb : c ≠ '\\' := by
        rintro rfl
        exact absurd hc (by decide)
      have hstep : (quoted q).stepString c = quoted q := by simp [stepString, step, hcq, hcb]
      refine ⟨⟨by simp [admits, hq, hc], ?_⟩, ?_⟩
      · rw [hstep]
        exact ih.1
      · rw [scanString_cons, hstep]
        exact ih.2
  | @escape e c content body he h ih =>
      have hslash := Quoted.backslash_ne_of_isQuote hq
      have hstep : (quoted q).stepString '\\' = escaped q := by
        simp [stepString, step, hslash, htick]
      refine ⟨⟨by simp [admits, hq], ?_⟩, ?_⟩
      · rw [hstep]
        exact ⟨by simp [admits, he], ih.1⟩
      · rw [scanString_cons, hstep]
        exact ih.2

/-- A string is a lexeme, whatever its content. -/
theorem string_mem_lexemes {q : Char} (hq : Quoted.isQuote q = true) {content body : List Char}
    (h : Quoted.Spells content body) : q :: body ++ [q] ∈ lexemes := by
  obtain ⟨hl, hs⟩ := legible_of_spells hq h
  have hopen : plain.stepString q = quoted q := by simp [stepString, hq]
  refine ⟨⟨by simp [admits, hq], ?_⟩, ?_⟩
  · rw [hopen]
    exact legible_append.2 ⟨hl, by rw [hs]; simp [Legible, admits, hq]⟩
  · rw [List.cons_append, scanString_cons, hopen, scanString_append, hs]
    simp [stepString, step]

end TableDdl.Script
