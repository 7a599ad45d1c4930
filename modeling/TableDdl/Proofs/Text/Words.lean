import Mathlib.Data.List.TakeWhile
import TableDdl.Text.Blank
import TableDdl.Text.LowerCase
import TableDdl.Text.Word

/-!
# How texts begin and end

The facts about words and blanks that grammars and scripts share: a longest run ends where the next
character does not belong to it (`HeadNot`), words and blanks have no character in common, and
trimming takes off blanks and nothing else.
-/

namespace TableDdl.Text

/-- The word that the text begins with, in small letters; empty where it begins with none. -/
def firstWord (text : List Char) : List Char :=
  (text.takeWhile isWord).map asciiLower

/-- The text does not begin with a character that satisfies `p`. -/
def HeadNot (p : Char → Bool) (text : List Char) : Prop :=
  ∀ c ∈ text.head?, p c = false

/-- Character of a keyword: a small letter or the underscore. -/
def isSmall (c : Char) : Bool := (decide ('a' ≤ c) && decide (c ≤ 'z')) || c == '_'

/-! ## Heads -/

@[simp]
theorem headNot_nil (p : Char → Bool) : HeadNot p [] := by simp [HeadNot]

@[simp]
theorem headNot_cons {p : Char → Bool} {c : Char} {text : List Char} :
    HeadNot p (c :: text) ↔ p c = false := by simp [HeadNot]

/-- What the first character is not is decided by that character. -/
theorem headNot_of_head? {p : Char → Bool} {v : List Char} {x : Char} (hv : v.head? = some x)
    (hx : p x = false) : HeadNot p v := by
  intro y hy
  rwa [← Option.some.inj (hv.symm.trans hy)]

/-- A text in front that is not empty decides about the first character. -/
theorem headNot_append {p : Char → Bool} {u v : List Char} (hu : u ≠ []) :
    HeadNot p (u ++ v) ↔ HeadNot p u := by
  cases u with
  | nil => exact absurd rfl hu
  | cons c u => simp

/-- The run ends where the text behind it begins with another character. -/
theorem takeWhile_append_of_headNot {p : Char → Bool} {u v : List Char} (hu : ∀ c ∈ u, p c = true)
    (hv : HeadNot p v) : (u ++ v).takeWhile p = u := by
  rw [List.takeWhile_append_of_pos hu]
  cases v with
  | nil => simp
  | cons c v => simp [headNot_cons.1 hv]

/-- A run is dropped up to the first character that fails the test. -/
theorem dropWhile_append_of_headNot {p : Char → Bool} {u v : List Char} (hu : ∀ c ∈ u, p c = true)
    (hv : HeadNot p v) : (u ++ v).dropWhile p = v := by
  rw [List.dropWhile_append_of_pos hu]
  cases v with
  | nil => simp
  | cons c v => simp [headNot_cons.1 hv]

/-- Where a run ends and what it is does not depend on what comes behind it. -/
theorem append_inj_of_headNot {p : Char → Bool} {w w' u v : List Char} (hw : ∀ c ∈ w, p c = true)
    (hw' : ∀ c ∈ w', p c = true) (hu : HeadNot p u) (hv : HeadNot p v) (h : w ++ u = w' ++ v) :
    w = w' ∧ u = v := by
  have hrun := congrArg (List.takeWhile p) h
  rw [takeWhile_append_of_headNot hw hu, takeWhile_append_of_headNot hw' hv] at hrun
  subst hrun
  exact ⟨rfl, List.append_cancel_left h⟩

/-- Behind the longest run comes no more of it. -/
theorem headNot_dropWhile (p : Char → Bool) (text : List Char) :
    HeadNot p (text.dropWhile p) := by
  intro c hc
  have := List.head?_dropWhile_not p text
  rw [Option.mem_def.1 hc] at this
  simpa using this

/-! ## Words of a list -/

/-- Lists of keywords with none in common have no word in common. -/
theorem not_mem_map_toList {ks ls : List String} {w : List Char} (hw : w ∈ ks.map String.toList)
    (hd : ∀ k ∈ ks, k ∉ ls) : w ∉ ls.map String.toList := by
  obtain ⟨k, hk, rfl⟩ := List.mem_map.1 hw
  intro hl
  obtain ⟨l, hl, hlk⟩ := List.mem_map.1 hl
  exact hd k hk (String.toList_injective hlk ▸ hl)

/-- No keyword is empty. -/
theorem nil_not_mem_map_toList {ks : List String} (hks : "" ∉ ks) : [] ∉ ks.map String.toList := by
  intro hmem
  obtain ⟨k, hk, hnil⟩ := List.mem_map.1 hmem
  exact hks (String.toList_eq_nil_iff.1 hnil ▸ hk)

/-! ## Blanks in front -/

theorem trimStart_append {b v : List Char} (hb : ∀ c ∈ b, isBlank c = true) :
    trimStart (b ++ v) = trimStart v :=
  List.dropWhile_append_of_pos hb

theorem trimStart_eq_self {v : List Char} (hv : HeadNot isBlank v) : trimStart v = v :=
  dropWhile_append_of_headNot (u := []) (by simp) hv

/-- Trimming leaves no blank in front. -/
theorem headNot_trimStart (text : List Char) : HeadNot isBlank (trimStart text) :=
  headNot_dropWhile isBlank text

/-- The blanks in front, and the text without them. -/
theorem takeWhile_append_trimStart (text : List Char) :
    text.takeWhile isBlank ++ trimStart text = text :=
  List.takeWhile_append_dropWhile

theorem isBlank_of_mem_takeWhile (text : List Char) :
    ∀ c ∈ text.takeWhile isBlank, isBlank c = true :=
  fun _ hc => List.mem_takeWhile_imp hc

/-- Only blanks are trimmed to nothing. -/
theorem trimStart_eq_nil_iff {text : List Char} :
    trimStart text = [] ↔ ∀ c ∈ text, isBlank c = true := by
  rw [trimStart, List.dropWhile_eq_nil_iff]

/-! ## Blanks behind -/

theorem trimEnd_append {v b : List Char} (hb : ∀ c ∈ b, isBlank c = true) :
    trimEnd (v ++ b) = trimEnd v := by
  have hrev : ∀ c ∈ b.reverse, isBlank c = true := fun c hc => hb c (List.mem_reverse.1 hc)
  rw [trimEnd, trimEnd, List.reverse_append, List.dropWhile_append_of_pos hrev]

/-- A character that is no blank ends the trimming. -/
theorem trimEnd_concat {v : List Char} {c : Char} (hc : isBlank c = false) :
    trimEnd (v ++ [c]) = v ++ [c] := by
  simp [trimEnd, hc]

/-- What trimming takes from the end is blanks. -/
theorem exists_trimEnd (text : List Char) :
    ∃ b, (∀ c ∈ b, isBlank c = true) ∧ text = trimEnd text ++ b := by
  refine ⟨(text.reverse.takeWhile isBlank).reverse, ?_, ?_⟩
  · intro c hc
    exact List.mem_takeWhile_imp (List.mem_reverse.1 hc)
  · rw [trimEnd, ← List.reverse_append, List.takeWhile_append_dropWhile, List.reverse_reverse]

theorem trimEnd_eq_nil_iff {text : List Char} :
    trimEnd text = [] ↔ ∀ c ∈ text, isBlank c = true := by
  simp [trimEnd, List.dropWhile_eq_nil_iff]

theorem trim_eq_nil_iff {text : List Char} : trim text = [] ↔ ∀ c ∈ text, isBlank c = true := by
  rw [trim, trimEnd_eq_nil_iff, ← trimStart_eq_nil_iff, ← trimStart_eq_nil_iff,
    trimStart_eq_self (headNot_trimStart text)]

/-- Trimming only takes away at both ends. -/
theorem trim_infix_self (text : List Char) : trim text <:+: text := by
  obtain ⟨b, -, hb⟩ := exists_trimEnd (trimStart text)
  have hend : trim text <+: trimStart text := ⟨b, hb.symm⟩
  exact hend.isInfix.trans (List.dropWhile_suffix isBlank).isInfix

/-- A text is what it is trimmed to, between blanks. -/
theorem exists_trim (text : List Char) :
    ∃ b b', (∀ c ∈ b, isBlank c = true) ∧ (∀ c ∈ b', isBlank c = true) ∧
      text = b ++ trim text ++ b' := by
  obtain ⟨b', hb', hend⟩ := exists_trimEnd (trimStart text)
  refine ⟨text.takeWhile isBlank, b', isBlank_of_mem_takeWhile text, hb', ?_⟩
  rw [trim, List.append_assoc, ← hend, takeWhile_append_trimStart]

/-! ## Words -/

/-- The code points of the blank characters. -/
def blankCodes : List Nat :=
  [0x09, 0x0A, 0x0B, 0x0C, 0x0D, 0x1C, 0x1D, 0x1E, 0x1F, 0x20, 0x85, 0xA0, 0x1680, 0x2000, 0x2001,
    0x2002, 0x2003, 0x2004, 0x2005, 0x2006, 0x2007, 0x2008, 0x2009, 0x200A, 0x2028, 0x2029, 0x202F,
    0x205F, 0x3000]

/-- There are only finitely many blanks, so what holds of each can be decided. -/
theorem toNat_mem_of_isBlank {c : Char} (hc : isBlank c = true) : c.toNat ∈ blankCodes := by
  simp only [isBlank, isWideBlank] at hc
  split at hc <;>
    simp only [Bool.or_eq_true, Bool.and_eq_true, beq_iff_eq, decide_eq_true_eq] at hc <;>
    simp only [blankCodes, List.mem_cons, List.not_mem_nil, or_false] <;> omega

/-- Blanks are no word characters, in all of the character set. -/
theorem not_isWord_of_isBlank {c : Char} (hc : isBlank c = true) : isWord c = false := by
  have hall : ∀ n ∈ blankCodes, isWord (Char.ofNat n) = false := by decide +kernel
  rw [← Char.ofNat_toNat c]
  exact hall _ (toNat_mem_of_isBlank hc)

theorem not_isBlank_of_isWord {c : Char} (hc : isWord c = true) : isBlank c = false := by
  by_contra hb
  rw [not_isWord_of_isBlank (by simpa using hb)] at hc
  exact Bool.false_ne_true hc

theorem isWord_of_isDigit {c : Char} (hc : isDigit c = true) : isWord c = true := by
  simp only [isDigit, Bool.and_eq_true, decide_eq_true_eq] at hc
  have hdig : c.isDigit = true := by
    simp only [Char.isDigit, ge_iff_le, decide_eq_true_eq, Bool.and_eq_true]
    exact hc
  have hlt : c.toNat < 0x80 :=
    Nat.lt_of_le_of_lt (UInt32.le_iff_toNat_le.1 hc.2) (by decide)
  simp [isWord, isAlphanumeric, hlt, Char.isAlphanum, hdig]

/-- Digits are word characters. -/
theorem headNot_isDigit_of_isWord {v : List Char} (hv : HeadNot isWord v) : HeadNot isDigit v := by
  intro c hc
  by_contra hd
  have hw := hv c hc
  rw [isWord_of_isDigit (Bool.of_not_eq_false hd)] at hw
  exact Bool.false_ne_true hw.symm

/-- The first word of a text is the word in front of it, in small letters. -/
theorem firstWord_append {w v : List Char} (hw : ∀ c ∈ w, isWord c = true)
    (hv : HeadNot isWord v) : firstWord (w ++ v) = w.map asciiLower := by
  rw [firstWord, takeWhile_append_of_headNot hw hv]

/-- A text that begins otherwise has an empty first word. -/
theorem firstWord_eq_nil {v : List Char} (hv : HeadNot isWord v) : firstWord v = [] := by
  simpa using firstWord_append (w := []) (by simp) hv

/-- The letters of keywords have codes below 128. -/
theorem lt_of_isSmall {c : Char} (hc : isSmall c = true) : c.toNat < 0x80 := by
  simp only [isSmall, Bool.or_eq_true, Bool.and_eq_true, decide_eq_true_eq, beq_iff_eq] at hc
  rcases hc with ⟨-, hz⟩ | rfl
  · exact Nat.lt_of_le_of_lt (UInt32.le_iff_toNat_le.1 hz) (by decide)
  · decide

/-- A character whose lower-case form is a keyword character is an ASCII word character. -/
theorem isWord_of_isSmall_asciiLower {c : Char} (hc : isSmall (asciiLower c) = true) :
    isWord c = true ∧ c.toNat < 0x80 := by
  by_cases hu : 'A' ≤ c ∧ c ≤ 'Z'
  · have h1 : 65 ≤ c.toNat := UInt32.le_iff_toNat_le.1 hu.1
    have h2 : c.toNat ≤ 90 := UInt32.le_iff_toNat_le.1 hu.2
    have h3 : c.isAlphanum = true := by
      have hup : c.isUpper = true := decide_eq_true hu
      change ((c.isUpper || c.isLower) || c.isDigit) = true
      rw [hup, Bool.true_or, Bool.true_or]
    refine ⟨?_, by omega⟩
    rw [isWord, isAlphanumeric, if_pos (by omega), h3, Bool.true_or]
  · rw [asciiLower, if_neg hu] at hc
    have hlt := lt_of_isSmall hc
    refine ⟨?_, hlt⟩
    rw [isWord, isAlphanumeric, if_pos hlt]
    simp only [isSmall, Bool.or_eq_true, Bool.and_eq_true, decide_eq_true_eq, beq_iff_eq] at hc ⊢
    refine hc.imp_left fun h => ?_
    have hlo : c.isLower = true :=
      Bool.and_eq_true_iff.2 ⟨decide_eq_true h.1, decide_eq_true h.2⟩
    change ((c.isUpper || c.isLower) || c.isDigit) = true
    rw [hlo, Bool.or_true, Bool.true_or]

theorem asciiLower_eq_self {c : Char} (hc : isSmall c = true) : asciiLower c = c := by
  rw [asciiLower, if_neg]
  rintro ⟨-, hZ⟩
  simp only [isSmall, Bool.or_eq_true, Bool.and_eq_true, decide_eq_true_eq, beq_iff_eq] at hc
  rcases hc with ⟨ha, -⟩ | rfl
  · exact absurd (Char.le_trans ha hZ) (by decide)
  · exact absurd hZ (by decide)

/-- No digit is the small form of a letter. -/
theorem not_isSmall_of_isDigit {c : Char} (hc : isDigit c = true) :
    isSmall (asciiLower c) = false := by
  rw [isDigit, Bool.and_eq_true, decide_eq_true_eq, decide_eq_true_eq] at hc
  have hupper : ¬('A' ≤ c ∧ c ≤ 'Z') := fun h =>
    absurd (Char.le_trans h.1 hc.2) (by decide)
  by_contra hs
  rw [asciiLower, if_neg hupper] at hs
  simp only [isSmall, Bool.not_eq_false, Bool.or_eq_true, Bool.and_eq_true, decide_eq_true_eq,
    beq_iff_eq] at hs
  rcases hs with ⟨ha, -⟩ | rfl
  · exact absurd (Char.le_trans ha hc.2) (by decide)
  · exact absurd hc.2 (by decide)

/-- Small letters stay as they are, wherever they stand. -/
theorem lowerAfter_eq_self {before text : List Char} (h : text.all isSmall = true) :
    lowerAfter before text = text := by
  induction text generalizing before with
  | nil => rfl
  | cons c text ih =>
      rw [List.all_cons, Bool.and_eq_true] at h
      have hlt := lt_of_isSmall h.1
      have hs : c ≠ 'Σ' := by rintro rfl; exact absurd hlt (by decide)
      rw [lowerAfter, if_neg hs, lowerChar, if_pos hlt, asciiLower_eq_self h.1, ih h.2]
      rfl

end TableDdl.Text
