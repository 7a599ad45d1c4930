import Mathlib.Algebra.Group.Nat.Defs
import Mathlib.Data.List.Forall2
import TableDdl.Error
import TableDdl.Export.Json
import TableDdl.Proofs.Text.Numbers

/-!
# What a JSON text says

The rules of JSON for the documents of this library, each with what it says: `TextOf document w`
holds if `w` is a JSON text of the document.  Blanks may stand around every token.  A character of a
string may stand for itself, behind a backslash by a letter, or by its UTF-16 units in hexadecimal
digits of either case.  Documents have neither fractions nor truth values nor null, so a text with
any of these is a text of none; and a number has at most `maxDigits` digits, here as wherever a
number is read.

The layout of a document is one of its texts (`textOf_layout`), and all its characters are printable
ASCII, line feeds and tabs (`clean_layout`).
-/

namespace TableDdl.Export.Json

/-! ## Characters and strings -/

/-- Blank between the tokens of a text. -/
def isSpace (c : Char) : Bool := c == ' ' || c == '\t' || c == '\n' || c == '\r'

/-- The value of a hexadecimal digit of either case. -/
def hexValue (c : Char) : Option Nat :=
  if '0' ≤ c ∧ c ≤ '9' then some (c.toNat - 0x30)
  else if 'a' ≤ c ∧ c ≤ 'f' then some (c.toNat - 0x57)
  else if 'A' ≤ c ∧ c ≤ 'F' then some (c.toNat - 0x37)
  else none

/-- The UTF-16 unit that four hexadecimal digits stand for. -/
def unitOf : List Char → Option Nat
  | [a, b, c, d] => do
      let w ← hexValue a
      let x ← hexValue b
      let y ← hexValue c
      let z ← hexValue d
      return ((w * 16 + x) * 16 + y) * 16 + z
  | _ => none

/-- The letters that may stand behind a backslash, and what they stand for. -/
def letters : List (Char × Char) :=
  [('"', '"'), ('\\', '\\'), ('/', '/'), ('b', '\x08'), ('f', '\x0c'), ('n', '\n'), ('r', '\r'),
    ('t', '\t')]

/-- `w` stands for the character `c` in a string. -/
inductive CharText : Char → List Char → Prop where
  | plain {c : Char} (hc : 0x20 ≤ c.toNat) (hquote : c ≠ '"') (hslash : c ≠ '\\') : CharText c [c]
  | letter {e c : Char} (he : letters.lookup e = some c) : CharText c ['\\', e]
  | unit {c : Char} {w : List Char} (hw : unitOf w = some c.toNat) : CharText c ('\\' :: 'u' :: w)
  /-- A character beyond U+FFFF is written by two units, the high one first. -/
  | pair {c : Char} {high low : Nat} {u w : List Char} (hu : unitOf u = some (0xD800 + high))
      (hw : unitOf w = some (0xDC00 + low)) (hhigh : high < 0x400) (hlow : low < 0x400)
      (hc : c.toNat = 0x10000 + high * 0x400 + low) :
      CharText c ('\\' :: 'u' :: u ++ '\\' :: 'u' :: w)

/-- `w` is a string, with its quotes. -/
def StringText (s : String) (w : List Char) : Prop :=
  ∃ parts, List.Forall₂ CharText s.toList parts ∧ w = '"' :: parts.flatten ++ ['"']

/-! ## Numbers -/

/-- `w` is a number without a sign: no zero stands in front that could be left out. -/
structure Digits (n : Nat) (w : List Char) : Prop where
  isDigit : ∀ c ∈ w, c.isDigit = true
  ne_nil : w ≠ []
  zero : w.head? = some '0' → w = ['0']
  length_le : w.length ≤ maxDigits
  value : Nat.ofDigitChars 10 w 0 = n

/-- `w` is a number. -/
inductive NumberText : Int → List Char → Prop where
  | unsigned {n : Nat} {w : List Char} (h : Digits n w) : NumberText n w
  | minus {n : Nat} {w : List Char} (h : Digits n w) : NumberText (-n) ('-' :: w)

/-! ## Documents -/

/-- All characters of `b` are blanks between tokens. -/
def Spaces (b : List Char) : Prop := ∀ c ∈ b, isSpace c = true

/-- `w` holds texts of the entries, at least one, with commas between them and blanks around
each. -/
inductive EntriesText {α : Type} (Entry : α → List Char → Prop) : List α → List Char → Prop where
  | last {b w b' : List Char} {x : α} (hb : Spaces b) (hx : Entry x w) (hb' : Spaces b') :
      EntriesText Entry [x] (b ++ w ++ b')
  | cons {b w b' rest : List Char} {x : α} {xs : List α} (hb : Spaces b) (hx : Entry x w)
      (hb' : Spaces b') (h : EntriesText Entry xs rest) :
      EntriesText Entry (x :: xs) (b ++ w ++ b' ++ ',' :: rest)

/-- `w` is a field: its key, a colon and its value. -/
inductive FieldText (Value : Json → List Char → Prop) : String × Json → List Char → Prop where
  | mk {key : String} {value : Json} {k b b' w : List Char} (hkey : StringText key k)
      (hb : Spaces b) (hb' : Spaces b') (hvalue : Value value w) :
      FieldText Value (key, value) (k ++ b ++ ':' :: b' ++ w)

/-- `w` is a JSON text of the document, without blanks around it. -/
inductive TextOf : Json → List Char → Prop where
  | string {s : String} {w : List Char} (h : StringText s w) : TextOf (string s) w
  | number {n : Int} {w : List Char} (h : NumberText n w) : TextOf (number n) w
  | emptyArray {b : List Char} (hb : Spaces b) : TextOf (array []) ('[' :: b ++ [']'])
  | array {items : List Json} {w : List Char} (h : EntriesText TextOf items w) :
      TextOf (array items) ('[' :: w ++ [']'])
  | emptyObject {b : List Char} (hb : Spaces b) : TextOf (object []) ('\x7b' :: b ++ ['\x7d'])
  | object {fields : List (String × Json)} {w : List Char}
      (h : EntriesText (FieldText TextOf) fields w) :
      TextOf (object fields) ('\x7b' :: w ++ ['\x7d'])

/-- `text` is a JSON text of the document. -/
def IsText (document : Json) (text : List Char) : Prop :=
  ∃ b w b', Spaces b ∧ TextOf document w ∧ Spaces b' ∧ text = b ++ w ++ b'

/-! ## Escapes -/

/-- A digit is read back as the value that it was written for. -/
theorem hexValue_hexDigit : ∀ n < 16, hexValue (Text.hexDigit n) = some n := by decide

/-- Four digits are read back as the unit they were written for. -/
theorem unitOf_hexDigits {n : Nat} (hn : n < 0x10000) : unitOf (Text.hexDigits 4 n) = some n := by
  have hdigit (m : Nat) : hexValue (Text.hexDigit (m % 16)) = some (m % 16) :=
    hexValue_hexDigit _ (Nat.mod_lt _ (by decide))
  simp only [Text.hexDigits, List.nil_append, List.cons_append, unitOf, hdigit, Option.pure_def,
    Option.bind_eq_bind, Option.bind_some, Option.some.injEq]
  omega

/-- The escape of a code is one unit, or a pair of surrogates. -/
theorem charText_codeEscape (c : Char) : CharText c (codeEscape c) := by
  rw [codeEscape]
  split
  · next hc => exact .unit (unitOf_hexDigits hc)
  · next hc =>
    have hlt : c.toNat < 0x110000 := by
      rcases c.valid with h | ⟨-, h⟩
      · exact Nat.lt_trans h (by decide)
      · exact h
    refine .pair (unitOf_hexDigits ?_) (unitOf_hexDigits ?_) ?_ ?_ ?_ <;> omega

/-- Whichever way a character is written, it is one of the ways to write it. -/
theorem charText_escape (c : Char) : CharText c (escape c) := by
  rw [escape]
  split
  · next hc => rcases hc with rfl | rfl <;> exact .letter rfl
  split
  · next hc => exact hc ▸ .letter rfl
  split
  · next hc => exact hc ▸ .letter rfl
  split
  · next hc => exact hc ▸ .letter rfl
  split
  · next hc =>
    obtain rfl : c = '\x08' := Char.toNat_inj.1 hc
    exact .letter rfl
  split
  · next hc =>
    obtain rfl : c = '\x0c' := Char.toNat_inj.1 hc
    exact .letter rfl
  split
  · next hquote _ _ _ _ _ hc =>
    exact .plain hc.1 (fun h => hquote (.inl h)) (fun h => hquote (.inr h))
  · exact charText_codeEscape c

/-- A string is written character by character. -/
theorem stringText_stringText (s : String) : StringText s (stringText s) := by
  refine ⟨s.toList.map escape, ?_, by rw [stringText, List.flatMap_def]⟩
  exact List.forall₂_map_right_iff.2 (List.forall₂_same.2 fun c _ => charText_escape c)

/-! ## Numbers -/

/-- Only zero is written with a zero in front. -/
theorem head?_toDigits {n : Nat} (h : (Nat.toDigits 10 n).head? = some '0') :
    Nat.toDigits 10 n = ['0'] := by
  induction n using Nat.strongRecOn with
  | _ n ih =>
  rw [Nat.toDigits_eq_if (by decide)] at h ⊢
  split at h
  · next hn =>
    rw [if_pos hn]
    simpa using h
  · next hn =>
    -- A number that begins with a zero is zero, but here a tenth of the number is at least one.
    rw [List.head?_append_of_ne_nil _ Nat.toDigits_ne_nil] at h
    have hzero := ih (n / 10) (by omega) h
    have hvalue : n / 10 = 0 := by
      rw [← Nat.ofDigitChars_ten_toDigits (n := n / 10), hzero]
      rfl
    omega

/-- The digits of a number stand for it, with no zero in front, and there are not too many. -/
theorem digits_toDigits {n : Nat} (hn : n < 10 ^ maxDigits) : Digits n (Nat.toDigits 10 n) where
  isDigit := fun c hc => Nat.isDigit_of_mem_toDigits (by decide) (by decide) hc
  ne_nil := Nat.toDigits_ne_nil
  zero := head?_toDigits
  length_le := (Nat.length_toDigits_le_iff (by decide) (by decide)).2 hn
  value := Nat.ofDigitChars_ten_toDigits

/-- An integer is written as a number, with a hyphen in front of a negative one. -/
theorem numberText_toString {n : Int} (hn : n.natAbs < 10 ^ maxDigits) :
    NumberText n (toString n).toList := by
  cases n with
  | ofNat m =>
      rw [Text.toList_toString_ofNat]
      exact .unsigned (digits_toDigits hn)
  | negSucc m =>
      rw [Text.toList_toString_negSucc]
      exact .minus (digits_toDigits hn)

/-! ## Layout -/

mutual

/-- Each number of the document has at most `maxDigits` digits. -/
def Fits : Json → Prop
  | string _ => True
  | number n => n.natAbs < 10 ^ maxDigits
  | array items => FitsItems items
  | object fields => FitsFields fields

/-- Each item fits. -/
def FitsItems : List Json → Prop
  | [] => True
  | item :: rest => Fits item ∧ FitsItems rest

/-- The value of each field fits. -/
def FitsFields : List (String × Json) → Prop
  | [] => True
  | (_, value) :: rest => Fits value ∧ FitsFields rest

end

theorem spaces_nil : Spaces [] := fun _ h => absurd h List.not_mem_nil

/-- A new line is a line feed and tabs. -/
theorem spaces_newLine (level : Nat) : Spaces (newLine level) :=
  List.forall_mem_cons.2 ⟨rfl, fun _ hc => (List.eq_of_mem_replicate hc) ▸ rfl⟩

/-- Entries with commas and breaks between them are the entries of a block. -/
theorem entriesText_intercalate {α : Type} {Entry : α → List Char → Prop} {xs : List α}
    {entries : List (List Char)} (h : List.Forall₂ Entry xs entries) (hne : entries ≠ [])
    {b b' : List Char} (hb : Spaces b) (hb' : Spaces b') :
    EntriesText Entry xs (b ++ List.intercalate (',' :: b) entries ++ b') := by
  induction h with
  | nil => exact absurd rfl hne
  | @cons x w xs entries hx h ih =>
      cases h with
      | nil => simpa [List.intercalate] using EntriesText.last hb hx hb'
      | @cons y v ys rest hy h =>
          have hrest := ih (by simp)
          have hall := EntriesText.cons hb hx spaces_nil hrest
          simpa [List.intercalate] using hall

/-- A block that holds something has each entry on a line of its own. -/
theorem block_of_ne_nil {level : Nat} {o c : Char} {entries : List (List Char)}
    (hne : entries ≠ []) :
    block level o c entries =
      o :: (newLine (level + 1) ++ List.intercalate (',' :: newLine (level + 1)) entries ++
        newLine level) ++ [c] := by
  rw [block, if_neg (by simpa using hne)]
  rfl

/-- A block is the two marks alone, or holds texts of its entries between them. -/
theorem block_cases {α : Type} {Entry : α → List Char → Prop} {xs : List α}
    {entries : List (List Char)} (h : List.Forall₂ Entry xs entries) (level : Nat) (o c : Char) :
    (xs = [] ∧ block level o c entries = [o, c]) ∨
      ∃ w, EntriesText Entry xs w ∧ block level o c entries = o :: w ++ [c] := by
  by_cases hne : entries = []
  · rw [hne] at h ⊢
    cases h
    exact .inl ⟨rfl, rfl⟩
  · exact .inr ⟨_, entriesText_intercalate h hne (spaces_newLine _) (spaces_newLine _),
      block_of_ne_nil hne⟩

mutual

/-- The layout of a document is a text of it, by the way documents are put together. -/
theorem textOf_layout (level : Nat) :
    ∀ {document : Json}, document.Fits → TextOf document (layout level document)
  | string s, _ => .string (stringText_stringText s)
  | number _, h => .number (numberText_toString h)
  | array items, h => by
      have hentries := textOf_layoutItems (level + 1) h
      rw [layout]
      rcases block_cases hentries level '[' ']' with ⟨hnil, hblock⟩ | ⟨w, hw, hblock⟩
      · rw [hblock, hnil]
        exact .emptyArray spaces_nil
      · rw [hblock]
        exact .array hw
  | object fields, h => by
      have hentries := fieldText_layoutFields (level + 1) h
      rw [layout]
      rcases block_cases hentries level '\x7b' '\x7d' with ⟨hnil, hblock⟩ | ⟨w, hw, hblock⟩
      · rw [hblock, hnil]
        exact .emptyObject spaces_nil
      · rw [hblock]
        exact .object hw

/-- Each item of an array has a layout that is a text of it. -/
theorem textOf_layoutItems (level : Nat) :
    ∀ {items : List Json}, FitsItems items → List.Forall₂ TextOf items (layoutItems level items)
  | [], _ => .nil
  | _ :: _, h => .cons (textOf_layout level h.1) (textOf_layoutItems level h.2)

/-- Each field of an object is laid out as its key, a colon, a blank and its value. -/
theorem fieldText_layoutFields (level : Nat) :
    ∀ {fields : List (String × Json)}, FitsFields fields →
      List.Forall₂ (FieldText TextOf) fields (layoutFields level fields)
  | [], _ => .nil
  | (key, _) :: _, h => by
      have hspace : Spaces [' '] := by simp [Spaces, isSpace]
      have hfield := FieldText.mk (stringText_stringText key) spaces_nil hspace
        (textOf_layout level h.1)
      rw [layoutFields]
      exact .cons (by simpa using hfield) (fieldText_layoutFields level h.2)

end

/-! ## The characters of a layout -/

/-- Printable ASCII, line feed or tab. -/
def IsClean (c : Char) : Prop := c = '\n' ∨ c = '\t' ∨ 0x20 ≤ c.toNat ∧ c.toNat < 0x7F

instance (c : Char) : Decidable (IsClean c) := inferInstanceAs (Decidable (_ ∨ _))

/-- All characters are clean. -/
def Clean (w : List Char) : Prop := ∀ c ∈ w, IsClean c

theorem clean_nil : Clean [] := fun _ h => absurd h List.not_mem_nil

theorem clean_cons {c : Char} {w : List Char} : Clean (c :: w) ↔ IsClean c ∧ Clean w :=
  List.forall_mem_cons

/-- What is put together is clean just if both parts are. -/
theorem clean_append {u w : List Char} : Clean (u ++ w) ↔ Clean u ∧ Clean w :=
  List.forall_mem_append

theorem isClean_hexDigit : ∀ n < 16, IsClean (Text.hexDigit n) := by decide

/-- Digits are clean, however many there are. -/
theorem clean_hexDigits (width n : Nat) : Clean (Text.hexDigits width n) := by
  induction width generalizing n with
  | zero => exact clean_nil
  | succ width ih =>
      refine clean_append.2 ⟨ih _, clean_cons.2 ⟨?_, clean_nil⟩⟩
      exact isClean_hexDigit _ (Nat.mod_lt _ (by decide))

theorem clean_unitEscape (n : Nat) : Clean (unitEscape n) :=
  clean_cons.2 ⟨by decide, clean_cons.2 ⟨by decide, clean_hexDigits 4 n⟩⟩

/-- A character that is not clean itself is escaped. -/
theorem clean_escape (c : Char) : Clean (escape c) := by
  have hletter {e : Char} (he : IsClean e) : Clean ['\\', e] :=
    clean_cons.2 ⟨by decide, clean_cons.2 ⟨he, clean_nil⟩⟩
  rw [escape]
  split
  · next hc => rcases hc with rfl | rfl <;> exact hletter (by decide)
  iterate 5
    split
    · exact hletter (by decide)
  split
  · next hc => exact clean_cons.2 ⟨.inr (.inr hc), clean_nil⟩
  · rw [codeEscape]
    split
    · exact clean_unitEscape _
    · exact clean_append.2 ⟨clean_unitEscape _, clean_unitEscape _⟩

/-- A string is clean with its quotes, whatever it says. -/
theorem clean_stringText (s : String) : Clean (stringText s) := by
  have hquote : IsClean '"' := by decide
  have hbody : Clean (s.toList.flatMap escape) := by
    intro c hc
    obtain ⟨d, -, hd⟩ := List.mem_flatMap.1 hc
    exact clean_escape d c hd
  exact clean_append.2 ⟨clean_cons.2 ⟨hquote, hbody⟩, clean_cons.2 ⟨hquote, clean_nil⟩⟩

/-- Digits are printable. -/
theorem Digits.clean {n : Nat} {w : List Char} (h : Digits n w) : Clean w := by
  intro c hc
  have hdigit := h.isDigit c hc
  rw [Char.isDigit, Bool.and_eq_true, decide_eq_true_iff, decide_eq_true_iff] at hdigit
  have hlow : '0'.toNat ≤ c.toNat := hdigit.1
  have hhigh : c.toNat ≤ '9'.toNat := hdigit.2
  exact .inr (.inr ⟨Nat.le_trans (by decide) hlow, Nat.lt_of_le_of_lt hhigh (by decide)⟩)

theorem NumberText.clean {n : Int} {w : List Char} (h : NumberText n w) : Clean w := by
  cases h with
  | unsigned h => exact h.clean
  | minus h => exact clean_cons.2 ⟨by decide, h.clean⟩

theorem clean_newLine (level : Nat) : Clean (newLine level) :=
  clean_cons.2 ⟨by decide, fun _ hc => (List.eq_of_mem_replicate hc) ▸ (by decide)⟩

/-- What is put together of clean texts is clean. -/
theorem clean_intercalate {sep : List Char} {entries : List (List Char)} (hsep : Clean sep)
    (h : ∀ w ∈ entries, Clean w) : Clean (List.intercalate sep entries) := by
  induction entries with
  | nil => exact clean_nil
  | cons w entries ih =>
      obtain ⟨hw, hentries⟩ := List.forall_mem_cons.1 h
      cases entries with
      | nil => simpa [List.intercalate] using hw
      | cons v entries =>
          rw [List.intercalate, List.intersperse_cons_cons, List.flatten_cons, List.flatten_cons]
          exact clean_append.2 ⟨hw, clean_append.2 ⟨hsep, ih hentries⟩⟩

/-- The marks and breaks around clean entries are clean. -/
theorem clean_block {level : Nat} {o c : Char} {entries : List (List Char)} (ho : IsClean o)
    (hc : IsClean c) (h : ∀ w ∈ entries, Clean w) : Clean (block level o c entries) := by
  have hclose : Clean [c] := clean_cons.2 ⟨hc, clean_nil⟩
  by_cases hne : entries = []
  · rw [hne]
    exact clean_cons.2 ⟨ho, hclose⟩
  · have hsep : Clean (',' :: newLine (level + 1)) :=
      clean_cons.2 ⟨by decide, clean_newLine (level + 1)⟩
    have hentries := clean_intercalate hsep h
    have hbody := clean_append.2
      ⟨clean_append.2 ⟨clean_newLine (level + 1), hentries⟩, clean_newLine level⟩
    rw [block_of_ne_nil hne]
    exact clean_append.2 ⟨clean_cons.2 ⟨ho, hbody⟩, hclose⟩

mutual

/-- Whatever a document holds, its layout is clean. -/
theorem clean_layout (level : Nat) :
    ∀ {document : Json}, document.Fits → Clean (layout level document)
  | string s, _ => clean_stringText s
  | number _, h => (numberText_toString h).clean
  | array _, h => clean_block (by decide) (by decide) (clean_layoutItems (level + 1) h)
  | object _, h => clean_block (by decide) (by decide) (clean_layoutFields (level + 1) h)

theorem clean_layoutItems (level : Nat) :
    ∀ {items : List Json}, FitsItems items → ∀ w ∈ layoutItems level items, Clean w
  | [], _ => fun _ h => absurd h List.not_mem_nil
  | _ :: _, h => List.forall_mem_cons.2 ⟨clean_layout level h.1, clean_layoutItems level h.2⟩

/-- A field is laid out with a mark and a blank behind its key, which are clean. -/
theorem clean_layoutFields (level : Nat) :
    ∀ {fields : List (String × Json)}, FitsFields fields → ∀ w ∈ layoutFields level fields, Clean w
  | [], _ => fun _ h => absurd h List.not_mem_nil
  | (key, _) :: _, h => by
      have hvalue := clean_layout level h.1
      have hcolon : Clean (':' :: ' ' :: _) :=
        clean_cons.2 ⟨by decide, clean_cons.2 ⟨by decide, hvalue⟩⟩
      have hfield := clean_append.2 ⟨clean_stringText key, hcolon⟩
      exact List.forall_mem_cons.2 ⟨hfield, clean_layoutFields level h.2⟩

end

end TableDdl.Export.Json
