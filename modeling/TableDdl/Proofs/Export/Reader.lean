import TableDdl.Proofs.Export.Texts
import TableDdl.Proofs.Text.Words

/-!
# Reading JSON texts

`readText` reads a text as JSON.  It is complete: each text of a document is read as this document
(`readText_of_isText`), so no text is one of two documents.

Each reader returns what it has read and the rest of the text.  A value may go down as many levels
as the whole text has characters, which is never too few.
-/

namespace TableDdl.Export.Json

open Text

/-! ## The readers -/

/-- The text without the blanks in front. -/
def skipSpaces (text : List Char) : List Char := text.dropWhile isSpace

/-- The character whose units in hexadecimal digits are in front.  Half a pair is none. -/
def readUnits (text : List Char) : Option (Char × List Char) := do
  let unit ← unitOf (text.take 4)
  if 0xD800 ≤ unit ∧ unit < 0xDC00 then
    match text.drop 4 with
    | '\\' :: 'u' :: rest => do
        let low ← unitOf (rest.take 4)
        if 0xDC00 ≤ low ∧ low < 0xE000 then
          return (Char.ofNat (0x10000 + (unit - 0xD800) * 0x400 + (low - 0xDC00)), rest.drop 4)
        else none
    | _ => none
  else if 0xDC00 ≤ unit ∧ unit < 0xE000 then none
  else return (Char.ofNat unit, text.drop 4)

/-- One character of a string. -/
def readChar : List Char → Option (Char × List Char)
  | [] => none
  | '\\' :: 'u' :: rest => readUnits rest
  | '\\' :: e :: rest => (letters.lookup e).map fun c => (c, rest)
  | c :: rest => if c = '"' ∨ c = '\\' ∨ c.toNat < 0x20 then none else some (c, rest)

/-- The characters up to the closing quote, at most `fuel` of them with the quote. -/
def readChars : Nat → List Char → Option (List Char × List Char)
  | 0, _ => none
  | _ + 1, '"' :: rest => some ([], rest)
  | fuel + 1, text => do
      let first ← readChar text
      let more ← readChars fuel first.2
      return (first.1 :: more.1, more.2)

/-- A string. -/
def readString : List Char → Option (String × List Char)
  | '"' :: rest => (readChars rest.length rest).map fun found => (String.ofList found.1, found.2)
  | _ => none

/-- A number without a sign. -/
def readDigits (text : List Char) : Option (Nat × List Char) :=
  let digits := text.takeWhile Char.isDigit
  if digits = [] ∨ (digits.head? = some '0' ∧ digits ≠ ['0']) ∨ maxDigits < digits.length then none
  else some (Nat.ofDigitChars 10 digits 0, text.dropWhile Char.isDigit)

/-- A number. -/
def readNumber : List Char → Option (Int × List Char)
  | '-' :: rest => (readDigits rest).map fun found => (-(found.1 : Int), found.2)
  | text => (readDigits text).map fun found => ((found.1 : Int), found.2)

/-- Entries with commas between them, up to the mark `closing`; at most `fuel` of them. -/
def readEntries {α : Type} (read : List Char → Option (α × List Char)) (closing : Char) :
    Nat → List Char → Option (List α × List Char)
  | 0, _ => none
  | fuel + 1, text => do
      let first ← read (skipSpaces text)
      match skipSpaces first.2 with
      | [] => none
      | c :: rest =>
          if c = closing then return ([first.1], rest)
          else if c = ',' then do
            let more ← readEntries read closing fuel rest
            return (first.1 :: more.1, more.2)
          else none

/-- The entries between an opening mark and the mark `closing`, perhaps none. -/
def readBlock {α : Type} (read : List Char → Option (α × List Char)) (closing : Char)
    (text : List Char) : Option (List α × List Char) :=
  if (skipSpaces text).head? = some closing then some ([], (skipSpaces text).tail)
  else readEntries read closing text.length text

/-- A field, its value read by `read`. -/
def readField (read : List Char → Option (Json × List Char)) (text : List Char) :
    Option ((String × Json) × List Char) := do
  let key ← readString text
  match skipSpaces key.2 with
  | ':' :: rest => do
      let value ← read (skipSpaces rest)
      return ((key.1, value.1), value.2)
  | _ => none

/-- A document of at most `depth` levels. -/
def readValue : Nat → List Char → Option (Json × List Char)
  | 0, _ => none
  | depth + 1, text =>
      match text.head? with
      | some '"' => (readString text).map fun found => (string found.1, found.2)
      | some '[' =>
          (readBlock (readValue depth) ']' text.tail).map fun found => (array found.1, found.2)
      | some '\x7b' =>
          (readBlock (readField (readValue depth)) '\x7d' text.tail).map
            fun found => (object found.1, found.2)
      | _ => (readNumber text).map fun found => (number found.1, found.2)

/-- The document of which a text is a JSON text. -/
def readText (text : List Char) : Option Json := do
  let found ← readValue text.length (skipSpaces text)
  if skipSpaces found.2 = [] then return found.1 else none

/-! ## Strings -/

/-- A unit is written in four digits, and what follows does not count. -/
theorem unitOf_take {u : List Char} {n : Nat} (h : unitOf u = some n) (rest : List Char) :
    unitOf ((u ++ rest).take 4) = some n ∧ (u ++ rest).drop 4 = rest := by
  unfold unitOf at h
  split at h
  · exact ⟨h, rfl⟩
  · exact absurd h (by simp)

/-- No character has the code of a surrogate. -/
theorem toNat_lt_or (c : Char) : c.toNat < 0xD800 ∨ 0xE000 ≤ c.toNat := by
  rcases c.valid with h | ⟨h, -⟩
  · exact .inl h
  · exact .inr h

/-- A character of the basic plane is one unit. -/
theorem readUnits_single {c : Char} {u : List Char} (hu : unitOf u = some c.toNat)
    (rest : List Char) : readUnits (u ++ rest) = some (c, rest) := by
  obtain ⟨htake, hdrop⟩ := unitOf_take hu rest
  have hc := toNat_lt_or c
  rw [readUnits, htake, Option.bind_eq_bind, Option.bind_some, if_neg (by omega),
    if_neg (by omega), hdrop, Char.ofNat_toNat, Option.pure_def]

/-- A high and a low surrogate are one character. -/
theorem readUnits_pair {c : Char} {high low : Nat} {u w : List Char}
    (hu : unitOf u = some (0xD800 + high)) (hw : unitOf w = some (0xDC00 + low))
    (hhigh : high < 0x400) (hlow : low < 0x400) (hc : c.toNat = 0x10000 + high * 0x400 + low)
    (rest : List Char) : readUnits (u ++ '\\' :: 'u' :: w ++ rest) = some (c, rest) := by
  rw [List.append_assoc]
  obtain ⟨htake, hdrop⟩ := unitOf_take hu ('\\' :: 'u' :: w ++ rest)
  obtain ⟨htake', hdrop'⟩ := unitOf_take hw rest
  rw [readUnits, htake, Option.bind_eq_bind, Option.bind_some, if_pos (by omega), hdrop]
  simp only [List.cons_append]
  rw [htake', Option.bind_some, if_pos (by omega), hdrop', Option.pure_def,
    Nat.add_sub_cancel_left, Nat.add_sub_cancel_left, ← hc, Char.ofNat_toNat]

/-- Each spelling of a character is read as the character. -/
theorem readChar_append {c : Char} {w : List Char} (h : CharText c w) (rest : List Char) :
    readChar (w ++ rest) = some (c, rest) := by
  cases h with
  | plain hc hquote hslash => simp [readChar, hquote, hslash, hc]
  | @letter e _ he =>
      have hu : e ≠ 'u' := by
        rintro rfl
        have hnone : letters.lookup 'u' = none := rfl
        rw [hnone] at he
        simp at he
      rw [List.cons_append, List.cons_append, readChar, he, Option.map_some, List.nil_append]
      exact hu
  | unit hu => exact readUnits_single hu rest
  | pair hu hw hhigh hlow hc => exact readUnits_pair hu hw hhigh hlow hc rest

/-- No character is spelled by nothing, so reading one always goes on. -/
theorem CharText.ne_nil {c : Char} {w : List Char} (h : CharText c w) : w ≠ [] := by
  cases h <;> simp

/-- No character in a string is written as a bare quote, so the first one ends it. -/
theorem CharText.head?_ne_quote {c : Char} {w : List Char} (h : CharText c w) :
    w.head? ≠ some '"' := by
  cases h with
  | plain _ hquote _ => simpa using hquote
  | letter _ => simp
  | unit _ => simp
  | pair _ _ _ _ _ => simp

/-- More fuel than there are characters written is enough. -/
theorem readChars_append {content : List Char} {parts : List (List Char)}
    (h : List.Forall₂ CharText content parts) (rest : List Char) {fuel : Nat}
    (hfuel : parts.flatten.length < fuel) :
    readChars fuel (parts.flatten ++ '"' :: rest) = some (content, rest) := by
  induction h generalizing fuel with
  | nil =>
      obtain ⟨fuel, rfl⟩ := Nat.exists_eq_add_one.2 (Nat.zero_lt_of_lt hfuel)
      rfl
  | @cons c w content parts hc _ ih =>
      obtain ⟨fuel, rfl⟩ := Nat.exists_eq_add_one.2 (Nat.zero_lt_of_lt hfuel)
      have hpos := List.length_pos_iff.2 hc.ne_nil
      rw [List.flatten_cons, List.length_append] at hfuel
      obtain ⟨x, w, rfl⟩ := List.exists_cons_of_ne_nil hc.ne_nil
      have hx : x ≠ '"' := by simpa using hc.head?_ne_quote
      have hread := readChar_append hc (parts.flatten ++ '"' :: rest)
      rw [List.flatten_cons, List.append_assoc, List.cons_append, readChars]
      · rw [← List.cons_append, hread, Option.bind_eq_bind, Option.bind_some, ih (by omega),
          Option.bind_eq_bind, Option.bind_some, Option.pure_def]
      · simpa using hx

/-- A string is read up to its closing quote. -/
theorem readString_append {s : String} {w : List Char} (h : StringText s w) (rest : List Char) :
    readString (w ++ rest) = some (s, rest) := by
  obtain ⟨parts, hparts, rfl⟩ := h
  have hlen : parts.flatten.length < (parts.flatten ++ '"' :: rest).length := by simp
  have hread := readChars_append hparts rest hlen
  rw [List.cons_append, List.cons_append, List.append_assoc, List.singleton_append, readString,
    hread, Option.map_some, String.ofList_toList]

/-! ## Numbers -/

/-- Digits are read up to where no other digit follows. -/
theorem readDigits_append {n : Nat} {w rest : List Char} (h : Digits n w)
    (hrest : HeadNot Char.isDigit rest) : readDigits (w ++ rest) = some (n, rest) := by
  have hzero : ¬(w.head? = some '0' ∧ w ≠ ['0']) := fun hw => hw.2 (h.zero hw.1)
  have hpass : ¬(w = [] ∨ (w.head? = some '0' ∧ w ≠ ['0']) ∨ maxDigits < w.length) := by
    rintro (hw | hw | hw)
    · exact h.ne_nil hw
    · exact hzero hw
    · exact Nat.not_lt.2 h.length_le hw
  rw [readDigits, takeWhile_append_of_headNot h.isDigit hrest, if_neg hpass, h.value,
    dropWhile_append_of_headNot h.isDigit hrest]

/-- A number is read as far as there are digits. -/
theorem readNumber_append {n : Int} {w rest : List Char} (h : NumberText n w)
    (hrest : HeadNot Char.isDigit rest) : readNumber (w ++ rest) = some (n, rest) := by
  cases h with
  | @unsigned n w h =>
      have hminus : ∀ text, w ++ rest ≠ '-' :: text := by
        intro text htext
        obtain ⟨c, w, rfl⟩ := List.exists_cons_of_ne_nil h.ne_nil
        obtain rfl := (List.cons.inj htext).1
        exact absurd (h.isDigit '-' List.mem_cons_self) (by decide)
      rw [readNumber, readDigits_append h hrest, Option.map_some]
      exact hminus
  | minus h => rw [List.cons_append, readNumber, readDigits_append h hrest, Option.map_some]

/-! ## Documents -/

theorem skipSpaces_append {b w : List Char} (hb : Spaces b) (hw : HeadNot isSpace w) :
    skipSpaces (b ++ w) = w :=
  dropWhile_append_of_headNot hb hw

/-- `w` begins with a character that neither is blank nor ends anything. -/
def Begins (w : List Char) : Prop :=
  ∃ c v, w = c :: v ∧ isSpace c = false ∧ c ≠ ']' ∧ c ≠ '\x7d'

/-- A space ends a number. -/
theorem not_isDigit_of_isSpace {c : Char} (hc : isSpace c = true) : c.isDigit = false := by
  simp only [isSpace, Bool.or_eq_true, beq_iff_eq] at hc
  rcases hc with ((rfl | rfl) | rfl) | rfl <;> decide

/-- Digits begin a value. -/
theorem begins_digits {n : Nat} {w : List Char} (h : Digits n w) : Begins w := by
  obtain ⟨c, w, rfl⟩ := List.exists_cons_of_ne_nil h.ne_nil
  have hc := h.isDigit c List.mem_cons_self
  have hne {d : Char} (hd : d.isDigit = false) : c ≠ d := by
    rintro rfl
    rw [hd] at hc
    exact Bool.false_ne_true hc
  refine ⟨c, w, rfl, Bool.eq_false_iff.2 fun hspace => ?_, hne (by decide), hne (by decide)⟩
  rw [not_isDigit_of_isSpace hspace] at hc
  exact Bool.false_ne_true hc

theorem begins_stringText {s : String} {w : List Char} (h : StringText s w) : Begins w := by
  obtain ⟨parts, -, rfl⟩ := h
  exact ⟨_, _, rfl, by decide⟩

/-- A document begins with a mark or with a digit, and with no space. -/
theorem begins_textOf {document : Json} {w : List Char} (h : TextOf document w) : Begins w := by
  cases h with
  | string h => exact begins_stringText h
  | number h =>
      cases h with
      | unsigned h => exact begins_digits h
      | minus h => exact ⟨_, _, rfl, by decide⟩
  | emptyArray hb => exact ⟨_, _, rfl, by decide⟩
  | array h => exact ⟨_, _, rfl, by decide⟩
  | emptyObject hb => exact ⟨_, _, rfl, by decide⟩
  | object h => exact ⟨_, _, rfl, by decide⟩

theorem Begins.append {w : List Char} (h : Begins w) (rest : List Char) : Begins (w ++ rest) := by
  obtain ⟨c, v, rfl, hc⟩ := h
  exact ⟨c, v ++ rest, rfl, hc⟩

/-- No value begins with a space, so skipping spaces stops in front of it. -/
theorem Begins.headNot {w : List Char} (h : Begins w) : HeadNot isSpace w := by
  obtain ⟨c, v, rfl, hc, -⟩ := h
  exact headNot_cons.2 hc

theorem Begins.length_pos {w : List Char} (h : Begins w) : 0 < w.length := by
  obtain ⟨c, v, rfl, -⟩ := h
  exact Nat.succ_pos _

theorem begins_fieldText {field : String × Json} {w : List Char} (h : FieldText TextOf field w) :
    Begins w := by
  cases h with
  | mk hkey _ _ _ =>
      rw [List.append_assoc, List.append_assoc]
      exact (begins_stringText hkey).append _

theorem headNot_isDigit_of_spaces {b : List Char} (hb : Spaces b) : HeadNot Char.isDigit b :=
  fun c hc => not_isDigit_of_isSpace (hb c (List.mem_of_mem_head? hc))

/-- Neither spaces nor a mark go on with a number. -/
theorem headNot_isDigit_mark {b rest : List Char} {c : Char} (hb : Spaces b)
    (hc : c.isDigit = false) : HeadNot Char.isDigit (b ++ c :: rest) := by
  cases b with
  | nil => exact headNot_cons.2 hc
  | cons d b => exact headNot_cons.2 (not_isDigit_of_isSpace (hb d List.mem_cons_self))

section Entries

variable {α : Type} {Entry : α → List Char → Prop} {read : List Char → Option (α × List Char)}
  {n : Nat}

/-- The reader reads each text of an entry that has at most `n` characters. -/
def ReadsUpTo (Entry : α → List Char → Prop) (read : List Char → Option (α × List Char))
    (n : Nat) : Prop :=
  ∀ x w rest, Entry x w → w.length ≤ n → HeadNot Char.isDigit rest →
    read (w ++ rest) = some (x, rest)

/-- The entries of a block are read one by one, if the reader reads each of them. -/
theorem readEntries_append {closing : Char} (hclosing : closing = ']' ∨ closing = '\x7d')
    (hread : ReadsUpTo Entry read n) (hbegins : ∀ x w, Entry x w → Begins w)
    {xs : List α} {w : List Char} (h : EntriesText Entry xs w) (hlen : w.length ≤ n)
    {fuel : Nat} (hfuel : w.length < fuel) (rest : List Char) :
    readEntries read closing fuel (w ++ closing :: rest) = some (xs, rest) := by
  have hmark : isSpace closing = false ∧ closing.isDigit = false ∧ ',' ≠ closing := by
    rcases hclosing with rfl | rfl <;> decide
  obtain ⟨hspace, hdigit, hcomma⟩ := hmark
  induction h generalizing fuel with
  | @last b w b' x hb hx hb' =>
      obtain ⟨fuel, rfl⟩ := Nat.exists_eq_add_one.2 (Nat.zero_lt_of_lt hfuel)
      have hw := hbegins x w hx
      rw [List.length_append, List.length_append] at hlen
      -- Neither blanks nor a mark behind an entry make a number at its end longer.
      have hentry := hread x w (b' ++ closing :: rest) hx (by omega)
        (headNot_isDigit_mark hb' hdigit)
      rw [readEntries, List.append_assoc, List.append_assoc,
        skipSpaces_append hb (hw.append _).headNot, hentry, Option.bind_eq_bind, Option.bind_some,
        skipSpaces_append hb' (headNot_cons.2 hspace)]
      simp
  | @cons b w b' more x xs hb hx hb' h ih =>
      obtain ⟨fuel, rfl⟩ := Nat.exists_eq_add_one.2 (Nat.zero_lt_of_lt hfuel)
      have hw := hbegins x w hx
      simp only [List.length_append, List.length_cons] at hlen hfuel
      have hentry := hread x w (b' ++ ',' :: (more ++ closing :: rest)) hx (by omega)
        (headNot_isDigit_mark hb' (by decide))
      have hfuel' : more.length < fuel := by omega
      have hmore := ih (by omega) hfuel'
      rw [readEntries]
      simp only [List.append_assoc, List.cons_append]
      rw [skipSpaces_append hb (hw.append _).headNot, hentry, Option.bind_eq_bind,
        Option.bind_some, skipSpaces_append hb' (headNot_cons.2 (by decide))]
      simp [hcomma, hmore]

/-- Spaces apart, a list with entries begins with one of them. -/
theorem EntriesText.begins {xs : List α} {w : List Char} (h : EntriesText Entry xs w)
    (hbegins : ∀ x w, Entry x w → Begins w) (rest : List Char) :
    Begins (skipSpaces (w ++ rest)) := by
  cases h with
  | @last b w b' x hb hx _ =>
      have hw := (hbegins x w hx).append (b' ++ rest)
      rw [List.append_assoc, List.append_assoc, skipSpaces_append hb hw.headNot]
      exact hw
  | @cons b w b' more x xs hb hx _ _ =>
      have hw := (hbegins x w hx).append (b' ++ (',' :: more ++ rest))
      rw [List.append_assoc, List.append_assoc, List.append_assoc, skipSpaces_append hb hw.headNot]
      exact hw

/-- A block is read entry by entry up to the mark that closes it, whichever of the two that is. -/
theorem readBlock_append {closing : Char} (hclosing : closing = ']' ∨ closing = '\x7d')
    (hread : ReadsUpTo Entry read n) (hbegins : ∀ x w, Entry x w → Begins w)
    {xs : List α} {w : List Char} (h : EntriesText Entry xs w) (hlen : w.length ≤ n)
    (rest : List Char) : readBlock read closing (w ++ closing :: rest) = some (xs, rest) := by
  have hhead : (skipSpaces (w ++ closing :: rest)).head? ≠ some closing := by
    obtain ⟨c, v, hv, -, hsquare, hcurly⟩ := h.begins hbegins (closing :: rest)
    rw [hv, List.head?_cons, ne_eq, Option.some.injEq]
    rcases hclosing with rfl | rfl <;> assumption
  rw [readBlock, if_neg hhead]
  exact readEntries_append hclosing hread hbegins h hlen (by simp) rest

/-- A block of spaces has no entries. -/
theorem readBlock_spaces {closing : Char} (hclosing : isSpace closing = false) {b : List Char}
    (hb : Spaces b) (rest : List Char) :
    readBlock read closing (b ++ closing :: rest) = some ([], rest) := by
  rw [readBlock, skipSpaces_append hb (headNot_cons.2 hclosing), List.head?_cons, if_pos rfl,
    List.tail_cons]

end Entries

/-- A field is read if the values are. -/
theorem readsUpTo_field {read : List Char → Option (Json × List Char)} {n : Nat}
    (hread : ReadsUpTo TextOf read n) : ReadsUpTo (FieldText TextOf) (readField read) n := by
  rintro ⟨key, value⟩ w rest h hlen hrest
  cases h with
  | @mk _ _ k b b' w hkey hb hb' hvalue =>
      simp only [List.length_append, List.length_cons] at hlen
      have hw := begins_textOf hvalue
      simp only [List.append_assoc, List.cons_append]
      rw [readField, readString_append hkey, Option.bind_eq_bind, Option.bind_some]
      simp only []
      rw [skipSpaces_append hb (headNot_cons.2 (by decide))]
      simp only []
      rw [skipSpaces_append hb' (hw.append _).headNot, hread value w rest hvalue (by omega) hrest]
      rfl

/-- A quote says that a string follows. -/
theorem readValue_quote (depth : Nat) (text : List Char) :
    readValue (depth + 1) ('"' :: text) =
      (readString ('"' :: text)).map fun found => (string found.1, found.2) := rfl

theorem readValue_square (depth : Nat) (text : List Char) :
    readValue (depth + 1) ('[' :: text) =
      (readBlock (readValue depth) ']' text).map fun found => (array found.1, found.2) := rfl

theorem readValue_curly (depth : Nat) (text : List Char) :
    readValue (depth + 1) ('\x7b' :: text) =
      (readBlock (readField (readValue depth)) '\x7d' text).map
        fun found => (object found.1, found.2) := rfl

/-- What begins with no mark is read as a number. -/
theorem readValue_other {text : List Char} {c : Char} (hhead : text.head? = some c)
    (hquote : c ≠ '"') (hsquare : c ≠ '[') (hcurly : c ≠ '\x7b') (depth : Nat) :
    readValue (depth + 1) text =
      (readNumber text).map fun found => (number found.1, found.2) := by
  rw [readValue, hhead]
  split
  · next h => exact absurd (Option.some.inj h) hquote
  · next h => exact absurd (Option.some.inj h) hsquare
  · next h => exact absurd (Option.some.inj h) hcurly
  · rfl

/-- What begins with no mark is a number. -/
theorem readValue_number (depth : Nat) {n : Int} {w rest : List Char} (h : NumberText n w)
    (hrest : HeadNot Char.isDigit rest) :
    readValue (depth + 1) (w ++ rest) = some (number n, rest) := by
  have hread := readNumber_append h hrest
  have hhead : ∃ c, (w ++ rest).head? = some c ∧ (c.isDigit = true ∨ c = '-') := by
    cases h with
    | unsigned h =>
        obtain ⟨c, w, rfl⟩ := List.exists_cons_of_ne_nil h.ne_nil
        exact ⟨c, rfl, .inl (h.isDigit c List.mem_cons_self)⟩
    | minus h => exact ⟨'-', rfl, .inr rfl⟩
  obtain ⟨c, hhead, hc⟩ := hhead
  have hne {d : Char} (hd : d.isDigit = false ∧ d ≠ '-') : c ≠ d := by
    rintro rfl
    rcases hc with hc | hc
    · rw [hd.1] at hc
      exact Bool.false_ne_true hc
    · exact hd.2 hc
  rw [readValue_other hhead (hne (by decide)) (hne (by decide)) (hne (by decide)), hread,
    Option.map_some]

/-- A document is read from each of its texts, however the text goes on behind it.  The induction is
on the levels, since what stands between two marks is shorter than the text with the marks. -/
theorem readsUpTo_value (depth : Nat) : ReadsUpTo TextOf (readValue depth) depth := by
  induction depth with
  | zero =>
      intro document w rest h hlen
      exact absurd (begins_textOf h).length_pos (by omega)
  | succ depth ih =>
      intro document w rest h hlen hrest
      cases h with
      | string h =>
          have hread := readString_append h rest
          obtain ⟨parts, -, rfl⟩ := h
          rw [List.cons_append, List.cons_append] at hread ⊢
          rw [readValue_quote, hread, Option.map_some]
      | number h => exact readValue_number depth h hrest
      | emptyArray hb =>
          rw [List.cons_append, List.cons_append, List.append_assoc, List.singleton_append,
            readValue_square, readBlock_spaces (by decide) hb, Option.map_some]
      | array h =>
          rw [List.length_append, List.length_cons] at hlen
          rw [List.cons_append, List.cons_append, List.append_assoc, List.singleton_append,
            readValue_square, readBlock_append (.inl rfl) ih (fun _ _ => begins_textOf) h
              (by omega), Option.map_some]
      | emptyObject hb =>
          rw [List.cons_append, List.cons_append, List.append_assoc, List.singleton_append,
            readValue_curly, readBlock_spaces (by decide) hb, Option.map_some]
      | object h =>
          rw [List.length_append, List.length_cons] at hlen
          rw [List.cons_append, List.cons_append, List.append_assoc, List.singleton_append,
            readValue_curly, readBlock_append (.inr rfl) (readsUpTo_field ih)
              (fun _ _ => begins_fieldText) h (by omega), Option.map_some]

/-- **Reading**: each JSON text of a document is read as the document. -/
theorem readText_of_isText {document : Json} {text : List Char} (h : IsText document text) :
    readText text = some document := by
  obtain ⟨b, w, b', hb, hw, hb', rfl⟩ := h
  rw [readText, List.append_assoc, skipSpaces_append hb ((begins_textOf hw).append b').headNot,
    readsUpTo_value _ document w b' hw (by simp; omega)
      (headNot_isDigit_of_spaces hb'), Option.bind_eq_bind,
    Option.bind_some, if_pos]
  · rfl
  · have hskip := skipSpaces_append hb' (headNot_nil isSpace)
    rwa [List.append_nil] at hskip

/-- A text is a JSON text of one document only. -/
theorem IsText.unique {d d' : Json} {text : List Char} (h : IsText d text) (h' : IsText d' text) :
    d = d' := by
  have hread := readText_of_isText h
  rw [readText_of_isText h'] at hread
  exact (Option.some.inj hread).symm

end TableDdl.Export.Json
