import Mathlib.Algebra.Group.Nat.Defs
import TableDdl.Proofs.Text.Lines
import TableDdl.Text.Display

/-!
# Displayed text

A displayed text is one line and can be read back.

* A character that is shown as itself breaks no line (`not_isLineBreak_of_isPrintable`), and an
  escape is written in letters, digits and the mark in front of them.  So a message that shows a
  text stays one line, whatever the text (`unbroken_display`).
* The letter of an escape tells how many digits stand behind it, or else which character it stands
  for (`displayChar_cases`), and the closing quote begins no displayed character.  So a displayed
  text tells, whatever stands behind it, where it ends and which text it shows
  (`display_append_inj`).
-/

namespace TableDdl.Text

/-! ## One line -/

/-- What is printable breaks no line, in all of the character set. -/
theorem not_isLineBreak_of_isPrintable {c : Char} (hc : isPrintable c = true) :
    isLineBreak c = false := by
  by_contra hbreak
  rw [Bool.not_eq_false, isLineBreak] at hbreak
  simp only [Bool.or_eq_true, Bool.and_eq_true, decide_eq_true_eq, beq_iff_eq] at hbreak
  unfold isPrintable at hc
  split at hc
  · rw [Bool.and_eq_true, decide_eq_true_eq, decide_eq_true_eq] at hc
    omega
  · have hwide : c.toNat = 0x85 ∨ c.toNat = 0x2028 ∨ c.toNat = 0x2029 := by omega
    have hranges : ∀ n ∈ [0x85, 0x2028, 0x2029], unprintableRanges.contains n = true := by
      decide +kernel
    rw [hranges c.toNat (by simpa using hwide)] at hc
    cases hc

/-- Hexadecimal digits break no line. -/
theorem unbroken_hexDigits (width n : Nat) : Unbroken (hexDigits width n) := by
  have hdigit : ∀ k < 16, isLineBreak (hexDigit k) = false := by decide
  induction width generalizing n with
  | zero => exact unbroken_nil
  | succ width ih =>
      refine unbroken_append.2 ⟨ih _, List.forall_mem_singleton.2 ?_⟩
      exact hdigit _ (Nat.mod_lt n (by decide))

theorem not_isLineBreak_displayQuote (text : List Char) :
    isLineBreak (displayQuote text) = false := by
  unfold displayQuote
  split <;> decide

/-- Whatever a character is, it is displayed without a break. -/
theorem unbroken_displayChar {quote : Char} (hquote : isLineBreak quote = false) (c : Char) :
    Unbroken (displayChar quote c) := by
  have hescape {x : Char} {l : List Char} (hx : isLineBreak x = false) (hl : Unbroken l) :
      Unbroken ('\\' :: x :: l) := unbroken_cons.2 ⟨by decide, unbroken_cons.2 ⟨hx, hl⟩⟩
  unfold displayChar
  split
  · next h =>
    rcases h with rfl | rfl
    · exact hescape hquote unbroken_nil
    · exact hescape (by decide) unbroken_nil
  split
  · exact hescape (by decide) unbroken_nil
  split
  · exact hescape (by decide) unbroken_nil
  split
  · exact hescape (by decide) unbroken_nil
  split
  · next h => exact unbroken_cons.2 ⟨not_isLineBreak_of_isPrintable h, unbroken_nil⟩
  split
  · exact hescape (by decide) (unbroken_hexDigits 2 _)
  split
  · exact hescape (by decide) (unbroken_hexDigits 4 _)
  · exact hescape (by decide) (unbroken_hexDigits 8 _)

/-- **Display**: a text between quotes is one line. -/
theorem unbroken_display (text : List Char) : Unbroken (display text) := by
  have hquote := not_isLineBreak_displayQuote text
  rw [display]
  refine unbroken_cons.2 ⟨hquote, unbroken_append.2 ⟨fun c hc => ?_, ?_⟩⟩
  · obtain ⟨x, -, hx⟩ := List.mem_flatMap.1 hc
    exact unbroken_displayChar hquote x c hx
  · exact List.forall_mem_singleton.2 hquote

theorem unbroken_quoteStart (text : String) : Unbroken (quoteStart text).toList := by
  rw [quoteStart, String.toList_ofList]
  exact unbroken_display _

/-! ## Digits -/

theorem length_hexDigits (width n : Nat) : (hexDigits width n).length = width := by
  induction width generalizing n with
  | zero => rfl
  | succ width ih => rw [hexDigits, List.length_append, ih, List.length_singleton]

/-- Each digit stands for its own value. -/
theorem hexDigit_inj : ∀ m < 16, ∀ n < 16, hexDigit m = hexDigit n → m = n := by decide

/-- A number that fits the width is told by its digits. -/
theorem hexDigits_inj {width m n : Nat} (hm : m < 16 ^ width) (hn : n < 16 ^ width)
    (h : hexDigits width m = hexDigits width n) : m = n := by
  induction width generalizing m n with
  | zero => omega
  | succ width ih =>
      obtain ⟨hfront, hlast⟩ := List.append_inj' h rfl
      have hhigh : m / 16 = n / 16 := ih (by omega) (by omega) hfront
      have hlow : m % 16 = n % 16 :=
        hexDigit_inj _ (Nat.mod_lt m (by decide)) _ (Nat.mod_lt n (by decide))
          (List.singleton_inj.1 hlast)
      omega

/-! ## Characters -/

/-- How many digits stand behind the letter of an escape. -/
def escapeWidth : Char → Nat
  | 'x' => 2
  | 'u' => 4
  | 'U' => 8
  | _ => 0

/-- The character that an escape without digits stands for. -/
def escapeChar : Char → Char
  | 't' => '\t'
  | 'n' => '\n'
  | 'r' => '\r'
  | c => c

/-- What is displayed is put between one of two quotes. -/
theorem displayQuote_cases (text : List Char) :
    displayQuote text = '\'' ∨ displayQuote text = '"' := by
  rw [displayQuote]
  split
  · exact .inr rfl
  · exact .inl rfl

/-- A character is displayed as itself, or as an escape that it can be read back from. -/
theorem displayChar_cases {quote : Char} (hquote : quote = '\'' ∨ quote = '"') (c : Char) :
    (displayChar quote c = [c] ∧ c ≠ quote ∧ c ≠ '\\') ∨
      ∃ x, displayChar quote c = '\\' :: x :: hexDigits (escapeWidth x) c.toNat ∧
        if escapeWidth x = 0 then escapeChar x = c else c.toNat < 16 ^ escapeWidth x := by
  unfold displayChar
  split
  · next h =>
    right
    rcases h with rfl | rfl
    · rcases hquote with rfl | rfl
      · exact ⟨'\'', rfl, rfl⟩
      · exact ⟨'"', rfl, rfl⟩
    · exact ⟨'\\', rfl, rfl⟩
  next hself =>
  split
  · next h => exact .inr ⟨'t', rfl, h.symm⟩
  split
  · next h => exact .inr ⟨'n', rfl, h.symm⟩
  split
  · next h => exact .inr ⟨'r', rfl, h.symm⟩
  split
  · exact .inl ⟨rfl, not_or.1 hself⟩
  split
  · next h => exact .inr ⟨'x', rfl, h⟩
  split
  · next h => exact .inr ⟨'u', rfl, h⟩
  · have hc : c.toNat < 16 ^ 8 := by
      rcases c.valid with h | ⟨-, h⟩ <;> exact Nat.lt_trans h (by decide)
    exact .inr ⟨'U', rfl, hc⟩

/-- The display of a character tells the character and where it ends. -/
theorem displayChar_append_inj {quote : Char} (hquote : quote = '\'' ∨ quote = '"') {c d : Char}
    {u v : List Char} (h : displayChar quote c ++ u = displayChar quote d ++ v) :
    c = d ∧ u = v := by
  rcases displayChar_cases hquote c with ⟨hc, -, hcb⟩ | ⟨x, hc, hx⟩ <;>
    rcases displayChar_cases hquote d with ⟨hd, -, hdb⟩ | ⟨y, hd, hy⟩ <;> rw [hc, hd] at h
  · exact List.cons.inj h
  · exact absurd (List.cons.inj h).1 hcb
  · exact absurd (List.cons.inj h).1.symm hdb
  · obtain ⟨rfl, htail⟩ := List.cons.inj (List.cons.inj h).2
    obtain ⟨hdigits, huv⟩ := List.append_inj htail (by rw [length_hexDigits, length_hexDigits])
    refine ⟨?_, huv⟩
    split at hx
    · next hwidth =>
      rw [if_pos hwidth] at hy
      exact hx.symm.trans hy
    · next hwidth =>
      rw [if_neg hwidth] at hy
      exact Char.toNat_inj.1 (hexDigits_inj hx hy hdigits)

/-- The closing quote begins no displayed character. -/
theorem displayChar_append_ne {quote : Char} (hquote : quote = '\'' ∨ quote = '"') (c : Char)
    (u v : List Char) : displayChar quote c ++ u ≠ quote :: v := by
  intro h
  rcases displayChar_cases hquote c with ⟨hc, hne, -⟩ | ⟨x, hc, -⟩ <;> rw [hc] at h
  · exact hne (List.cons.inj h).1
  · have hslash : '\\' = quote := (List.cons.inj h).1
    rcases hquote with rfl | rfl <;> exact absurd hslash (by decide)

/-! ## Texts -/

/-- Displayed characters tell the content and, by the quote behind them, where it ends. -/
theorem flatMap_displayChar_append_inj {quote : Char} (hquote : quote = '\'' ∨ quote = '"')
    {s t u v : List Char} (h : s.flatMap (displayChar quote) ++ quote :: u =
      t.flatMap (displayChar quote) ++ quote :: v) : s = t ∧ u = v := by
  induction s generalizing t with
  | nil =>
      cases t with
      | nil => exact ⟨rfl, (List.cons.inj h).2⟩
      | cons d t =>
          rw [List.flatMap_cons, List.append_assoc] at h
          exact absurd h.symm (displayChar_append_ne hquote d _ _)
  | cons c s ih =>
      rw [List.flatMap_cons, List.append_assoc] at h
      cases t with
      | nil => exact absurd h (displayChar_append_ne hquote c _ _)
      | cons d t =>
          rw [List.flatMap_cons, List.append_assoc] at h
          obtain ⟨rfl, hrest⟩ := displayChar_append_inj hquote h
          obtain ⟨rfl, huv⟩ := ih hrest
          exact ⟨rfl, huv⟩

/-- **Display**: a displayed text tells where it ends and which text it shows. -/
theorem display_append_inj {s t u v : List Char} (h : display s ++ u = display t ++ v) :
    s = t ∧ u = v := by
  simp only [display, List.cons_append, List.append_assoc, List.cons.injEq] at h
  obtain ⟨hquote, htail⟩ := h
  rw [← hquote] at htail
  exact flatMap_displayChar_append_inj (displayQuote_cases s) htail

end TableDdl.Text
