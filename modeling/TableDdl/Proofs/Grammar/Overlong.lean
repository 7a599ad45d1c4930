import TableDdl.Proofs.Grammar.Takes

/-!
# Integers that are too long

A grammar reads every text from every place, or stops at an integer of more digits than can be read.
It stops so only where these digits stand in the text at or behind the place it began at, and it
counts them up to the end of their row (`Grammar.overlong_of_run`).  So a text without such a row
(`Text.Overlong`) is matched or not matched by every grammar, from every place.
-/

namespace TableDdl

namespace Text

/-- The number of digits in a row from a place of the text on. -/
def digitsAt (text : List Char) (place : Nat) : Nat :=
  ((text.drop place).takeWhile isDigit).length

/-- More digits than an integer may have stand in the text in a row. -/
def Overlong (text : List Char) : Prop :=
  ∃ digits, digits <:+: text ∧ (∀ c ∈ digits, isDigit c = true) ∧ maxDigits < digits.length

/-- A text around an overlong one is overlong. -/
theorem Overlong.mono {u v : List Char} (h : Overlong u) (huv : u <:+: v) : Overlong v := by
  obtain ⟨digits, hin, hdigits, hlen⟩ := h
  exact ⟨digits, hin.trans huv, hdigits, hlen⟩

/-- A text that is not longer than an integer may be has no row of digits that is. -/
theorem not_overlong_of_length_le {text : List Char} (h : text.length ≤ maxDigits) :
    ¬Overlong text := by
  rintro ⟨digits, hin, -, hlen⟩
  have := hin.length_le
  omega

theorem overlong_of_digitsAt {text : List Char} {place : Nat}
    (h : maxDigits < digitsAt text place) : Overlong text := by
  refine ⟨(text.drop place).takeWhile isDigit, ?_, fun c hc => List.mem_takeWhile_imp hc, h⟩
  exact (List.takeWhile_prefix isDigit).isInfix.trans (List.drop_suffix place text).isInfix

end Text

open Text

/-! ## Where an outcome is overlong -/

namespace Outcome

variable {α β : Type} {x : Outcome α} {n : Nat}

theorem map_eq_overlong_iff {f : α → β} : x.map f = .overlong n ↔ x = .overlong n := by
  cases x <;> simp [Outcome.map]

/-- An overlong integer stops a sequence in its first part or in its second. -/
theorem bind_eq_overlong {k : Cursor → α → Outcome β} (h : x.bind k = .overlong n) :
    x = .overlong n ∨ ∃ mid a, x = .matched mid a ∧ k mid a = .overlong n := by
  cases x with
  | matched mid a => exact .inr ⟨mid, a, rfl, h⟩
  | mismatch place => simp [Outcome.bind] at h
  | overlong digits =>
      obtain rfl := Outcome.overlong.inj h
      exact .inl rfl

theorem recover_eq_overlong {other : Cursor → Outcome α} (h : x.recover other = .overlong n) :
    x = .overlong n ∨ ∃ place, x = .mismatch place ∧ other place = .overlong n := by
  cases x with
  | matched mid a => simp [Outcome.recover] at h
  | mismatch place => exact .inr ⟨place, rfl, h⟩
  | overlong digits =>
      obtain rfl := Outcome.overlong.inj h
      exact .inl rfl

theorem ofOption_ne_overlong {c next : Cursor} {found : Option α} :
    ofOption c next found ≠ .overlong n := by
  cases found <;> simp [ofOption]

end Outcome

/-- More digits than an integer may have stand in a row at or behind the cursor, `n` of them up to
the end of the row. -/
def Cursor.HasOverlong (c : Cursor) (n : Nat) : Prop :=
  ∃ place, c.pos ≤ place ∧ n = digitsAt c.text place ∧ maxDigits < n

/-- What stands at or behind a cursor stands at or behind each cursor before it. -/
theorem Cursor.HasOverlong.of_took {c next : Cursor} {w : List Char} {n : Nat}
    (h : next.HasOverlong n) (hw : c.Took next w) : c.HasOverlong n := by
  obtain ⟨-, rfl⟩ := hw
  obtain ⟨place, hplace, hn, hlen⟩ := h
  rw [Cursor.pos_advance] at hplace
  exact ⟨place, by omega, hn, hlen⟩

/-- An integer that is refused stands right where it is refused. -/
theorem hasOverlong_of_runNumber {c : Cursor} {n : Nat} (h : runNumber c = .overlong n) :
    c.HasOverlong n := by
  rw [runNumber] at h
  split at h
  · simp at h
  · split at h
    · next hlen =>
      obtain rfl := Outcome.overlong.inj h
      exact ⟨c.pos, Nat.le_refl _, by rw [digitsAt, ← c.rest_eq], hlen⟩
    · simp at h

namespace Grammar

variable {α : Type}

/-- A repetition is overlong only where one of its rounds is. -/
theorem overlong_of_repeatRun {run : Cursor → Outcome α} {n : Nat}
    (hrun : ∀ c, run c = .overlong n → c.HasOverlong n)
    (htook : ∀ c next a, run c = .matched next a → ∃ w, c.Took next w) (fuel : Nat) {c : Cursor}
    (h : repeatRun run fuel c = .overlong n) : c.HasOverlong n := by
  induction fuel generalizing c with
  | zero => simp [repeatRun] at h
  | succ fuel ih =>
      rw [repeatRun] at h
      split at h
      · next next a hm =>
        split at h
        · simp at h
        · obtain ⟨w, hw⟩ := htook c next a hm
          exact (ih (Outcome.map_eq_overlong_iff.1 h)).of_took hw
      · simp at h
      · next digits hd =>
        obtain rfl := Outcome.overlong.inj h
        exact hrun c hd

/-- **Overlong integers**: where a grammar stops at an integer that is too long, its digits stand at
or behind the place it began at, and their number is counted to the end of the row. -/
theorem overlong_of_run {g : Grammar α} {c : Cursor} {n : Nat} (h : g.run c = .overlong n) :
    c.HasOverlong n := by
  induction g generalizing c with
  | pure value => simp at h
  | fail => simp at h
  | ahead p =>
      rw [run] at h
      split at h <;> simp at h
  | span p => simp [run] at h
  | literal s =>
      rw [run] at h
      split at h <;> simp at h
  | caseless s => exact absurd h Outcome.ofOption_ne_overlong
  | number => exact hasOverlong_of_runNumber h
  | quoted =>
      rw [run] at h
      split at h <;> simp at h
  | map f g ih => exact ih (Outcome.map_eq_overlong_iff.1 h)
  | refine f g ih =>
      rcases Outcome.bind_eq_overlong h with h | ⟨_, _, -, h⟩
      · exact ih h
      · exact absurd h Outcome.ofOption_ne_overlong
  | pair g k ihg ihk =>
      rcases Outcome.bind_eq_overlong h with h | ⟨mid, a, hm, h⟩
      · exact ihg h
      · obtain ⟨w, hw⟩ := took_of_run hm
        exact (ihk (Outcome.map_eq_overlong_iff.1 h)).of_took hw
  | attempt g ih =>
      rcases Outcome.recover_eq_overlong h with h | ⟨_, -, h⟩
      · exact ih h
      · simp at h
  | orElse g k ihg ihk =>
      rcases Outcome.recover_eq_overlong h with h | ⟨_, -, h⟩
      · exact ihg h
      · rcases Outcome.recover_eq_overlong h with h | ⟨_, -, h⟩
        · exact ihk h
        · simp at h
  | many g ih =>
      exact overlong_of_repeatRun (fun _ h => ih h) (fun _ _ _ hm => took_of_run hm) _ h

/-- A text without overlong integers is matched, or it is not. -/
theorem run_of_not_overlong (g : Grammar α) {c : Cursor} (hc : ¬Overlong c.text) :
    (∃ next a, g.run c = .matched next a) ∨ ∃ place, g.run c = .mismatch place := by
  cases h : g.run c with
  | matched next a => exact .inl ⟨next, a, rfl⟩
  | mismatch place => exact .inr ⟨place, rfl⟩
  | overlong n =>
      obtain ⟨place, -, rfl, hlen⟩ := overlong_of_run h
      exact absurd (overlong_of_digitsAt hlen) hc

end Grammar

end TableDdl
