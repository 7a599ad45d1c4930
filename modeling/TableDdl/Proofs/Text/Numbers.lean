import TableDdl.Proofs.Text.Lines

/-!
# Numbers in texts

An integer is written in decimal digits, behind a hyphen if it is negative
(`toList_toString_ofNat`, `toList_toString_negSucc`).  So no two are written alike (`toString_inj`).
-/

namespace TableDdl.Text

theorem toList_toString_nat (n : Nat) : (toString n).toList = Nat.toDigits 10 n := by
  rw [Nat.toString_eq_ofList_toDigits, String.toList_ofList]

theorem toList_toString_ofNat (n : Nat) : (toString (Int.ofNat n)).toList = Nat.toDigits 10 n :=
  toList_toString_nat n

/-- A negative integer has a hyphen in front of its digits. -/
theorem toList_toString_negSucc (n : Nat) :
    (toString (Int.negSucc n)).toList = '-' :: Nat.toDigits 10 (n + 1) := by
  rw [← toList_toString_nat]
  exact String.toList_append

/-- Numbers are written in base ten, so each character of one is a decimal digit. -/
theorem isDigit_of_mem_toDigits {n : Nat} : ∀ c ∈ Nat.toDigits 10 n, c.isDigit = true :=
  fun _ hc => Nat.isDigit_of_mem_toDigits (by decide) (by decide) hc

/-- The digits of a number are read back as the number. -/
theorem toDigits_inj {m n : Nat} (h : Nat.toDigits 10 m = Nat.toDigits 10 n) : m = n := by
  rw [← Nat.ofDigitChars_ten_toDigits (n := m), h, Nat.ofDigitChars_ten_toDigits]

theorem toDigits_ne_hyphen_cons (n : Nat) (rest : List Char) :
    Nat.toDigits 10 n ≠ '-' :: rest := by
  intro h
  have hdigit : ('-').isDigit = true := isDigit_of_mem_toDigits (n := n) '-' (by simp [h])
  exact absurd hdigit (by decide)

/-- A hyphen is no digit, so an integer is known by its digits and its sign. -/
theorem toString_inj {m n : Int} (h : toString m = toString n) : m = n := by
  rw [← String.toList_inj] at h
  cases m with
  | ofNat m =>
      rw [toList_toString_ofNat] at h
      cases n with
      | ofNat n =>
          rw [toList_toString_ofNat] at h
          rw [toDigits_inj h]
      | negSucc n =>
          rw [toList_toString_negSucc] at h
          exact absurd h (toDigits_ne_hyphen_cons m _)
  | negSucc m =>
      rw [toList_toString_negSucc] at h
      cases n with
      | ofNat n =>
          rw [toList_toString_ofNat] at h
          exact absurd h.symm (toDigits_ne_hyphen_cons n _)
      | negSucc n =>
          rw [toList_toString_negSucc] at h
          rw [Nat.succ.inj (toDigits_inj (List.cons.inj h).2)]

/-- Zero has a digit too. -/
theorem toList_toString_ne_nil (n : Int) : (toString n).toList ≠ [] := by
  cases n with
  | ofNat n =>
      rw [toList_toString_ofNat]
      exact Nat.toDigits_ne_nil
  | negSucc n =>
      rw [toList_toString_negSucc]
      exact List.cons_ne_nil _ _

/-- A number is made of digits and perhaps a hyphen. -/
theorem isDigit_or_eq_of_mem_toString {n : Int} :
    ∀ c ∈ (toString n).toList, c.isDigit = true ∨ c = '-' := by
  intro c hc
  cases n with
  | ofNat n =>
      rw [toList_toString_ofNat] at hc
      exact .inl (isDigit_of_mem_toDigits c hc)
  | negSucc n =>
      rw [toList_toString_negSucc] at hc
      rcases List.mem_cons.1 hc with rfl | hc
      · exact .inr rfl
      · exact .inl (isDigit_of_mem_toDigits c hc)

/-! ## Lines -/

/-- No digit breaks a line. -/
theorem unbroken_toDigits (n : Nat) : Unbroken (Nat.toDigits 10 n) :=
  unbroken_of_isWord fun c hc => isWord_of_isDigit (isDigit_of_mem_toDigits c hc)

theorem unbroken_toString_nat (n : Nat) : Unbroken (toString n).toList := by
  rw [toList_toString_nat]
  exact unbroken_toDigits n

/-- A number stands in one line. -/
theorem unbroken_toString (n : Int) : Unbroken (toString n).toList := by
  cases n with
  | ofNat n => exact unbroken_toString_nat n
  | negSucc n =>
      rw [toList_toString_negSucc]
      exact unbroken_cons.2 ⟨by decide, unbroken_toDigits (n + 1)⟩

end TableDdl.Text
