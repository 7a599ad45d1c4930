import TableDdl.Log.Basic

/-!
# Steps that leave records

How a step with records goes on: behind a result the next step is taken and its records are added
(`Logged.result_bind_of_ok`, `Logged.records_bind_of_ok`), and behind an error nothing is done
(`Logged.bind_of_error`).  Steps may be grouped in any way.
-/

namespace TableDdl.Logged

variable {α β : Type} {x : Logged α} {value : α} {e : Error}

instance : LawfulMonad Logged :=
  LawfulMonad.mk' Logged
    (fun x => by
      obtain ⟨records, result⟩ := x
      cases result <;> simp [Functor.map, Logged.bind, Logged.pure])
    (fun value k => bind_pure value k)
    (fun x k l => by
      obtain ⟨records, result⟩ := x
      cases result with
      | error e => rfl
      | ok value =>
          change Logged.bind (Logged.bind _ k) l = Logged.bind _ fun a => Logged.bind (k a) l
          cases hk : (k value).result <;> simp [Logged.bind, hk])

/-- The result is that of the second computation. -/
theorem result_bind_of_ok (hx : x.result = .ok value) (k : α → Logged β) :
    (x >>= k).result = (k value).result := by
  change (Logged.bind x k).result = _
  rw [Logged.bind, hx]

/-- The records of the first computation stand in front. -/
theorem records_bind_of_ok (hx : x.result = .ok value) (k : α → Logged β) :
    (x >>= k).records = x.records ++ (k value).records := by
  change (Logged.bind x k).records = _
  rw [Logged.bind, hx]

/-- An error keeps the records up to it, and nothing is done behind it. -/
theorem bind_of_error (hx : x.result = .error e) (k : α → Logged β) :
    x >>= k = ⟨x.records, .error e⟩ := by
  change Logged.bind x k = _
  rw [Logged.bind, hx]

/-- An error of two steps is that of the first, or that of the second behind a result. -/
theorem result_bind_eq_error {k : α → Logged β} (h : (x >>= k).result = .error e) :
    x.result = .error e ∨ ∃ value, x.result = .ok value ∧ (k value).result = .error e := by
  cases hx : x.result with
  | error e' =>
      rw [bind_of_error hx] at h
      exact .inl (congrArg _ (Except.error.inj h))
  | ok value =>
      rw [result_bind_of_ok hx] at h
      exact .inr ⟨value, rfl, h⟩

/-- The records about single statements.  The count at the end is left out. -/
def notices (x : Logged α) : List Log.Record :=
  x.records.filter fun r => r.level != .info

end TableDdl.Logged
