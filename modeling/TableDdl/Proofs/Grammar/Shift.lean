import TableDdl.Proofs.Grammar.Takes

/-!
# What stands in front of a cursor

A grammar sees the text from its cursor on, and nothing of what stands in front of it.  So putting
a text in front moves every place that it reports by the length of that text, and changes nothing
else (`Grammar.run_append`).

A grammar looks at its cursor in three ways: at what is left, at whether the text goes on with
certain characters, and, in a repetition, at whether the position has changed.  None of them sees
the text in front, and moving on commutes with putting it there.
-/

namespace TableDdl

variable {α β : Type} {u : List Char}

/-- The cursor after `u` has been put in front of its text. -/
def Cursor.behind (u : List Char) (c : Cursor) : Cursor :=
  .atPosition (u ++ c.text) (u.length + c.pos)

/-- The outcome after `u` has been put in front of the text: every place that it reports is
`u.length` characters further on. -/
def Outcome.behind (u : List Char) : Outcome α → Outcome α
  | matched next value => matched (next.behind u) value
  | mismatch place => mismatch (place.behind u)
  | overlong digits => overlong digits

/-! ## Looking at a cursor and moving it -/

namespace Cursor

variable (u) (c : Cursor)

@[simp]
theorem pos_behind : (c.behind u).pos = u.length + c.pos := rfl

@[simp]
theorem text_behind : (c.behind u).text = u ++ c.text := rfl

/-- A text in front does not change what is left to read. -/
@[simp]
theorem rest_behind : (c.behind u).rest = c.rest := by
  change (u ++ c.text).drop (u.length + c.pos) = c.rest
  rw [c.rest_eq, List.drop_append, List.drop_of_length_le (Nat.le_add_right _ _), List.nil_append,
    Nat.add_sub_cancel_left]

@[simp]
theorem advance_behind (n : Nat) : (c.behind u).advance n = (c.advance n).behind u :=
  eq_of_text_of_pos rfl (Nat.add_assoc ..)

/-- A literal is looked for in what is left, which the text in front does not change. -/
@[simp]
theorem startsWith_behind (s : List Char) : (c.behind u).startsWith s = c.startsWith s := by
  have hwithin : (c.behind u).isWithin = c.isWithin := by
    rw [isWithin, isWithin, pos_behind, text_behind, List.length_append]
    exact decide_eq_decide.2 (by omega)
  rw [startsWith, startsWith, rest_behind, hwithin]

end Cursor

/-! ## Going on from an outcome -/

namespace Outcome

variable (x : Outcome α)

theorem map_behind (f : α → β) : (x.behind u).map f = (x.map f).behind u := by
  cases x <;> rfl

/-- A run that goes on at a place moves with the place. -/
theorem bind_behind {k l : Cursor → α → Outcome β}
    (hk : ∀ next value, k (next.behind u) value = (l next value).behind u) :
    (x.behind u).bind k = (x.bind l).behind u := by
  cases x with
  | matched next value => exact hk next value
  | mismatch place => rfl
  | overlong digits => rfl

/-- A run that goes on after a mismatch moves with its place. -/
theorem recover_behind {k l : Cursor → Outcome α}
    (hk : ∀ place, k (place.behind u) = (l place).behind u) :
    (x.behind u).recover k = (x.recover l).behind u := by
  cases x with
  | matched next value => rfl
  | mismatch place => exact hk place
  | overlong digits => rfl

/-- Whether a test is passed does not depend on the place. -/
theorem ofOption_behind (start next : Cursor) (found : Option α) :
    ofOption (start.behind u) (next.behind u) found = (ofOption start next found).behind u := by
  cases found <;> rfl

end Outcome

/-! ## Reading -/

/-- A repetition sees no more than its rounds and whether they move on. -/
theorem repeatRun_behind {run : Cursor → Outcome α}
    (hrun : ∀ c, run (c.behind u) = (run c).behind u) (fuel : Nat) (c : Cursor) :
    repeatRun run fuel (c.behind u) = (repeatRun run fuel c).behind u := by
  induction fuel generalizing c with
  | zero => rfl
  | succ fuel ih =>
      rw [repeatRun, repeatRun, hrun]
      cases run c with
      | matched next value =>
          simp only [Outcome.behind, Cursor.pos_behind, Nat.add_left_cancel_iff]
          split
          · rfl
          · rw [ih, Outcome.map_behind]
            rfl
      | mismatch place => rfl
      | overlong digits => rfl

/-- The digits are counted from where the integer begins. -/
theorem runNumber_behind (c : Cursor) : runNumber (c.behind u) = (runNumber c).behind u := by
  simp only [runNumber, Cursor.rest_behind]
  split
  · rfl
  · split
    · rfl
    · rw [Cursor.advance_behind]
      rfl

namespace Grammar

/-- A grammar reads the same from a cursor with `u` in front of its text, wherever the cursor stands
in its text or beyond the end. -/
theorem run_behind (g : Grammar α) (u : List Char) (c : Cursor) :
    g.run (c.behind u) = (g.run c).behind u := by
  induction g generalizing c with
  | pure value => rfl
  | fail => rfl
  | ahead p =>
      rw [run, run, Cursor.rest_behind]
      split <;> rfl
  | span p =>
      rw [run, run, Cursor.rest_behind, Cursor.advance_behind]
      rfl
  | literal s =>
      rw [run, run, Cursor.startsWith_behind, Cursor.advance_behind]
      split <;> rfl
  | caseless s =>
      rw [run, run, Cursor.rest_behind, Cursor.advance_behind]
      exact Outcome.ofOption_behind c _ _
  | number => exact runNumber_behind c
  | quoted =>
      rw [run, run, Cursor.rest_behind]
      split
      · rw [Cursor.advance_behind]
        rfl
      · rfl
  | map f g ih => rw [run_map, run_map, ih, Outcome.map_behind]
  | refine f g ih =>
      rw [run_refine, run_refine, ih]
      exact Outcome.bind_behind _ fun next value => Outcome.ofOption_behind c next (f value)
  | pair g h ihg ihh =>
      rw [run_pair, run_pair, ihg]
      exact Outcome.bind_behind _ fun next value => by rw [ihh, Outcome.map_behind]
  | attempt g ih =>
      rw [run_attempt, run_attempt, ih]
      exact Outcome.recover_behind _ fun _ => rfl
  | orElse g h ihg ihh =>
      rw [run_orElse, run_orElse, ihg]
      refine Outcome.recover_behind _ fun _ => ?_
      rw [ihh]
      exact Outcome.recover_behind _ fun _ => rfl
  | many g ih =>
      rw [run_many, run_many, Cursor.rest_behind]
      exact repeatRun_behind ih _ c

/-- **What stands in front**: behind `u`, every grammar reads `v` as it reads `v` alone.  It matches
with the same value, does not match, or stops at an integer of the same number of digits, and each
place that it reports is moved by exactly the length of `u`. -/
theorem run_append (g : Grammar α) (u v : List Char) :
    g.run (.atPosition (u ++ v) u.length) = (g.run (.start v)).behind u :=
  run_behind g u (.start v)

end Grammar

end TableDdl
