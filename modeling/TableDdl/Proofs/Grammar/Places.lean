import TableDdl.Proofs.Grammar.Takes

/-!
# The places that a grammar reports

A grammar reports the place behind a match, or the place of a mismatch.  Either is reached by taking
text from where the grammar began (`Grammar.took_of_run`, `Grammar.took_of_mismatch`), so it lies in
the same text, at or behind the beginning, and within the text unless the beginning lies beyond it.

Most grammars report a mismatch where they began, whichever part failed, so that what is tried
instead goes on from there.  Whether a grammar does so can be read off its outermost part
(`Grammar.isAnchored`): only a bare pair reports how far it came, and what changes or tests a value
passes on the report of its part.
-/

namespace TableDdl

variable {α β : Type}

/-! ## Where an outcome is a mismatch -/

namespace Outcome

variable {x : Outcome α} {place : Cursor}

/-- A sequence mismatches in its first part or, behind a match of that, in its second. -/
theorem bind_eq_mismatch_iff {k : Cursor → α → Outcome β} :
    x.bind k = .mismatch place ↔
      x = .mismatch place ∨ ∃ mid a, x = .matched mid a ∧ k mid a = .mismatch place := by
  cases x <;> simp [Outcome.bind]

/-- A second try mismatches just if both tries do. -/
theorem recover_eq_mismatch_iff {other : Cursor → Outcome α} :
    x.recover other = .mismatch place ↔
      ∃ first, x = .mismatch first ∧ other first = .mismatch place := by
  cases x <;> simp [Outcome.recover]

theorem ofOption_eq_mismatch_iff {start next : Cursor} {found : Option α} :
    ofOption start next found = .mismatch place ↔ place = start ∧ found = none := by
  cases found <;> simp [ofOption, eq_comm]

end Outcome

/-- Only a missing digit is a mismatch, and it is reported where the digit is missing. -/
theorem runNumber_eq_mismatch {c place : Cursor} (h : runNumber c = .mismatch place) :
    place = c := by
  simp only [runNumber] at h
  split at h
  · exact (Outcome.mismatch.inj h).symm
  · split at h <;> simp at h

/-- A repetition matches, if only nothing. -/
theorem repeatRun_ne_mismatch {run : Cursor → Outcome α} (fuel : Nat) (c place : Cursor) :
    repeatRun run fuel c ≠ .mismatch place := by
  induction fuel generalizing c with
  | zero => simp [repeatRun]
  | succ fuel ih =>
      rw [repeatRun]
      split
      · next next a _ =>
        split
        · simp
        · exact fun h => ih next (Outcome.map_eq_mismatch_iff.1 h)
      · simp
      · simp

/-! ## Bounds -/

/-- What is reached by taking text lies in the same text, at or behind the place it is reached from,
and not beyond the end, unless that place is. -/
theorem Cursor.Took.bounds {c next : Cursor} {w : List Char} (h : c.Took next w) :
    next.text = c.text ∧ c.pos ≤ next.pos ∧ next.pos ≤ max c.pos c.text.length := by
  have htaken : w.length ≤ c.text.length - c.pos := by
    rw [← c.length_rest, h.length_rest]
    exact Nat.le_add_right _ _
  obtain ⟨-, rfl⟩ := h
  refine ⟨rfl, Nat.le_add_right _ _, ?_⟩
  rw [pos_advance]
  omega

namespace Grammar

/-- Every mismatch is reported where the grammar began. -/
def isAnchored : {α : Type} → Grammar α → Bool
  | _, map _ g => g.isAnchored
  | _, refine _ g => g.isAnchored
  | _, pair _ _ => false
  | _, _ => true

/-- At the start nothing has been taken, whatever is asked of what has been taken. -/
theorem exists_took_of_eq {p : Prop} {c place : Cursor} (h : place = c) :
    ∃ w, c.Took place w ∧ (p → w = []) :=
  ⟨[], h ▸ c.took_nil, fun _ => rfl⟩

/-- A mismatch is reported at a place that is reached by taking text, and an anchored grammar has
taken none. -/
theorem took_of_mismatch {g : Grammar α} {c place : Cursor} (h : g.run c = .mismatch place) :
    ∃ w, c.Took place w ∧ (g.isAnchored = true → w = []) := by
  induction g generalizing c place with
  | pure value => simp at h
  | fail => exact exists_took_of_eq (Outcome.mismatch.inj h).symm
  | ahead p =>
      rw [run] at h
      split at h
      · simp at h
      · exact exists_took_of_eq (Outcome.mismatch.inj h).symm
  | span p => simp [run] at h
  | literal s =>
      rw [run] at h
      split at h
      · simp at h
      · exact exists_took_of_eq (Outcome.mismatch.inj h).symm
  | caseless s => exact exists_took_of_eq (Outcome.ofOption_eq_mismatch_iff.1 h).1
  | number => exact exists_took_of_eq (runNumber_eq_mismatch h)
  | quoted =>
      rw [run] at h
      split at h
      · simp at h
      · exact exists_took_of_eq (Outcome.mismatch.inj h).symm
  | map f g ih => exact ih (Outcome.map_eq_mismatch_iff.1 h)
  | refine f g ih =>
      rcases Outcome.bind_eq_mismatch_iff.1 h with h | ⟨_, _, -, h⟩
      · exact ih h
      · exact exists_took_of_eq (Outcome.ofOption_eq_mismatch_iff.1 h).1
  | pair g k ihg ihk =>
      -- A pair is not anchored, so only the text between has to be found.
      suffices hw : ∃ w, c.Took place w from hw.imp fun w hw => ⟨hw, by simp [isAnchored]⟩
      rcases Outcome.bind_eq_mismatch_iff.1 h with h | ⟨mid, _, hm, h⟩
      · obtain ⟨w, hw, -⟩ := ihg h
        exact ⟨w, hw⟩
      · obtain ⟨u, hu⟩ := took_of_run hm
        obtain ⟨v, hv, -⟩ := ihk (Outcome.map_eq_mismatch_iff.1 h)
        exact ⟨u ++ v, hu.trans hv⟩
  | attempt g ih =>
      obtain ⟨_, -, h⟩ := Outcome.recover_eq_mismatch_iff.1 h
      exact exists_took_of_eq (Outcome.mismatch.inj h).symm
  | orElse g k ihg ihk =>
      obtain ⟨_, -, h⟩ := Outcome.recover_eq_mismatch_iff.1 h
      obtain ⟨_, -, h⟩ := Outcome.recover_eq_mismatch_iff.1 h
      exact exists_took_of_eq (Outcome.mismatch.inj h).symm
  | many g ih => exact absurd h (repeatRun_ne_mismatch _ c place)

/-- An anchored grammar reports a mismatch where it began. -/
theorem eq_of_isAnchored {g : Grammar α} (hg : g.isAnchored = true) {c place : Cursor}
    (h : g.run c = .mismatch place) : place = c := by
  obtain ⟨w, ⟨-, hplace⟩, hnil⟩ := took_of_mismatch h
  rw [hplace, hnil hg, List.length_nil, Cursor.advance_zero]

end Grammar

end TableDdl
