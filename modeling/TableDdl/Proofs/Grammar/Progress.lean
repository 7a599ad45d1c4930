import TableDdl.Proofs.Grammar.Places
import TableDdl.Proofs.Grammar.Rounds

/-!
# Progress

A repetition ends where a match takes nothing.  `loopRun` is the loop behind a repetition: it knows
no bound, and it may leave out the look at whether anything was taken.  It reads at most `n` times
and is `none` if it has not ended by then.

* With the look the loop ends for every grammar, and without it for every grammar whose matches all
  take something.  It reads once more than there are characters left, at most, and comes to what the
  repetition comes to (`loopRun_eq`).
* Without the look it never ends where a match takes nothing (`loopRun_eq_none`).

A repetition has at most as many values as it takes characters (`length_le_of_run_many1`).
-/

namespace TableDdl.Grammar

variable {α : Type} {g : Grammar α} {c next : Cursor} {a : α} {as : List α}

/-- Each match of the grammar ends behind its start, and within its text. -/
def Advances (g : Grammar α) : Prop :=
  ∀ c next a, g.run c = .matched next a → c.pos < next.pos ∧ next.pos ≤ c.text.length

/-- A grammar that moves goes on by one character or more. -/
theorem Moves.advances (hg : Moves g) : Advances g := by
  intro c next a hm
  have hpos := hg c next a hm
  obtain ⟨w, hw⟩ := took_of_run hm
  obtain ⟨-, -, hbound⟩ := hw.bounds
  exact ⟨hpos, by omega⟩

/-! ## The loop -/

/-- Reads `run` again and again from `c`, until it does not match any more or, if the loop is
`guarded`, takes nothing.  A loop that has not ended after `n` readings is `none`. -/
def loopRun (guarded : Bool) (run : Cursor → Outcome α) : Nat → Cursor → Option (Outcome (List α))
  | 0, _ => none
  | n + 1, c =>
      match run c with
      | .matched next a =>
          if guarded ∧ next.pos = c.pos then some (.matched c [])
          else (loopRun guarded run n next).map (Outcome.map (a :: ·))
      | .mismatch _ => some (.matched c [])
      | .overlong digits => some (.overlong digits)

/-- **Progress**: a loop that is guarded, or whose grammar takes something with each match, ends as
the repetition does. -/
theorem loopRun_eq {guarded : Bool} (hg : guarded = true ∨ Moves g) {n : Nat}
    (hn : c.rest.length < n) : loopRun guarded g.run n c = some ((many g).run c) := by
  induction n generalizing c with
  | zero => exact absurd hn (Nat.not_lt_zero _)
  | succ n ih =>
      rw [loopRun, run_many_eq]
      cases hm : g.run c with
      | mismatch place => rfl
      | overlong digits => rfl
      | matched next a =>
          dsimp only
          by_cases hpos : next.pos = c.pos
          · have hguarded : guarded = true :=
              hg.resolve_right fun hmoves => Nat.ne_of_gt (hmoves c next a hm) hpos
            rw [if_pos ⟨hguarded, hpos⟩, if_pos hpos]
          · have hlt := length_rest_lt_of_run hm hpos
            rw [if_neg fun h => hpos h.2, if_neg hpos, ih (by omega), Option.map_some]

/-- A loop that is not guarded goes round and round where a match takes nothing. -/
theorem loopRun_eq_none (hm : g.run c = .matched c a) (n : Nat) :
    loopRun false g.run n c = none := by
  induction n with
  | zero => rfl
  | succ n ih =>
      rw [loopRun, hm]
      dsimp only
      rw [if_neg fun h => Bool.false_ne_true h.1, ih, Option.map_none]

/-! ## Values and characters -/

/-- Each round takes a character at least. -/
theorem Rounds.length_le {rounds : List (Round α)} {e : Cursor} (h : Rounds g c rounds e) :
    c.pos + rounds.length ≤ e.pos := by
  induction h with
  | stuck => exact Nat.le_refl _
  | round _ hpos _ ih =>
      rw [List.length_cons]
      omega

/-- No more values than characters that are taken. -/
theorem length_le_of_run_many1 (hm : (many1 g).run c = .matched next as) :
    c.pos + as.length ≤ next.pos := by
  obtain ⟨values, hmany, hvalues⟩ := run_refine_eq_matched_iff.1 hm
  obtain ⟨rounds, hrounds, hmap⟩ := exists_rounds hmany
  have hle := hrounds.length_le
  rw [← (nonempty?_eq_some hvalues).1, ← hmap, List.length_map]
  exact hle

end TableDdl.Grammar
