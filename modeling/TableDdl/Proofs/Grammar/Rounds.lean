import TableDdl.Proofs.Grammar.Opening

/-!
# Repetitions round by round

A repetition matches in rounds: each round starts where the one before it stopped and takes
something, and behind the last one the grammar goes no further.  `Rounds g c rounds e` says that
these are the rounds of `g` from `c` to `e`, and a repetition matches just along its rounds
(`run_many_eq_matched_iff`).
-/

namespace TableDdl.Grammar

variable {α : Type} {g : Grammar α} {c e next : Cursor} {as : List α}

/-- One round of a repetition: where it starts and stops, and its value. -/
structure Round (α : Type) where
  start : Cursor
  stop : Cursor
  value : α

/-- A repetition of the grammar ends here: it does not match, or takes nothing. -/
def Stuck (g : Grammar α) (c : Cursor) : Prop :=
  (∃ place, g.run c = .mismatch place) ∨ ∃ next a, g.run c = .matched next a ∧ next.pos = c.pos

/-- The rounds of a repetition from `c` to `e`. -/
inductive Rounds (g : Grammar α) : Cursor → List (Round α) → Cursor → Prop where
  | stuck {c : Cursor} (h : Stuck g c) : Rounds g c [] c
  | round {c mid e : Cursor} {a : α} {rounds : List (Round α)} (hm : g.run c = .matched mid a)
      (hpos : c.pos < mid.pos) (h : Rounds g mid rounds e) : Rounds g c (⟨c, mid, a⟩ :: rounds) e

/-- A repetition that is stuck from the beginning takes nothing. -/
theorem Stuck.run_many (h : Stuck g c) : (many g).run c = .matched c [] := by
  rw [run_many_eq]
  rcases h with ⟨place, hp⟩ | ⟨next, a, hm, hpos⟩
  · rw [hp]
  · rw [hm]
    dsimp only
    rw [if_pos hpos]

/-- The rounds of a repetition determine what it returns and where it ends. -/
theorem Rounds.run_many {rounds : List (Round α)} (h : Rounds g c rounds e) :
    (many g).run c = .matched e (rounds.map Round.value) := by
  induction h with
  | stuck h => exact h.run_many
  | round hm hpos _ ih => exact run_many_of_matched hm hpos ih

/-- Every repetition that matches has rounds. -/
theorem exists_rounds (hm : (many g).run c = .matched next as) :
    ∃ rounds, Rounds g c rounds next ∧ rounds.map Round.value = as := by
  induction hn : c.rest.length using Nat.strong_induction_on generalizing c as with
  | _ n ih =>
  subst hn
  rw [run_many_eq] at hm
  cases hg : g.run c with
  | matched mid a =>
      rw [hg] at hm
      dsimp only at hm
      split at hm
      · next hpos =>
        obtain ⟨rfl, rfl⟩ := Outcome.matched.inj hm
        exact ⟨[], .stuck (.inr ⟨mid, a, hg, hpos⟩), rfl⟩
      · next hpos =>
        obtain ⟨bs, hbs, rfl⟩ := Outcome.map_eq_matched_iff.1 hm
        have hlt := length_rest_lt_of_run hg hpos
        obtain ⟨rounds, hrounds, rfl⟩ := ih _ hlt hbs rfl
        have hmoved : c.pos < mid.pos := Nat.lt_of_le_of_ne (pos_le_of_run hg) (Ne.symm hpos)
        exact ⟨_, .round hg hmoved hrounds, rfl⟩
  | mismatch place =>
      rw [hg] at hm
      obtain ⟨rfl, rfl⟩ := Outcome.matched.inj hm
      exact ⟨[], .stuck (.inl ⟨place, hg⟩), rfl⟩
  | overlong digits =>
      rw [hg] at hm
      simp at hm

/-- **Repetitions**: a repetition matches along its rounds, and its values are theirs. -/
theorem run_many_eq_matched_iff : (many g).run c = .matched next as ↔
    ∃ rounds, Rounds g c rounds next ∧ rounds.map Round.value = as :=
  ⟨exists_rounds, fun ⟨_, h, has⟩ => has ▸ h.run_many⟩

/-- A round of a repetition is a match, and the repetition goes on behind it. -/
theorem Rounds.of_append {front back : List (Round α)} {r : Round α}
    (h : Rounds g c (front ++ r :: back) e) :
    g.run r.start = .matched r.stop r.value ∧ Rounds g r.stop back e := by
  induction front generalizing c with
  | nil =>
      cases h with
      | round hm _ h => exact ⟨hm, h⟩
  | cons _ front ih =>
      cases h with
      | round _ _ h => exact ih h

/-- Where the grammar is rejected there are no more rounds. -/
theorem Rounds.of_rejects {rounds : List (Round α)} (h : Rounds g c rounds e)
    (hrej : Rejects g c.rest) : rounds = [] ∧ e = c := by
  cases h with
  | stuck => exact ⟨rfl, rfl⟩
  | round hm =>
      obtain ⟨place, hp⟩ := hrej c rfl
      rw [hp] at hm
      simp at hm

/-- **Repetitions grow**: what a repetition of `g` matches, a repetition of `k` matches too, if `k`
matches wherever `g` does and is rejected where the repetition ends. -/
theorem run_many_mono {k : Grammar α} (hk : Extends g k) (hm : (many g).run c = .matched next as)
    (hend : Rejects k next.rest) : (many k).run c = .matched next as := by
  obtain ⟨rounds, hrounds, rfl⟩ := exists_rounds hm
  clear hm
  induction hrounds with
  | stuck => exact run_many_of_rejects hend
  | round hm hpos _ ih => exact run_many_of_matched (hk _ _ _ hm) hpos (ih hend)

end TableDdl.Grammar
