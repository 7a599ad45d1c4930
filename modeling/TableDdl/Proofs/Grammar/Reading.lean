import Mathlib.Data.Option.Basic
import TableDdl.Proofs.Grammar.Takes

/-!
# Reading a given text

Two statements about a grammar and a text carry the proofs that a text is read as it is meant:

* `Reads g u v a` — in front of `v`, the grammar takes exactly `u` and has the value `a`;
* `Rejects g v` — in front of `v`, the grammar does not match.

What follows (`v`) is part of both, since a grammar looks ahead: a run goes on as long as it can,
and what is optional is left out only where it is rejected.  Each way to put grammars together has
its lemmas, so that a proof about a grammar follows its definition.

`Accepts g L P F E` says the first of all the texts of a language `L`, in front of whatever
satisfies `E`, with a value in `P`, and beside it what holds of the text that then stands in front:
`F`.  So the statement about a sequence is put together from its end: what the later part
promises of its front is what the earlier part asks of the text behind it.
-/

namespace TableDdl.Grammar

variable {α β : Type} {g : Grammar α} {h : Grammar β} {u u' v w : List Char} {a : α} {b : β}

/-- In front of `v`, the grammar takes exactly `u`, and its value is `a`. -/
def Reads (g : Grammar α) (u v : List Char) (a : α) : Prop :=
  ∀ c : Cursor, c.rest = u ++ v → g.run c = .matched (c.advance u.length) a

/-- In front of `v`, the grammar does not match. -/
def Rejects (g : Grammar α) (v : List Char) : Prop :=
  ∀ c : Cursor, c.rest = v → ∃ place, g.run c = .mismatch place

/-! ## Values -/

/-- A value without a text behind it takes nothing. -/
theorem reads_pure (value : α) : Reads (pure value) [] v value := by
  intro c _
  simp

theorem rejects_fail : Rejects (fail : Grammar α) v := fun c _ => ⟨c, rfl⟩

theorem Reads.map (hg : Reads g u v a) (f : α → β) : Reads (map f g) u v (f a) := by
  intro c hc
  rw [run_map, hg c hc, Outcome.map]

theorem Rejects.map (hg : Rejects g v) (f : α → β) : Rejects (map f g) v := by
  intro c hc
  obtain ⟨place, hp⟩ := hg c hc
  exact ⟨place, by rw [run_map, hp, Outcome.map]⟩

/-- What is read passes a test of its value. -/
theorem Reads.refine {f : α → Option β} (hg : Reads g u v a) (hf : f a = some b) :
    Reads (refine f g) u v b := by
  intro c hc
  rw [run_refine, hg c hc, Outcome.bind, hf, Outcome.ofOption]

theorem Rejects.refine (hg : Rejects g v) (f : α → Option β) : Rejects (refine f g) v := by
  intro c hc
  obtain ⟨place, hp⟩ := hg c hc
  exact ⟨place, by rw [run_refine, hp, Outcome.bind]⟩

/-- What is read is rejected where its value fails the test. -/
theorem Reads.rejects_refine {f : α → Option β} (hg : Reads g u v a) (hf : f a = none) :
    Rejects (Grammar.refine f g) (u ++ v) := by
  intro c hc
  exact ⟨c, by rw [run_refine, hg c hc, Outcome.bind, hf, Outcome.ofOption]⟩

/-! ## One behind the other -/

/-- Two grammars read two texts, one behind the other. -/
theorem Reads.pair (hg : Reads g u (u' ++ v) a) (hh : Reads h u' v b) :
    Reads (pair g h) (u ++ u') v (a, b) := by
  intro c hc
  rw [List.append_assoc] at hc
  have hrest := Cursor.rest_advance_of_append hc
  rw [run_pair, hg c hc, Outcome.bind, hh _ hrest, Outcome.map, Cursor.advance_advance,
    List.length_append]

/-- A sequence rejects what its first part rejects. -/
theorem Rejects.pair (hg : Rejects g v) (h : Grammar β) : Rejects (pair g h) v := by
  intro c hc
  obtain ⟨place, hp⟩ := hg c hc
  exact ⟨place, by rw [run_pair, hp, Outcome.bind]⟩

/-- A sequence rejects what only its second part rejects. -/
theorem Reads.rejects_pair (hg : Reads g u v a) (hh : Rejects h v) :
    Rejects (Grammar.pair g h) (u ++ v) := by
  intro c hc
  obtain ⟨place, hp⟩ := hh _ (Cursor.rest_advance_of_append hc)
  exact ⟨place, by rw [run_pair, hg c hc, Outcome.bind, hp, Outcome.map]⟩

/-- Going back on a mismatch does not change what is read. -/
theorem Reads.attempt (hg : Reads g u v a) : Reads (attempt g) u v a := by
  intro c hc
  rw [run_attempt, hg c hc, Outcome.recover]

/-- A mismatch stays one, although the place is given back. -/
theorem Rejects.attempt (hg : Rejects g v) : Rejects (attempt g) v := by
  intro c hc
  obtain ⟨place, hp⟩ := hg c hc
  exact ⟨c, by rw [run_attempt, hp, Outcome.recover]⟩

theorem Reads.seq (hg : Reads g u (u' ++ v) a) (hh : Reads h u' v b) :
    Reads (seq g h) (u ++ u') v (a, b) :=
  (hg.pair hh).attempt

theorem Rejects.seq (hg : Rejects g v) (h : Grammar β) : Rejects (seq g h) v :=
  (hg.pair h).attempt

theorem Reads.rejects_seq (hg : Reads g u v a) (hh : Rejects h v) :
    Rejects (Grammar.seq g h) (u ++ v) :=
  (hg.rejects_pair hh).attempt

theorem Reads.preceded (hg : Reads g u (u' ++ v) a) (hh : Reads h u' v b) :
    Reads (preceded g h) (u ++ u') v b :=
  (hg.seq hh).map Prod.snd

theorem Rejects.preceded (hg : Rejects g v) (h : Grammar β) : Rejects (preceded g h) v :=
  (hg.seq h).map Prod.snd

theorem Reads.followedBy (hg : Reads g u (u' ++ v) a) (hh : Reads h u' v b) :
    Reads (followedBy g h) (u ++ u') v a :=
  (hg.seq hh).map Prod.fst

theorem Rejects.followedBy (hg : Rejects g v) (h : Grammar β) : Rejects (followedBy g h) v :=
  (hg.seq h).map Prod.fst

/-- What stands behind the value has to be there. -/
theorem Reads.rejects_followedBy (hg : Reads g u v a) (hh : Rejects h v) :
    Rejects (Grammar.followedBy g h) (u ++ v) :=
  (hg.rejects_seq hh).map Prod.fst

/-! ## Choices -/

/-- A choice reads what its first side reads, whatever the second side is. -/
theorem Reads.orElse {k : Grammar α} (hg : Reads g u v a) : Reads (orElse g k) u v a := by
  intro c hc
  rw [run_orElse, hg c hc, Outcome.recover]

/-- Where the first side of a choice is rejected, the second side decides. -/
theorem Rejects.run_orElse {k : Grammar α} (hg : Rejects g v) {c : Cursor} (hc : c.rest = v) :
    (orElse g k).run c = (k.run c).recover fun _ => .mismatch c := by
  obtain ⟨place, hp⟩ := hg c hc
  rw [Grammar.run_orElse, hp, Outcome.recover]

/-- The second side of a choice reads what the first side rejects. -/
theorem Reads.orElse_of_rejects {k : Grammar α} (hk : Reads k u v a) (hg : Rejects g (u ++ v)) :
    Reads (Grammar.orElse g k) u v a := by
  intro c hc
  rw [hg.run_orElse hc, hk c hc, Outcome.recover]

/-- A choice rejects what both sides reject. -/
theorem Rejects.orElse {k : Grammar α} (hg : Rejects g v) (hk : Rejects k v) :
    Rejects (Grammar.orElse g k) v := by
  intro c hc
  obtain ⟨place, hp⟩ := hk c hc
  exact ⟨c, by rw [hg.run_orElse hc, hp, Outcome.recover]⟩

/-- What is optional and stands there is not left out. -/
theorem Reads.optional (hg : Reads g u v a) : Reads (optional g) u v (some a) :=
  (hg.map some).orElse

/-- What is rejected is left out. -/
theorem Rejects.optional (hg : Rejects g v) : Reads (Grammar.optional g) [] v none :=
  (reads_pure none).orElse_of_rejects (hg.map some)

theorem Reads.alternatives_head (hg : Reads g u v a) (gs : List (Grammar α)) :
    Reads (alternatives (g :: gs)) u v a :=
  hg.orElse

/-- A later alternative reads what the first one rejects. -/
theorem Reads.alternatives_tail {gs : List (Grammar α)} (hgs : Reads (alternatives gs) u v a)
    (hg : Rejects g (u ++ v)) : Reads (alternatives (g :: gs)) u v a :=
  hgs.orElse_of_rejects hg

/-- The alternative that reads the text is found behind alternatives that reject it. -/
theorem Reads.alternatives (hg : Reads g u v a) (before after : List (Grammar α))
    (hb : ∀ k ∈ before, Rejects k (u ++ v)) :
    Reads (Grammar.alternatives (before ++ g :: after)) u v a := by
  induction before with
  | nil => exact hg.alternatives_head after
  | cons k before ih =>
      have hrest := ih fun j hj => hb j (List.mem_cons_of_mem k hj)
      exact hrest.alternatives_tail (hb k List.mem_cons_self)

/-! ## Repetitions -/

/-- A repetition of what is rejected takes nothing. -/
theorem Rejects.many (hg : Rejects g v) : Reads (many g) [] v [] := by
  intro c hc
  obtain ⟨place, hp⟩ := hg c hc
  rw [run_many_eq, hp]
  simp

/-- A round that takes something, and the rounds behind it. -/
theorem Reads.many {as : List α} (hg : Reads g u (u' ++ v) a) (hu : u ≠ [])
    (hm : Reads (many g) u' v as) : Reads (many g) (u ++ u') v (a :: as) := by
  intro c hc
  rw [List.append_assoc] at hc
  have hrest := Cursor.rest_advance_of_append hc
  have hpos : (c.advance u.length).pos ≠ c.pos := by
    have := List.length_pos_iff.2 hu
    rw [Cursor.pos_advance]
    omega
  rw [run_many_eq, hg c hc]
  dsimp only
  rw [if_neg hpos, hm _ hrest, Outcome.map, Cursor.advance_advance, List.length_append]

/-! ## Languages -/

variable {L M : Language Char} {P : α → Prop} {Q : β → Prop} {E F G : List Char → Prop}

/-- In front of anything that satisfies `E`, the grammar takes each text of `L` with a value in `P`,
and `F` holds of the text in front of it. -/
def Accepts (g : Grammar α) (L : Language Char) (P : α → Prop) (F E : List Char → Prop) : Prop :=
  ∀ u ∈ L, ∀ v, E v → F (u ++ v) ∧ ∃ a, P a ∧ Reads g u v a

/-- Less may be said of the value and of what comes in front, and more asked of what comes behind.
-/
theorem Accepts.mono {P' : α → Prop} {E' F' : List Char → Prop} (hg : Accepts g L P F E)
    (hE : ∀ v, E' v → E v) (hF : ∀ v, F v → F' v) (hP : ∀ a, P a → P' a) :
    Accepts g L P' F' E' := by
  intro u hu v hv
  obtain ⟨hf, a, ha, hread⟩ := hg u hu v (hE v hv)
  exact ⟨hF _ hf, a, hP a ha, hread⟩

/-- More is asked of what comes behind. -/
theorem Accepts.behind {E' : List Char → Prop} (hg : Accepts g L P F E) (hE : ∀ v, E' v → E v) :
    Accepts g L P F E' :=
  hg.mono hE (fun _ h => h) (fun _ h => h)

/-- Less is promised of the text in front. -/
theorem Accepts.front {F' : List Char → Prop} (hg : Accepts g L P F E) (hF : ∀ v, F v → F' v) :
    Accepts g L P F' E :=
  hg.mono (fun _ h => h) hF (fun _ h => h)

/-- Less is said of the value. -/
theorem Accepts.value {P' : α → Prop} (hg : Accepts g L P F E) (hP : ∀ a, P a → P' a) :
    Accepts g L P' F E :=
  hg.mono (fun _ h => h) (fun _ h => h) hP

theorem Accepts.anyValue (hg : Accepts g L P F E) : Accepts g L (fun _ => True) F E :=
  hg.value fun _ _ => trivial

/-- More is promised of the text in front. -/
theorem Accepts.front_and (hg : Accepts g L P F E) (hG : ∀ u ∈ L, ∀ v, E v → G (u ++ v)) :
    Accepts g L P (fun v => F v ∧ G v) E := by
  intro u hu v hv
  obtain ⟨hF, hread⟩ := hg u hu v hv
  exact ⟨⟨hF, hG u hu v hv⟩, hread⟩

theorem Accepts.map (hg : Accepts g L P F E) (f : α → β) (hf : ∀ a, P a → Q (f a)) :
    Accepts (map f g) L Q F E := by
  intro u hu v hv
  obtain ⟨hF, a, ha, hread⟩ := hg u hu v hv
  exact ⟨hF, f a, hf a ha, hread.map f⟩

/-- Every value passes the test, and what the test makes of it satisfies `Q`. -/
theorem Accepts.refine {f : α → Option β} (hg : Accepts g L P F E)
    (hf : ∀ a, P a → ∃ b, Q b ∧ f a = some b) : Accepts (refine f g) L Q F E := by
  intro u hu v hv
  obtain ⟨hF, a, ha, hread⟩ := hg u hu v hv
  obtain ⟨b, hb, hfb⟩ := hf a ha
  exact ⟨hF, b, hb, hread.refine hfb⟩

/-- What the first part asks for behind it is what the second part offers in front. -/
theorem Accepts.pair (hg : Accepts g L P G F) (hh : Accepts h M Q F E) :
    Accepts (pair g h) (L * M) (fun value => P value.1 ∧ Q value.2) G E := by
  rintro _ ⟨u, hu, u', hu', rfl⟩ v hv
  obtain ⟨hF, b, hb, hread'⟩ := hh u' hu' v hv
  obtain ⟨hG, a, ha, hread⟩ := hg u hu _ hF
  dsimp only
  rw [List.append_assoc]
  exact ⟨hG, (a, b), ⟨ha, hb⟩, hread.pair hread'⟩

theorem Accepts.attempt (hg : Accepts g L P F E) : Accepts (attempt g) L P F E := by
  intro u hu v hv
  obtain ⟨hF, a, ha, hread⟩ := hg u hu v hv
  exact ⟨hF, a, ha, hread.attempt⟩

theorem Accepts.seq (hg : Accepts g L P G F) (hh : Accepts h M Q F E) :
    Accepts (seq g h) (L * M) (fun value => P value.1 ∧ Q value.2) G E :=
  (hg.pair hh).attempt

/-- The value of the second part is kept, and the first part stands in front of it. -/
theorem Accepts.preceded (hg : Accepts g L P G F) (hh : Accepts h M Q F E) :
    Accepts (preceded g h) (L * M) Q G E :=
  (hg.seq hh).map Prod.snd fun _ hv => hv.2

/-- The value of the first part is kept, and the second part stands behind it. -/
theorem Accepts.followedBy (hg : Accepts g L P G F) (hh : Accepts h M Q F E) :
    Accepts (followedBy g h) (L * M) P G E :=
  (hg.seq hh).map Prod.fst fun _ hv => hv.1

/-- A choice takes what one alternative takes, if the alternatives before it are rejected there. -/
theorem Accepts.alternatives (hg : Accepts g L P F E) (before after : List (Grammar α))
    (hb : ∀ v, F v → ∀ k ∈ before, Rejects k v) :
    Accepts (Grammar.alternatives (before ++ g :: after)) L P F E := by
  intro u hu v hv
  obtain ⟨hF, a, ha, hread⟩ := hg u hu v hv
  exact ⟨hF, a, ha, hread.alternatives before after (hb _ hF)⟩

/-- What is optional is taken where it stands. -/
theorem Accepts.optional (hg : Accepts g L P F E) :
    Accepts (optional g) L (fun _ => True) F E := by
  intro u hu v hv
  obtain ⟨hF, a, -, hread⟩ := hg u hu v hv
  exact ⟨hF, some a, trivial, hread.optional⟩

/-- An optional grammar takes nothing in front of what the grammar rejects. -/
theorem accepts_optional_none (hF : ∀ v, F v → Rejects g v) :
    Accepts (optional g) 1 (fun _ => True) F F := by
  rintro _ rfl v hv
  exact ⟨hv, none, trivial, (hF v hv).optional⟩

/-- What is optional is taken where it stands, and left out where it is rejected. -/
theorem accepts_optional {ι : Type} {L : ι → Language Char} {P : ι → α → Prop}
    (hsome : ∀ i, Accepts g (L i) (P i) F E) (hnone : ∀ v, E v → F v ∧ Rejects g v)
    (o : Option ι) : Accepts (optional g) (o.elim 1 L) (Option.Rel P o) F E := by
  intro u hu v hv
  cases o with
  | none =>
      obtain rfl : u = [] := hu
      exact ⟨(hnone v hv).1, none, .none, (hnone v hv).2.optional⟩
  | some i =>
      obtain ⟨hF, a, ha, hread⟩ := hsome i u hu v hv
      exact ⟨hF, some a, .some ha, hread.optional⟩

end TableDdl.Grammar
