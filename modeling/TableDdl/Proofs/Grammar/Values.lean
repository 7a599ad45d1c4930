import TableDdl.Proofs.Grammar.Opening
import TableDdl.Proofs.Text.Case

/-!
# What grammars find

`Yields g P` says that every value the grammar finds satisfies `P`, whatever the text and the place.
Each way to put grammars together has its lemma, so what the tokens promise of names and numbers is
carried up to the lines of a table and the table itself: a sequence promises what its parts promise,
a choice what all its alternatives promise, and a repetition the same of each round.
-/

namespace TableDdl.Grammar

open Text

variable {α β : Type} {g : Grammar α} {h : Grammar β} {P P' : α → Prop} {Q : β → Prop}

/-- Every value that the grammar finds satisfies `P`. -/
def Yields (g : Grammar α) (P : α → Prop) : Prop :=
  ∀ c next a, g.run c = .matched next a → P a

/-- Every grammar yields values. -/
theorem yields_any (g : Grammar α) : Yields g fun _ => True := fun _ _ _ _ => trivial

theorem Yields.mono (hg : Yields g P) (hP : ∀ a, P a → P' a) : Yields g P' :=
  fun c next a hm => hP a (hg c next a hm)

/-! ## Values -/

/-- Where nothing matches, every value is good. -/
theorem yields_fail : Yields (fail : Grammar α) P := by
  intro c next a hm
  simp at hm

/-- What holds of a value has to carry over to its image. -/
theorem Yields.map (hg : Yields g P) {f : α → β} (hf : ∀ a, P a → Q (f a)) :
    Yields (map f g) Q := by
  intro c next b hm
  obtain ⟨a, ha, rfl⟩ := run_map_eq_matched_iff.1 hm
  exact hf a (hg c next a ha)

/-- A test of values passes on what holds of the values that stand it. -/
theorem Yields.refine (hg : Yields g P) {f : α → Option β}
    (hf : ∀ a b, P a → f a = some b → Q b) : Yields (refine f g) Q := by
  intro c next b hm
  obtain ⟨a, ha, hb⟩ := run_refine_eq_matched_iff.1 hm
  exact hf a b (hg c next a ha) hb

/-! ## One behind the other -/

/-- Both values are good, each for its own part. -/
theorem Yields.pair (hg : Yields g P) (hh : Yields h Q) :
    Yields (pair g h) fun value => P value.1 ∧ Q value.2 := by
  intro c next value hm
  obtain ⟨mid, hl, hr⟩ := run_pair_eq_matched_iff.1 hm
  exact ⟨hg c mid _ hl, hh mid next _ hr⟩

theorem Yields.seq (hg : Yields g P) (hh : Yields h Q) :
    Yields (seq g h) fun value => P value.1 ∧ Q value.2 := by
  intro c next value hm
  obtain ⟨mid, hl, hr⟩ := run_seq_eq_matched_iff.1 hm
  exact ⟨hg c mid _ hl, hh mid next _ hr⟩

theorem Yields.preceded (hh : Yields h Q) (g : Grammar α) : Yields (preceded g h) Q :=
  ((yields_any g).seq hh).map fun _ hv => hv.2

theorem Yields.followedBy (hg : Yields g P) (h : Grammar β) : Yields (followedBy g h) P :=
  (hg.seq (yields_any h)).map fun _ hv => hv.1

theorem Yields.map_snd_pair (hh : Yields h Q) (g : Grammar α) :
    Yields (Grammar.map Prod.snd (Grammar.pair g h)) Q :=
  ((yields_any g).pair hh).map fun _ hv => hv.2

/-! ## Choices -/

/-- Whichever side of a choice matches, its value is good. -/
theorem Yields.orElse {k : Grammar α} (hg : Yields g P) (hk : Yields k P) :
    Yields (orElse g k) P := by
  intro c next a hm
  rcases Outcome.recover_eq_matched_iff.1 hm with hm | ⟨_, -, hm⟩
  · exact hg c next a hm
  · rcases Outcome.recover_eq_matched_iff.1 hm with hm | ⟨_, -, hm⟩
    · exact hk c next a hm
    · simp at hm

/-- Whichever alternative matches, its value is good. -/
theorem yields_alternatives {gs : List (Grammar α)} (hgs : ∀ k ∈ gs, Yields k P) :
    Yields (alternatives gs) P := by
  induction gs with
  | nil => exact yields_fail
  | cons k gs ih =>
      exact (hgs k List.mem_cons_self).orElse (ih fun j hj => hgs j (List.mem_cons_of_mem k hj))

/-- What an optional part finds, if it finds anything, is what the part finds. -/
theorem Yields.optional (hg : Yields g P) : Yields (optional g) fun found => ∀ a ∈ found, P a := by
  intro c next found hm
  rcases run_optional_eq_matched hm with ⟨a, ha, rfl⟩ | ⟨-, -, rfl⟩
  · intro b hb
    obtain rfl := Option.some.inj hb
    exact hg c next a ha
  · intro b hb
    simp at hb

/-! ## Repetitions -/

/-- Each round of a repetition finds what the repeated grammar finds. -/
theorem forall_of_repeatRun {run : Cursor → Outcome α}
    (hrun : ∀ c next a, run c = .matched next a → P a) (fuel : Nat) {c next : Cursor} {as : List α}
    (hm : repeatRun run fuel c = .matched next as) : ∀ a ∈ as, P a := by
  induction fuel generalizing c as with
  | zero =>
      obtain ⟨-, rfl⟩ := Outcome.matched.inj hm
      simp
  | succ fuel ih =>
      rw [repeatRun] at hm
      split at hm
      · next mid a ha =>
        split at hm
        · obtain ⟨-, rfl⟩ := Outcome.matched.inj hm
          simp
        · obtain ⟨bs, hbs, rfl⟩ := Outcome.map_eq_matched_iff.1 hm
          exact List.forall_mem_cons.2 ⟨hrun c mid a ha, ih hbs⟩
      · obtain ⟨-, rfl⟩ := Outcome.matched.inj hm
        simp
      · simp at hm

/-- The value of each round is good. -/
theorem Yields.many (hg : Yields g P) : Yields (many g) fun as => ∀ a ∈ as, P a :=
  fun _ _ _ hm => forall_of_repeatRun hg _ hm

/-- A repetition that must not be empty yields a list that is not. -/
theorem Yields.many1 (hg : Yields g P) : Yields (many1 g) fun as => as ≠ [] ∧ ∀ a ∈ as, P a :=
  hg.many.refine fun as bs has h => by
    obtain ⟨rfl, hne⟩ := nonempty?_eq_some h
    exact ⟨hne, has⟩

/-! ## Tokens -/

/-- A keyword is found as it stands, in whatever case. -/
theorem yields_keyword {k : String} (hk : isKeyword k = true) :
    Yields (keyword k) fun word => word.toList.map asciiLower = k.toList := by
  intro c next word hm
  rw [run_keyword hk] at hm
  split at hm
  · next hfirst =>
    obtain ⟨-, rfl⟩ := Outcome.matched.inj hm
    rw [String.toList_ofList]
    exact hfirst
  · simp at hm

theorem map_intercalate (f : α → β) (sep : List α) (ls : List (List α)) :
    (List.intercalate sep ls).map f = List.intercalate (sep.map f) (ls.map (List.map f)) := by
  induction ls with
  | nil => rfl
  | cons l ls ih => cases ls <;> simp_all [List.intercalate]

/-- In capitals, words are the same in whatever case they are written. -/
theorem capitals_congr {words words' : List String}
    (h : words.map (fun w => w.toList.map asciiLower) =
      words'.map fun w => w.toList.map asciiLower) : capitals words = capitals words' := by
  have hcapitals (ws : List String) : capitals ws = String.ofList (List.intercalate [' ']
      ((ws.map fun w => w.toList.map asciiLower).map (List.map asciiUpper))) := by
    have hspace : [' '].map asciiUpper = [' '] := by decide
    rw [capitals, map_intercalate, hspace, List.map_map, List.map_map]
    congr 3
    funext w
    simp [asciiUpper_asciiLower]
  rw [hcapitals, hcapitals, h]

/-- Whatever the case of a keyword, its capitals are the same. -/
theorem yields_capitals {k : String} (hk : isKeyword k = true) :
    Yields (keyword k) fun word => capitals [word] = capitals [k] :=
  (yields_keyword hk).mono fun word h => capitals_congr (by
    have hsmall : k.toList.map asciiLower = k.toList := by
      rw [← h, List.map_map]
      exact congrArg (List.map · word.toList) (funext asciiLower_asciiLower)
    rw [List.map_singleton, List.map_singleton, hsmall, h])

/-- A name consists of word characters, at least one of them. -/
theorem yields_identifier :
    Yields identifier fun name => name.toList ≠ [] ∧ ∀ c ∈ name.toList, isWord c = true := by
  have hword : Yields (Grammar.refine nonempty? (span isWord)) fun w =>
      w ≠ [] ∧ ∀ c ∈ w, isWord c = true := by
    intro c next w hm
    obtain ⟨v, hv, hw⟩ := run_refine_eq_matched_iff.1 hm
    obtain ⟨rfl, hne⟩ := nonempty?_eq_some hw
    obtain ⟨-, rfl⟩ := Outcome.matched.inj hv
    exact ⟨hne, all_of_mem_takeWhile⟩
  exact ((yields_any _).seq (hword.seq (yields_any _))).map fun parts hv => by
    rw [String.toList_ofList]
    exact hv.2.1

end TableDdl.Grammar
