import TableDdl.Proofs.Grammar.Tokens

/-!
# How grammars begin

Two facts about a grammar decide most of what a committed choice does with it:

* `Opens g ks` — it matches nowhere but in front of one of the keywords `ks`, so it is rejected
  wherever another word comes first;
* `Moves g` — each of its matches takes something, so a repetition of it goes on.

Beside them stand the ways in which a match of a composed grammar falls into matches of its parts.
-/

namespace TableDdl.Grammar

open Text

variable {α β : Type} {g : Grammar α} {h : Grammar β} {c next : Cursor} {a : α} {b : β}
  {v : List Char} {ks ls : List String}

/-! ## The parts of a match -/

/-- A sequence matches just if its parts match, the second where the first one stopped. -/
theorem run_pair_eq_matched_iff {value : α × β} :
    (pair g h).run c = .matched next value ↔
      ∃ mid, g.run c = .matched mid value.1 ∧ h.run mid = .matched next value.2 := by
  rw [run_pair, Outcome.bind_eq_matched_iff]
  constructor
  · rintro ⟨mid, a, hg, hh⟩
    obtain ⟨b, hb, rfl⟩ := Outcome.map_eq_matched_iff.1 hh
    exact ⟨mid, hg, hb⟩
  · rintro ⟨mid, hg, hh⟩
    exact ⟨mid, value.1, hg, Outcome.map_eq_matched_iff.2 ⟨value.2, hh, rfl⟩⟩

theorem run_pair_of_matched {mid : Cursor} (hg : g.run c = .matched mid a)
    (hh : h.run mid = .matched next b) : (pair g h).run c = .matched next (a, b) :=
  run_pair_eq_matched_iff.2 ⟨mid, hg, hh⟩

/-- Going back on a mismatch does not change what matches. -/
theorem run_attempt_eq_matched_iff :
    (attempt g).run c = .matched next a ↔ g.run c = .matched next a := by
  rw [run_attempt, Outcome.recover_eq_matched_iff]
  simp

theorem run_map_eq_matched_iff {f : α → β} :
    (map f g).run c = .matched next b ↔ ∃ a, g.run c = .matched next a ∧ f a = b := by
  rw [run_map, Outcome.map_eq_matched_iff]

theorem run_map_of_matched (hg : g.run c = .matched next a) (f : α → β) :
    (map f g).run c = .matched next (f a) :=
  run_map_eq_matched_iff.2 ⟨a, hg, rfl⟩

theorem run_seq_eq_matched_iff {value : α × β} :
    (seq g h).run c = .matched next value ↔
      ∃ mid, g.run c = .matched mid value.1 ∧ h.run mid = .matched next value.2 := by
  rw [seq, run_attempt_eq_matched_iff, run_pair_eq_matched_iff]

theorem run_seq_of_matched {mid : Cursor} (hg : g.run c = .matched mid a)
    (hh : h.run mid = .matched next b) : (seq g h).run c = .matched next (a, b) :=
  run_seq_eq_matched_iff.2 ⟨mid, hg, hh⟩

theorem run_map_snd_pair_eq_matched_iff :
    (map Prod.snd (pair g h)).run c = .matched next b ↔
      ∃ mid a, g.run c = .matched mid a ∧ h.run mid = .matched next b := by
  simp only [run_map_eq_matched_iff, run_pair_eq_matched_iff]
  constructor
  · rintro ⟨⟨a, b⟩, ⟨mid, hg, hh⟩, rfl⟩
    exact ⟨mid, a, hg, hh⟩
  · rintro ⟨mid, a, hg, hh⟩
    exact ⟨(a, b), ⟨mid, hg, hh⟩, rfl⟩

/-- A match of a sequence whose first value is dropped passes through the place behind the first
part. -/
theorem run_preceded_eq_matched_iff :
    (preceded g h).run c = .matched next b ↔
      ∃ mid a, g.run c = .matched mid a ∧ h.run mid = .matched next b := by
  rw [← run_map_snd_pair_eq_matched_iff, preceded, run_map_eq_matched_iff, run_map_eq_matched_iff]
  simp only [seq, run_attempt_eq_matched_iff]

/-- A tested grammar matches where it matched before and the value passes the test. -/
theorem run_refine_eq_matched_iff {f : α → Option β} :
    (refine f g).run c = .matched next b ↔ ∃ a, g.run c = .matched next a ∧ f a = some b := by
  rw [run_refine, Outcome.bind_eq_matched_iff]
  constructor
  · rintro ⟨mid, a, hg, hf⟩
    obtain ⟨rfl, hfa⟩ := Outcome.ofOption_eq_matched_iff.1 hf
    exact ⟨a, hg, hfa⟩
  · rintro ⟨a, hg, hf⟩
    exact ⟨next, a, hg, Outcome.ofOption_eq_matched_iff.2 ⟨rfl, hf⟩⟩

/-- What passes the test for a list with members is the list itself. -/
theorem nonempty?_eq_some {as bs : List α} (h : nonempty? as = some bs) : as = bs ∧ bs ≠ [] := by
  rw [nonempty?] at h
  split at h
  · simp at h
  · next hne =>
    obtain rfl := Option.some.inj h
    exact ⟨rfl, by simpa using hne⟩

/-- A choice matches by its first side, or by its second side where the first mismatches. -/
theorem run_orElse_eq_matched {k : Grammar α} (hm : (orElse g k).run c = .matched next a) :
    g.run c = .matched next a ∨
      (∃ place, g.run c = .mismatch place) ∧ k.run c = .matched next a := by
  rw [run_orElse] at hm
  rcases Outcome.recover_eq_matched_iff.1 hm with hm | ⟨place, hp, hm⟩
  · exact .inl hm
  · rcases Outcome.recover_eq_matched_iff.1 hm with hm | ⟨_, -, hm⟩
    · exact .inr ⟨⟨place, hp⟩, hm⟩
    · simp at hm

/-- An optional grammar matches with a value of the grammar, or with none where that mismatches. -/
theorem run_optional_eq_matched {found : Option α}
    (hm : (optional g).run c = .matched next found) :
    (∃ a, g.run c = .matched next a ∧ found = some a) ∨
      ((∃ place, g.run c = .mismatch place) ∧ next = c ∧ found = none) := by
  rcases run_orElse_eq_matched hm with hm | ⟨⟨place, hp⟩, hm⟩
  · obtain ⟨a, ha, rfl⟩ := run_map_eq_matched_iff.1 hm
    exact .inl ⟨a, ha, rfl⟩
  · obtain ⟨rfl, rfl⟩ := Outcome.matched.inj hm
    exact .inr ⟨⟨place, Outcome.map_eq_mismatch_iff.1 hp⟩, rfl, rfl⟩

/-- A sequence fails where its first part does. -/
theorem run_preceded_of_mismatch_left {place : Cursor} (hg : g.run c = .mismatch place)
    (h : Grammar β) : (preceded g h).run c = .mismatch c := by
  rw [preceded, run_map, seq, run_attempt, run_pair, hg]
  rfl

/-- A sequence that fails behind its first part is back where it began. -/
theorem run_preceded_of_mismatch_right {mid place : Cursor} (hg : g.run c = .matched mid a)
    (hh : h.run mid = .mismatch place) : (preceded g h).run c = .mismatch c := by
  rw [preceded, run_map, seq, run_attempt, run_pair, hg, Outcome.bind, hh]
  rfl

/-- A match behind alternatives that do not match is the match of the choice. -/
theorem run_alternatives (hg : g.run c = .matched next a) (before after : List (Grammar α))
    (hb : ∀ k ∈ before, ∃ place, k.run c = .mismatch place) :
    (alternatives (before ++ g :: after)).run c = .matched next a := by
  induction before with
  | nil => rw [List.nil_append, alternatives, run_orElse, hg, Outcome.recover]
  | cons k before ih =>
      obtain ⟨place, hk⟩ := hb k List.mem_cons_self
      have hrest := ih fun j hj => hb j (List.mem_cons_of_mem k hj)
      rw [List.cons_append, alternatives, run_orElse, hk, Outcome.recover, hrest, Outcome.recover]

/-- Exactly the characters of the mark are taken. -/
theorem took_exactly {mark w : String} (h : (exactly mark).run c = .matched next w) :
    c.Took next mark.toList := by
  obtain ⟨t, ht, -⟩ := run_map_eq_matched_iff.1 h
  rw [run] at ht
  split at ht
  · next hs =>
    obtain ⟨rfl, -⟩ := Outcome.matched.inj ht
    exact took_of_startsWith hs
  · simp at ht

/-- A name that no backtick opens is the first word, and a backtick may stand behind it. -/
theorem run_identifier_eq_matched {name : String} (h : identifier.run c = .matched next name)
    (htick : c.rest.head? ≠ some '`') : name.toList = c.rest.takeWhile isWord ∧
      (next.rest = c.rest.dropWhile isWord ∨ (c.rest.dropWhile isWord).head? = some '`') := by
  obtain ⟨parts, hparts, rfl⟩ := run_map_eq_matched_iff.1 h
  obtain ⟨c1, hfront, hrest⟩ := run_seq_eq_matched_iff.1 hparts
  obtain ⟨c2, hword, hback⟩ := run_seq_eq_matched_iff.1 hrest
  have hhead {e : Cursor} {w : String} (hm : (exactly "`").run c = .matched e w) : False := by
    have htook := (took_exactly hm).1
    rw [htook] at htick
    exact htick rfl
  obtain rfl : c1 = c := by
    rcases run_optional_eq_matched hfront with ⟨a, ha, -⟩ | ⟨-, rfl, -⟩
    · exact (hhead ha).elim
    · rfl
  obtain ⟨w, hw, hne⟩ := run_refine_eq_matched_iff.1 hword
  obtain ⟨rfl, rfl⟩ := Outcome.matched.inj hw
  rw [← (nonempty?_eq_some hne).1, String.toList_ofList]
  refine ⟨rfl, ?_⟩
  rcases run_optional_eq_matched hback with ⟨a, ha, -⟩ | ⟨-, rfl, -⟩
  · refine .inr ?_
    rw [← rest_advance_takeWhile, (took_exactly ha).1]
    rfl
  · exact .inl (rest_advance_takeWhile c1 isWord)

/-! ## Larger grammars -/

/-- What `g` matches, `k` matches too. -/
def Extends (g k : Grammar α) : Prop :=
  ∀ c next a, g.run c = .matched next a → k.run c = .matched next a

/-- Every grammar extends itself. -/
theorem Extends.refl (g : Grammar α) : Extends g g := fun _ _ _ h => h

theorem Extends.map {k : Grammar α} (hk : Extends g k) (f : α → β) :
    Extends (map f g) (map f k) := by
  intro c next b hm
  obtain ⟨a, ha, rfl⟩ := run_map_eq_matched_iff.1 hm
  exact run_map_of_matched (hk c next a ha) f

/-- A sequence extends another one part by part. -/
theorem Extends.seq {k : Grammar α} {l : Grammar β} (hk : Extends g k) (hl : Extends h l) :
    Extends (seq g h) (seq k l) := by
  intro c next value hm
  obtain ⟨mid, hg, hh⟩ := run_seq_eq_matched_iff.1 hm
  exact run_seq_eq_matched_iff.2 ⟨mid, hk c mid _ hg, hl mid next _ hh⟩

theorem Extends.preceded {k : Grammar α} {l : Grammar β} (hk : Extends g k) (hl : Extends h l) :
    Extends (preceded g h) (preceded k l) :=
  (hk.seq hl).map Prod.snd

theorem Extends.followedBy {k : Grammar α} {l : Grammar β} (hk : Extends g k) (hl : Extends h l) :
    Extends (followedBy g h) (followedBy k l) :=
  (hk.seq hl).map Prod.fst

/-- More to choose from behind what there is. -/
theorem Extends.orElse_right {k l : Grammar α} (hl : Extends k l) (g : Grammar α) :
    Extends (orElse g k) (orElse g l) := by
  intro c next a hm
  rw [run_orElse]
  rcases run_orElse_eq_matched hm with hm | ⟨⟨place, hp⟩, hm⟩
  · rw [hm, Outcome.recover]
  · rw [hp, Outcome.recover, hl c next a hm, Outcome.recover]

/-- Further alternatives at the end change no match. -/
theorem extends_alternatives_append (gs more : List (Grammar α)) :
    Extends (alternatives gs) (alternatives (gs ++ more)) := by
  induction gs with
  | nil =>
      intro c next a hm
      simp [alternatives] at hm
  | cons g gs ih => exact ih.orElse_right g

/-! ## Repetition round by round -/

/-- One round that moves, and a repetition behind it. -/
theorem run_many_of_matched {e : Cursor} {as : List α} (hg : g.run c = .matched next a)
    (hpos : c.pos < next.pos) (hm : (many g).run next = .matched e as) :
    (many g).run c = .matched e (a :: as) := by
  rw [run_many_eq, hg]
  dsimp only
  rw [if_neg (by omega), hm, Outcome.map]

/-- No round is taken where the grammar is rejected. -/
theorem run_many_of_rejects (hg : Rejects g c.rest) : (many g).run c = .matched c [] := by
  obtain ⟨place, hp⟩ := hg c rfl
  rw [run_many_eq, hp]

/-! ## Opening keywords -/

/-- The grammar matches only where one of the keywords `ks` is the first word. -/
def Opens (g : Grammar α) (ks : List String) : Prop :=
  ∀ v, firstWord v ∉ ks.map String.toList → Rejects g v

/-- A grammar that opens with some words opens with any more, too. -/
theorem Opens.mono (hg : Opens g ks) (hs : ks ⊆ ls) : Opens g ls :=
  fun v hv => hg v fun hm => hv (List.map_subset _ hs hm)

/-- A keyword opens with itself. -/
theorem opens_keyword {k : String} (hk : isKeyword k = true) : Opens (keyword k) [k] :=
  fun _ hv => rejects_keyword hk (by simpa using hv)

theorem Opens.map (hg : Opens g ks) (f : α → β) : Opens (map f g) ks :=
  fun v hv => (hg v hv).map f

theorem Opens.refine (hg : Opens g ks) (f : α → Option β) : Opens (refine f g) ks :=
  fun v hv => (hg v hv).refine f

/-- A sequence opens with what its first part opens with. -/
theorem Opens.seq (hg : Opens g ks) (h : Grammar β) : Opens (seq g h) ks :=
  fun v hv => (hg v hv).seq h

theorem Opens.preceded (hg : Opens g ks) (h : Grammar β) : Opens (preceded g h) ks :=
  fun v hv => (hg v hv).preceded h

theorem Opens.followedBy (hg : Opens g ks) (h : Grammar β) : Opens (followedBy g h) ks :=
  fun v hv => (hg v hv).followedBy h

/-- The optional part opens with words of the second part, so the sequence opens with them too. -/
theorem Opens.optional_seq (hg : Opens g ks) (hh : Opens h ks) :
    Opens (Grammar.seq (optional g) h) ks := by
  intro v hv
  have hnone : Reads (optional g) [] v none := (hg v hv).optional
  exact hnone.rejects_seq (hh v hv)

theorem Opens.optional_preceded (hg : Opens g ks) (hh : Opens h ks) :
    Opens (Grammar.preceded (optional g) h) ks :=
  (hg.optional_seq hh).map Prod.snd

/-- A choice without alternatives matches nowhere. -/
theorem opens_alternatives_nil : Opens (alternatives ([] : List (Grammar α))) [] :=
  fun _ _ => rejects_fail

/-- A choice opens with what its alternatives open with. -/
theorem Opens.cons {gs : List (Grammar α)} (hg : Opens g ks) (hgs : Opens (alternatives gs) ls) :
    Opens (alternatives (g :: gs)) (ks ++ ls) := by
  intro v hv
  rw [List.map_append, List.mem_append, not_or] at hv
  exact (hg v hv.1).orElse (hgs v hv.2)

/-- A choice between keywords opens with them. -/
theorem opens_words (texts : List String) (htexts : ∀ k ∈ texts, isKeyword k = true) :
    Opens (alternatives (texts.map keyword)) texts := by
  induction texts with
  | nil => exact opens_alternatives_nil
  | cons text texts ih =>
      obtain ⟨htext, hrest⟩ := List.forall_mem_cons.1 htexts
      exact (opens_keyword htext).cons (ih hrest)

/-- A choice between keywords, each of which stands for a value, opens with them. -/
theorem opens_named (entries : List (String × α))
    (hentries : ∀ entry ∈ entries, isKeyword entry.1 = true) :
    Opens (alternatives (entries.map fun entry =>
      Grammar.map (fun _ => entry.2) (keyword entry.1))) (entries.map Prod.fst) := by
  induction entries with
  | nil => exact opens_alternatives_nil
  | cons entry entries ih =>
      obtain ⟨hentry, hrest⟩ := List.forall_mem_cons.1 hentries
      have hword := (opens_keyword hentry).map fun _ => entry.2
      exact hword.cons (ih hrest)

theorem opens_keywordParts {k : String} (hk : isKeyword k = true) (rest : List String) :
    Opens (keywordParts (k :: rest)) [k] := by
  cases rest with
  | nil => exact (opens_keyword hk).map _
  | cons l rest => exact ((opens_keyword hk).seq _).map _

/-- Keywords in a row open with the first of them. -/
theorem opens_keywords {k : String} (hk : isKeyword k = true) (rest : List String) :
    Opens (keywords (k :: rest)) [k] :=
  (opens_keywordParts hk rest).map capitals

/-- Where the grammar matches, one of its keywords is the first word. -/
theorem Opens.firstWord_mem (hg : Opens g ks) (hm : g.run c = .matched next a) :
    firstWord c.rest ∈ ks.map String.toList := by
  by_contra hv
  obtain ⟨place, hp⟩ := hg c.rest hv c rfl
  rw [hp] at hm
  simp at hm

/-- Grammars that open with different keywords never match at the same place. -/
theorem Opens.rejects_of_matched (hg : Opens g ks) (hh : Opens h ls)
    (hm : g.run c = .matched next a) (hd : ∀ k ∈ ks, k ∉ ls) : Rejects h c.rest :=
  hh _ (not_mem_map_toList (hg.firstWord_mem hm) hd)

/-- The grammar matches only where one of the keywords `ks` comes next, blanks apart. -/
def OpensBehind (g : Grammar α) (ks : List String) : Prop :=
  ∀ v, firstWord (trimStart v) ∉ ks.map String.toList → Rejects g v

/-- A match behind blanks tells the first word that is left there. -/
theorem OpensBehind.firstWord_mem (hg : OpensBehind g ks) (hm : g.run c = .matched next a) :
    firstWord (trimStart c.rest) ∈ ks.map String.toList := by
  by_contra hv
  obtain ⟨place, hp⟩ := hg c.rest hv c rfl
  rw [hp] at hm
  simp at hm

/-- Blanks in front are read over. -/
theorem Opens.behind_whitespace0 (hg : Opens g ks) :
    OpensBehind (Grammar.preceded whitespace0 g) ks :=
  fun _ hv => rejects_behind_whitespace0 (hg _ hv)

/-- Blanks that must stand in front are read over, too. -/
theorem Opens.behind_whitespace1 (hg : Opens g ks) :
    OpensBehind (Grammar.preceded whitespace1 g) ks :=
  fun _ hv => rejects_behind_whitespace1 (hg _ hv)

/-! ## Moving on -/

/-- Each match of the grammar takes something. -/
def Moves (g : Grammar α) : Prop :=
  ∀ c next a, g.run c = .matched next a → c.pos < next.pos

/-- No match goes back. -/
theorem pos_le_of_run (hm : g.run c = .matched next a) : c.pos ≤ next.pos := by
  obtain ⟨w, -, rfl⟩ := took_of_run hm
  exact Nat.le_add_right _ _

/-- A keyword is not empty, so to match it takes something. -/
theorem moves_keyword {k : String} (hk : isKeyword k = true) : Moves (keyword k) := by
  intro c next a hm
  rw [run_keyword hk] at hm
  split at hm
  · obtain ⟨rfl, -⟩ := Outcome.matched.inj hm
    have hne : k.toList ≠ [] := by
      intro h0
      rw [isKeyword, h0] at hk
      exact absurd hk (by simp)
    have := List.length_pos_iff.2 hne
    rw [Cursor.pos_advance]
    omega
  · simp at hm

theorem Moves.map (hg : Moves g) (f : α → β) : Moves (map f g) := by
  intro c next b hm
  obtain ⟨a, ha, -⟩ := run_map_eq_matched_iff.1 hm
  exact hg c next a ha

/-- A sequence moves on if its first part does. -/
theorem Moves.seq_left (hg : Moves g) (h : Grammar β) : Moves (seq g h) := by
  intro c next value hm
  obtain ⟨mid, hl, hr⟩ := run_seq_eq_matched_iff.1 hm
  exact Nat.lt_of_lt_of_le (hg c mid _ hl) (pos_le_of_run hr)

/-- A sequence moves on if its second part does. -/
theorem Moves.seq_right (hh : Moves h) (g : Grammar α) : Moves (seq g h) := by
  intro c next value hm
  obtain ⟨mid, hl, hr⟩ := run_seq_eq_matched_iff.1 hm
  exact Nat.lt_of_le_of_lt (pos_le_of_run hl) (hh mid next _ hr)

theorem Moves.preceded_left (hg : Moves g) (h : Grammar β) : Moves (preceded g h) :=
  (hg.seq_left h).map Prod.snd

theorem Moves.preceded_right (hh : Moves h) (g : Grammar α) : Moves (preceded g h) :=
  (hh.seq_right g).map Prod.snd

theorem Moves.followedBy_left (hg : Moves g) (h : Grammar β) : Moves (followedBy g h) :=
  (hg.seq_left h).map Prod.fst

/-- A choice moves on if both its sides do. -/
theorem Moves.orElse {k : Grammar α} (hg : Moves g) (hk : Moves k) : Moves (orElse g k) := by
  intro c next a hm
  rcases run_orElse_eq_matched hm with hm | ⟨-, hm⟩
  · exact hg c next a hm
  · exact hk c next a hm

/-- A choice moves on if all of its alternatives do. -/
theorem moves_alternatives {gs : List (Grammar α)} (hgs : ∀ k ∈ gs, Moves k) :
    Moves (alternatives gs) := by
  induction gs with
  | nil =>
      intro c next a hm
      simp [alternatives] at hm
  | cons k gs ih =>
      have hrest := ih fun j hj => hgs j (List.mem_cons_of_mem k hj)
      exact (hgs k List.mem_cons_self).orElse hrest

/-- A run of characters that may not be empty takes at least one. -/
theorem moves_nonempty_span (p : Char → Bool) : Moves (Grammar.refine nonempty? (span p)) := by
  intro c next a hm
  obtain ⟨w, hw, hne⟩ := run_refine_eq_matched_iff.1 hm
  obtain ⟨rfl, rfl⟩ := Outcome.matched.inj hw
  obtain ⟨rfl, hpos⟩ := nonempty?_eq_some hne
  have := List.length_pos_iff.2 hpos
  rw [Cursor.pos_advance]
  omega

/-- A name has at least one word character. -/
theorem moves_identifier : Moves identifier := by
  have hname := (moves_nonempty_span isWord).seq_left (optional (exactly "`"))
  have hticked := hname.seq_right (optional (exactly "`"))
  exact hticked.map _

/-- A number has at least one digit. -/
theorem moves_unsignedInteger : Moves unsignedInteger := by
  intro c next n hm
  rw [unsignedInteger, run, runNumber] at hm
  split at hm
  · simp at hm
  · next hcount =>
    split at hm
    · simp at hm
    · obtain ⟨rfl, -⟩ := Outcome.matched.inj hm
      rw [Cursor.pos_advance]
      omega

/-- A string has at least its two quotes. -/
theorem moves_quotedString : Moves quotedString := by
  refine Moves.map (fun c next a hm => ?_) String.ofList
  obtain ⟨q, body, -, -, -, hnext⟩ := exists_took_of_quoted hm
  have hlen : (q :: body ++ [q]).length = body.length + 2 := by simp
  rw [hnext, Cursor.pos_advance, hlen]
  omega

/-- What moves takes no empty text. -/
theorem Reads.ne_nil {u : List Char} (hg : Reads g u v a) (hmoves : Moves g) : u ≠ [] := by
  rintro rfl
  have hpos := hmoves (.start v) _ a (hg (.start v) rfl)
  simp at hpos

end TableDdl.Grammar
