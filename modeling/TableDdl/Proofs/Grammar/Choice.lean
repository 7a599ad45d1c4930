import TableDdl.Proofs.Grammar.Opening

/-!
# Choices whose order does not matter

A choice takes the first alternative that matches, and it stops at an integer that is too long
before it tries the next one.  So the order of the alternatives can be seen only at a place where
two of them do something else than mismatch.  `Apart g h` says that `g` and `h` have no such place:

* they begin with different keywords (`Opens.apart`) or different characters (`HeadIn.apart`);
* or both begin with the same grammar, and what follows in them is apart (`Apart.behind`).

Alternatives of which any two are apart may be tried in any order (`run_alternatives_of_perm`).
-/

namespace TableDdl.Grammar

open Text

variable {α β γ α' β' : Type} {g : Grammar α} {h : Grammar β} {c : Cursor} {ks ls : List String}
  {p q : Char → Bool}

/-- The grammar does not match at the cursor. -/
def Mismatches (g : Grammar α) (c : Cursor) : Prop := ∃ place, g.run c = .mismatch place

/-- At most one of the grammars does something else at the cursor than not to match. -/
def AtMostOne (gs : List (Grammar α)) (c : Cursor) : Prop :=
  gs.Pairwise fun g h => Mismatches g c ∨ Mismatches h c

/-- Nowhere both grammars do something else than not to match. -/
def Apart (g : Grammar α) (h : Grammar β) : Prop := ∀ c, Mismatches g c ∨ Mismatches h c

/-! ## Mismatches -/

/-- What rejects a text mismatches wherever that text is left. -/
theorem Rejects.mismatches (hg : Rejects g c.rest) : Mismatches g c := hg c rfl

/-- No match where there is a mismatch. -/
theorem Mismatches.not_matched {next : Cursor} {a : α} (hg : Mismatches g c) :
    g.run c ≠ .matched next a := by
  obtain ⟨place, hp⟩ := hg
  rw [hp]
  exact nofun

theorem Mismatches.map (hg : Mismatches g c) (f : α → α') : Mismatches (map f g) c := by
  obtain ⟨place, hp⟩ := hg
  exact ⟨place, by rw [run_map, hp, Outcome.map]⟩

/-- A sequence mismatches where its first part does. -/
theorem Mismatches.seq (hg : Mismatches g c) (h : Grammar β) : Mismatches (seq g h) c := by
  obtain ⟨place, hp⟩ := hg
  exact ⟨c, by rw [Grammar.seq, run_attempt, run_pair, hp]; rfl⟩

/-- A sequence mismatches also where only its second part does. -/
theorem Mismatches.seq_right {mid : Cursor} {a : α} (hh : Mismatches h mid)
    (hg : g.run c = .matched mid a) : Mismatches (Grammar.seq g h) c := by
  obtain ⟨place, hp⟩ := hh
  exact ⟨c, by rw [Grammar.seq, run_attempt, run_pair, hg, Outcome.bind, hp]; rfl⟩

/-! ## Grammars that are apart -/

theorem Apart.symm (hgh : Apart g h) : Apart h g := fun c => (hgh c).symm

/-- What is made of a value does not bring grammars together. -/
theorem Apart.map_left (hgh : Apart g h) (f : α → α') : Apart (map f g) h :=
  fun c => (hgh c).imp_left fun hg => hg.map f

theorem Apart.map_right (hgh : Apart g h) (f : β → β') : Apart g (Grammar.map f h) :=
  (hgh.symm.map_left f).symm

theorem Apart.map (hgh : Apart g h) (f : α → α') (f' : β → β') :
    Apart (Grammar.map f g) (Grammar.map f' h) :=
  (hgh.map_left f).map_right f'

/-- Grammars that are apart stay so, whatever follows the first. -/
theorem Apart.seq_left (hgh : Apart g h) (k : Grammar γ) : Apart (seq g k) h :=
  fun c => (hgh c).imp_left fun hg => hg.seq k

theorem Apart.seq_right (hgh : Apart g h) (k : Grammar γ) : Apart g (Grammar.seq h k) :=
  (hgh.symm.seq_left k).symm

/-- Grammars that begin apart are apart. -/
theorem Apart.preceded (hgh : Apart g h) (k : Grammar α') (l : Grammar β') :
    Apart (preceded g k) (preceded h l) :=
  ((hgh.seq_left k).seq_right l).map Prod.snd Prod.snd

/-- The grammar reads no integers, so it matches or does not. -/
def Decides (g : Grammar α) : Prop := ∀ c, (∃ next a, g.run c = .matched next a) ∨ Mismatches g c

/-- Grammars that go on apart behind the same beginning are apart. -/
theorem Apart.behind {k : Grammar γ} (hgh : Apart g h) (hk : Decides k) :
    Apart (Grammar.seq k g) (Grammar.seq k h) := by
  intro c
  rcases hk c with ⟨mid, a, hm⟩ | hm
  · exact (hgh mid).imp (fun hg => hg.seq_right hm) fun hh => hh.seq_right hm
  · exact .inl (hm.seq g)

/-- Behind something that both begin with, the grammars themselves have to be apart. -/
theorem Apart.preceded_behind {k : Grammar γ} (hgh : Apart g h) (hk : Decides k) :
    Apart (Grammar.preceded k g) (Grammar.preceded k h) :=
  (hgh.behind hk).map Prod.snd Prod.snd

/-- Grammars that begin with different keywords are apart. -/
theorem Opens.apart (hg : Opens g ks) (hh : Opens h ls) (hd : ∀ k ∈ ks, k ∉ ls) : Apart g h := by
  intro c
  by_cases hword : firstWord c.rest ∈ ks.map String.toList
  · exact .inr (hh c.rest (not_mem_map_toList hword hd)).mismatches
  · exact .inl (hg c.rest hword).mismatches

/-- A grammar that opens with words none of the others open with is apart from all of them. -/
theorem Opens.apart_of_mem {gs : List (Grammar β)} {kss : List (List String)} (hg : Opens g ks)
    (hgs : List.Forall₂ Opens gs kss) (hd : ∀ ls ∈ kss, ∀ k ∈ ks, k ∉ ls) :
    ∀ k ∈ gs, Apart g k := by
  induction hgs with
  | nil => simp
  | cons hk _ ih =>
      rw [List.forall_mem_cons] at hd ⊢
      exact ⟨hg.apart hk hd.1, ih hd.2⟩

/-- Alternatives that all begin with different keywords are apart. -/
theorem pairwise_apart {gs : List (Grammar α)} {kss : List (List String)}
    (hgs : List.Forall₂ Opens gs kss) (hd : kss.Pairwise fun ks ls => ∀ k ∈ ks, k ∉ ls) :
    gs.Pairwise Apart := by
  induction hgs with
  | nil => exact List.Pairwise.nil
  | cons hg hgs ih =>
      rw [List.pairwise_cons] at hd ⊢
      exact ⟨hg.apart_of_mem hgs hd.1, ih hd.2⟩

/-! ## First characters -/

/-- The grammar matches only where a character that satisfies `p` comes next. -/
def HeadIn (g : Grammar α) (p : Char → Bool) : Prop := ∀ v, HeadNot p v → Rejects g v

/-- Grammars that begin with different characters are apart. -/
theorem HeadIn.apart (hg : HeadIn g p) (hh : HeadIn h q) (hpq : ∀ x, p x = true → q x = false) :
    Apart g h := by
  intro c
  by_cases hhead : HeadNot p c.rest
  · exact .inl (hg c.rest hhead).mismatches
  · refine .inr (hh c.rest fun x hx => ?_).mismatches
    by_contra hq
    refine hhead fun y hy => ?_
    obtain rfl : x = y := Option.some.inj (hx.symm.trans hy)
    by_contra hp
    exact hq (hpq x (Bool.of_not_eq_false hp))

/-- What begins with keywords begins with a small letter or an underscore, letter case apart. -/
theorem Opens.headIn (hg : Opens g ks) (hks : ∀ k ∈ ks, isKeyword k = true) :
    HeadIn g fun x => isSmall (asciiLower x) := by
  intro v hv
  refine hg v fun hm => ?_
  obtain ⟨k, hk, hkw⟩ := List.mem_map.1 hm
  obtain ⟨hne, hall⟩ := Bool.and_eq_true_iff.1 (hks k hk)
  cases v with
  | nil =>
      rw [hkw] at hne
      exact absurd hne (by decide)
  | cons x v =>
      have hx : isSmall (asciiLower x) = false := hv x rfl
      by_cases hword : isWord x = true
      · have hmem : asciiLower x ∈ k.toList := by
          rw [hkw, firstWord, List.takeWhile_cons_of_pos hword, List.map_cons]
          exact List.mem_cons_self
        rw [List.all_eq_true.1 hall _ hmem] at hx
        exact Bool.false_ne_true hx.symm
      · rw [hkw, firstWord, List.takeWhile_cons_of_neg hword] at hne
        exact absurd hne (by decide)

/-- Only a digit begins an integer. -/
theorem headIn_unsignedInteger : HeadIn unsignedInteger isDigit :=
  fun _ hv => rejects_unsignedInteger hv

/-- Only a quote begins a string. -/
theorem headIn_quotedString : HeadIn quotedString Quoted.isQuote :=
  fun _ hv => rejects_quotedString hv

/-! ## Choices between them -/

/-- Where a grammar reads a text, what is apart from it does not match. -/
theorem Reads.rejects_of_apart {u v : List Char} {a : α} (hg : Reads g u v a)
    (hhg : Apart h g) : Rejects h (u ++ v) :=
  fun c hc => (hhg c).resolve_right fun hmiss => hmiss.not_matched (hg c hc)

/-- Of alternatives of which any two are apart, a choice takes what each of them takes. -/
theorem Accepts.alternatives_of_pairwise {gs : List (Grammar α)} {L : Language Char} {P : α → Prop}
    {F E : List Char → Prop} (hg : Accepts g L P F E) (hgs : gs.Pairwise Apart) (hmem : g ∈ gs) :
    Accepts (Grammar.alternatives gs) L P F E := by
  obtain ⟨before, after, rfl⟩ := List.append_of_mem hmem
  have hapart : ∀ k ∈ before, Apart k g := fun k hk =>
    (List.pairwise_append.1 hgs).2.2 k hk g List.mem_cons_self
  intro u hu v hv
  obtain ⟨hF, a, ha, hread⟩ := hg u hu v hv
  exact ⟨hF, a, ha,
    hread.alternatives before after fun k hk => hread.rejects_of_apart (hapart k hk)⟩

/-! ## Grammars without integers -/

/-- Keywords hold no integer, so none of them is ever overlong. -/
theorem decides_keyword {k : String} (hk : isKeyword k = true) : Decides (keyword k) := by
  intro c
  rw [Mismatches, run_keyword hk]
  split
  · exact .inl ⟨_, _, rfl⟩
  · exact .inr ⟨c, rfl⟩

/-- Blanks are there or not, and nothing in them is too long. -/
theorem decides_whitespace1 : Decides whitespace1 := by
  intro c
  cases hb : nonempty? (c.rest.takeWhile isBlank) with
  | none => exact .inr ⟨c, by rw [whitespace1, run_map, run_refine, run, Outcome.bind, hb]; rfl⟩
  | some b =>
      exact .inl ⟨c.advance (c.rest.takeWhile isBlank).length, String.ofList b, by
        rw [whitespace1, run_map, run_refine, run, Outcome.bind, hb]; rfl⟩

theorem decides_whitespace0 : Decides whitespace0 := by
  intro c
  obtain ⟨next, w, hw, -⟩ := run_whitespace0 c
  exact .inl ⟨next, w, hw⟩

theorem decides_fail : Decides (fail : Grammar α) := fun c => .inr ⟨c, rfl⟩

theorem Decides.map (hg : Decides g) (f : α → β) : Decides (map f g) := by
  intro c
  rcases hg c with ⟨next, a, hm⟩ | hm
  · exact .inl ⟨next, f a, run_map_of_matched hm f⟩
  · exact .inr (hm.map f)

/-- A choice decides if both its sides do. -/
theorem Decides.orElse {k : Grammar α} (hg : Decides g) (hk : Decides k) :
    Decides (orElse g k) := by
  intro c
  rw [Mismatches, run_orElse]
  rcases hg c with ⟨next, a, hm⟩ | ⟨place, hp⟩
  · exact .inl ⟨next, a, by rw [hm]; rfl⟩
  · rcases hk c with ⟨next, a, hm⟩ | ⟨place', hp'⟩
    · exact .inl ⟨next, a, by rw [hp, Outcome.recover, hm]; rfl⟩
    · exact .inr ⟨c, by rw [hp, Outcome.recover, hp']; rfl⟩

/-- Two parts that decide decide one behind the other. -/
theorem Decides.seq (hg : Decides g) (hh : Decides h) : Decides (seq g h) := by
  intro c
  rcases hg c with ⟨mid, a, hm⟩ | hm
  · rcases hh mid with ⟨next, b, hn⟩ | hn
    · exact .inl ⟨next, (a, b), run_seq_eq_matched_iff.2 ⟨mid, hm, hn⟩⟩
    · exact .inr (hn.seq_right hm)
  · exact .inr (hm.seq h)

theorem decides_pure (a : α) : Decides (pure a) := fun c => .inl ⟨c, a, rfl⟩

/-- What is optional and decides always matches. -/
theorem Decides.optional (hg : Decides g) : Decides (optional g) :=
  (hg.map some).orElse (decides_pure none)

/-! ## The order of alternatives -/

/-- Two alternatives of which one does not match may change places. -/
theorem run_orElse_comm {k l : Grammar α} (hkl : Mismatches k c ∨ Mismatches l c)
    (rest : Grammar α) : (orElse k (orElse l rest)).run c = (orElse l (orElse k rest)).run c := by
  simp only [run_orElse]
  rcases hkl with ⟨place, hp⟩ | ⟨place, hp⟩ <;> rw [hp]
  · cases l.run c <;> cases rest.run c <;> rfl
  · cases k.run c <;> cases rest.run c <;> rfl

/-- **The order of alternatives**: where at most one alternative does not mismatch, all orders of
the alternatives come to the same. -/
theorem run_alternatives_of_perm {gs hs : List (Grammar α)} (hperm : gs.Perm hs)
    (hone : AtMostOne hs c) : (alternatives gs).run c = (alternatives hs).run c := by
  induction hperm with
  | nil => rfl
  | cons k _ ih =>
      have htail := ih (List.pairwise_cons.1 hone).2
      rw [alternatives, alternatives, run_orElse, run_orElse, htail]
  | swap k l rest =>
      have hkl := (List.pairwise_cons.1 hone).1 l List.mem_cons_self
      exact (run_orElse_comm hkl (alternatives rest)).symm
  | trans _ hperm ih ih' =>
      have hone' := (hperm.pairwise_iff fun h => h.symm).2 hone
      exact (ih hone').trans (ih' hone)

end TableDdl.Grammar
