import TableDdl.Proofs.Grammar.Opening
import TableDdl.Proofs.Script.Relaid

/-!
# Grammars do not see the layout

A grammar is steady if it reads two texts that differ in their layout alike (`Steady`): where it
matches one it matches the other, with values that are related and rests that differ in their
layout again.

Blanks at the end of a text make one exception.  There `whitespace1` may match one text and not the
other, so a grammar that ends in blanks may slip.  It does no harm as long as what follows is
rejected there anyway; `F` says of the text behind a match that this is so.  A grammar that does not
slip is steady with `Nowhere`.
-/

namespace TableDdl

open Grammar Script Text

/-- The text behind a match that does not slip. -/
def Grammar.Nowhere : List Char → Prop := fun _ => False

/-- Outcomes on two texts that differ in their layout. -/
inductive Outcome.Alike (E : Mode → List Char → List Char → Prop) (F : List Char → Prop) {α : Type}
    (R : α → α → Prop) : Outcome α → Outcome α → Prop where
  | matched {next next' : Cursor} {a b : α} (h : Relaid E .plain next.rest next'.rest)
      (hR : R a b) : Alike E F R (.matched next a) (.matched next' b)
  | mismatch {place place' : Cursor} : Alike E F R (.mismatch place) (.mismatch place')
  | overlong {digits : Nat} : Alike E F R (.overlong digits) (.overlong digits)
  | slipped {next : Cursor} {a : α} {place : Cursor} (h : F next.rest) :
      Alike E F R (.matched next a) (.mismatch place)
  | slippedBoth {next next' : Cursor} {a b : α} (h : F next.rest) (h' : F next'.rest) :
      Alike E F R (.matched next a) (.matched next' b)

namespace Outcome.Alike

variable {α β : Type} {E : Mode → List Char → List Char → Prop} {F G : List Char → Prop}
  {R : α → α → Prop} {Q : β → β → Prop} {x x' : Outcome α}

/-- Less may be said of both values and of what is left. -/
theorem mono {R' : α → α → Prop} (h : Alike E F R x x') (hF : ∀ v, F v → G v)
    (hR : ∀ a b, R a b → R' a b) : Alike E G R' x x' := by
  cases h with
  | matched h hr => exact .matched h (hR _ _ hr)
  | mismatch => exact .mismatch
  | overlong => exact .overlong
  | slipped h => exact .slipped (hF _ h)
  | slippedBoth h h' => exact .slippedBoth (hF _ h) (hF _ h')

/-- A function of the values has to respect what relates them. -/
theorem map (h : Alike E F R x x') {f f' : α → β} (hf : ∀ a b, R a b → Q (f a) (f' b)) :
    Alike E F Q (x.map f) (x'.map f') := by
  cases h with
  | matched h hr => exact .matched h (hf _ _ hr)
  | mismatch => exact .mismatch
  | overlong => exact .overlong
  | slipped h => exact .slipped h
  | slippedBoth h h' => exact .slippedBoth h h'

/-- What comes after matches is alike if it is alike after related matches and a mismatch where
the matches have slipped. -/
theorem bind {k k' : Cursor → α → Outcome β} (h : Alike E F R x x')
    (hk : ∀ next next' a b, Relaid E .plain next.rest next'.rest → R a b →
      Alike E G Q (k next a) (k' next' b))
    (hF : ∀ next a, F next.rest → ∃ place, k next a = .mismatch place)
    (hF' : ∀ next a, F next.rest → ∃ place, k' next a = .mismatch place) :
    Alike E G Q (x.bind k) (x'.bind k') := by
  cases h with
  | matched h hr => exact hk _ _ _ _ h hr
  | mismatch => exact .mismatch
  | overlong => exact .overlong
  | @slipped next a place h =>
      obtain ⟨p, hp⟩ := hF next a h
      rw [Outcome.bind, hp]
      exact .mismatch
  | @slippedBoth next next' a b h h' =>
      obtain ⟨p, hp⟩ := hF next a h
      obtain ⟨p', hp'⟩ := hF' next' b h'
      rw [Outcome.bind, Outcome.bind, hp, hp']
      exact .mismatch

theorem recover_mismatch (h : Alike E F R x x') (place place' : Cursor) :
    Alike E F R (x.recover fun _ => .mismatch place) (x'.recover fun _ => .mismatch place') := by
  cases h with
  | matched h hr => exact .matched h hr
  | mismatch => exact .mismatch
  | overlong => exact .overlong
  | slipped h => exact .slipped h
  | slippedBoth h h' => exact .slippedBoth h h'

/-- A second try on both sides, wherever the first one ended. -/
theorem recover {k k' : Cursor → Outcome α} (h : Alike E Nowhere R x x')
    (hk : ∀ place place', Alike E F R (k place) (k' place')) :
    Alike E F R (x.recover k) (x'.recover k') := by
  cases h with
  | matched h hr => exact .matched h hr
  | mismatch => exact hk _ _
  | overlong => exact .overlong
  | slipped h => exact h.elim
  | slippedBoth h _ => exact h.elim

/-- Where nothing slips, one text is matched just if the other is. -/
theorem exists_matched {next : Cursor} {a : α} (h : Alike E Nowhere R (.matched next a) x') :
    ∃ next' b, x' = .matched next' b ∧ Relaid E .plain next.rest next'.rest ∧ R a b := by
  cases h with
  | matched h hr => exact ⟨_, _, rfl, h, hr⟩
  | slipped h => exact h.elim
  | slippedBoth h _ => exact h.elim

/-- Where the second side matches, so does the first, with a value that is related to it. -/
theorem exists_matched_left {next' : Cursor} {b : α}
    (h : Alike E Nowhere R x (.matched next' b)) :
    ∃ next a, x = .matched next a ∧ Relaid E .plain next.rest next'.rest ∧ R a b := by
  cases h with
  | matched h hr => exact ⟨_, _, rfl, h, hr⟩
  | slippedBoth h _ => exact h.elim

end Outcome.Alike

namespace Grammar

/-- The grammar reads texts that differ in their layout alike. -/
def Steady (E : Mode → List Char → List Char → Prop) (F : List Char → Prop) {α : Type}
    (R : α → α → Prop) (g : Grammar α) : Prop :=
  ∀ c c' : Cursor, Relaid E .plain c.rest c'.rest → Outcome.Alike E F R (g.run c) (g.run c')

variable {α β : Type} {E : Mode → List Char → List Char → Prop} {F G : List Char → Prop}
  {R : α → α → Prop} {Q : β → β → Prop} {g : Grammar α} {h : Grammar β} {ks ls : List String}

/-! ## Combinations -/

/-- A value that depends on no text. -/
theorem steady_pure {a : α} (ha : R a a) : Steady E F R (pure a) :=
  fun _ _ hc => .matched hc ha

theorem steady_fail : Steady E F R (fail : Grammar α) := fun _ _ _ => .mismatch

/-- Fewer places where the two runs may part, and a weaker relation of the values. -/
theorem Steady.mono {R' : α → α → Prop} (hg : Steady E F R g) (hF : ∀ v, F v → G v)
    (hR : ∀ a b, R a b → R' a b) : Steady E G R' g :=
  fun c c' hc => (hg c c' hc).mono hF hR

theorem Steady.map (hg : Steady E F R g) (f : α → β) (hf : ∀ a b, R a b → Q (f a) (f b)) :
    Steady E F Q (map f g) :=
  fun c c' hc => (hg c c' hc).map hf

/-- A test of the value that related values pass alike. -/
theorem Steady.refine (hg : Steady E Nowhere R g) (f : α → Option β)
    (hf : ∀ a b, R a b → Option.Rel Q (f a) (f b)) : Steady E Nowhere Q (refine f g) := by
  intro c c' hc
  rw [run_refine, run_refine]
  refine (hg c c' hc).bind (fun next next' a b hn hr => ?_) (fun _ _ hF => hF.elim)
    fun _ _ hF => hF.elim
  have hrel := hf a b hr
  revert hrel
  generalize f a = y
  generalize f b = y'
  intro hrel
  cases hrel with
  | some hq => exact .matched hn hq
  | none => exact .mismatch

/-- What does not slip may be followed by anything. -/
theorem rejects_of_nowhere (h : Grammar β) : ∀ v, Nowhere v → Rejects h v :=
  fun _ hv => hv.elim

/-- Going back on a mismatch does not matter, since the places are not compared. -/
theorem Steady.attempt (hg : Steady E F R g) : Steady E F R (attempt g) :=
  fun c c' hc => (hg c c' hc).recover_mismatch c c'

/-- Where the first grammar slips, the second one must not match. -/
theorem Steady.pair_of_rejects (hg : Steady E F R g) (hh : Steady E G Q h)
    (hrej : ∀ v, F v → Rejects h v) :
    Steady E G (fun a b => R a.1 b.1 ∧ Q a.2 b.2) (pair g h) := by
  intro c c' hc
  have hslip {next : Cursor} (a : α) (hF : F next.rest) :
      ∃ place, ((h.run next).map fun w => (a, w)) = .mismatch place := by
    obtain ⟨place, hp⟩ := hrej _ hF next rfl
    exact ⟨place, by rw [hp, Outcome.map]⟩
  rw [run_pair, run_pair]
  exact (hg c c' hc).bind
    (fun next next' a b hn hr => (hh next next' hn).map fun _ _ hq => ⟨hr, hq⟩)
    (fun _ a hF => hslip a hF) fun _ a hF => hslip a hF

theorem Steady.map_snd_pair_of_rejects (hg : Steady E F R g) (hh : Steady E G Q h)
    (hrej : ∀ v, F v → Rejects h v) : Steady E G Q (Grammar.map Prod.snd (Grammar.pair g h)) :=
  (hg.pair_of_rejects hh hrej).map Prod.snd fun _ _ hr => hr.2

theorem Steady.seq_of_rejects (hg : Steady E F R g) (hh : Steady E G Q h)
    (hrej : ∀ v, F v → Rejects h v) :
    Steady E G (fun a b => R a.1 b.1 ∧ Q a.2 b.2) (seq g h) :=
  (hg.pair_of_rejects hh hrej).attempt

theorem Steady.preceded_of_rejects (hg : Steady E F R g) (hh : Steady E G Q h)
    (hrej : ∀ v, F v → Rejects h v) : Steady E G Q (preceded g h) :=
  (hg.seq_of_rejects hh hrej).map Prod.snd fun _ _ hr => hr.2

theorem Steady.pair (hg : Steady E Nowhere R g) (hh : Steady E G Q h) :
    Steady E G (fun a b => R a.1 b.1 ∧ Q a.2 b.2) (pair g h) :=
  hg.pair_of_rejects hh (rejects_of_nowhere h)

theorem Steady.map_snd_pair (hg : Steady E Nowhere R g) (hh : Steady E G Q h) :
    Steady E G Q (Grammar.map Prod.snd (Grammar.pair g h)) :=
  hg.map_snd_pair_of_rejects hh (rejects_of_nowhere h)

/-- A sequence goes on alike behind a part that never parts the two runs. -/
theorem Steady.seq (hg : Steady E Nowhere R g) (hh : Steady E G Q h) :
    Steady E G (fun a b => R a.1 b.1 ∧ Q a.2 b.2) (seq g h) :=
  hg.seq_of_rejects hh (rejects_of_nowhere h)

/-- The first part must not part the two runs, and its value does not count. -/
theorem Steady.preceded (hg : Steady E Nowhere R g) (hh : Steady E G Q h) :
    Steady E G Q (preceded g h) :=
  hg.preceded_of_rejects hh (rejects_of_nowhere h)

theorem Steady.followedBy (hg : Steady E Nowhere R g) (hh : Steady E G Q h) :
    Steady E G R (followedBy g h) :=
  (hg.seq hh).map Prod.fst fun _ _ hr => hr.1

/-! ## Following a match -/

/-- What matches the first text matches the second one, unless it slips. -/
theorem Steady.of_matched (hg : Steady E F R g) {c c' next : Cursor} {a : α}
    (hc : Relaid E .plain c.rest c'.rest) (hm : g.run c = .matched next a) :
    (∃ next' b, g.run c' = .matched next' b ∧ Relaid E .plain next.rest next'.rest ∧ R a b) ∨
      F next.rest := by
  have halike := hg c c' hc
  rw [hm] at halike
  cases hm' : g.run c' <;> rw [hm'] at halike <;> cases halike
  · next h hr => exact .inl ⟨_, _, rfl, h, hr⟩
  · next h _ => exact .inr h
  · next h => exact .inr h

/-- A match on one side is a match on the other, with texts left that are alike. -/
theorem Steady.of_matched_nowhere (hg : Steady E Nowhere R g) {c c' next : Cursor} {a : α}
    (hc : Relaid E .plain c.rest c'.rest) (hm : g.run c = .matched next a) :
    ∃ next' b, g.run c' = .matched next' b ∧ Relaid E .plain next.rest next'.rest ∧ R a b :=
  (hg.of_matched hc hm).resolve_right fun h => h.elim

/-- A mismatch on one side is a mismatch on the other. -/
theorem Steady.of_mismatch (hg : Steady E F R g) {c c' place : Cursor}
    (hc : Relaid E .plain c.rest c'.rest) (hm : g.run c = .mismatch place) :
    ∃ place', g.run c' = .mismatch place' := by
  have halike := hg c c' hc
  rw [hm] at halike
  cases hm' : g.run c' <;> rw [hm'] at halike <;> cases halike
  exact ⟨_, rfl⟩

/-! ## Choices -/

/-- The first side must not be torn by the end of a text, since the second would be tried on one
side only. -/
theorem Steady.orElse {k : Grammar α} (hg : Steady E Nowhere R g) (hk : Steady E F R k) :
    Steady E F R (orElse g k) := by
  intro c c' hc
  rw [run_orElse, run_orElse]
  exact (hg c c' hc).recover fun _ _ => (hk c c' hc).recover_mismatch c c'

/-- The same alternative is taken in both texts. -/
theorem steady_alternatives {gs : List (Grammar α)} (hgs : ∀ k ∈ gs, Steady E Nowhere R k) :
    Steady E Nowhere R (alternatives gs) := by
  induction gs with
  | nil => exact steady_fail
  | cons k gs ih =>
      exact (hgs k List.mem_cons_self).orElse (ih fun j hj => hgs j (List.mem_cons_of_mem k hj))

/-- What is optional is there in both texts or in neither. -/
theorem Steady.optional_rel (hg : Steady E Nowhere R g) :
    Steady E Nowhere (Option.Rel R) (optional g) :=
  (hg.map some fun _ _ hr => Option.Rel.some hr).orElse (steady_pure Option.Rel.none)

theorem Steady.optional (hg : Steady E Nowhere Eq g) : Steady E Nowhere Eq (optional g) :=
  (hg.map some fun _ _ hr => congrArg some hr).orElse (steady_pure rfl)

/-- An option that slips is left out of the second text, which then goes on with the keyword of the
option. -/
theorem Steady.optional_of_opens (hE : Ending E) (hg : Steady E F R g) (hopen : Opens g ks) :
    Steady E (fun v => F v ∨ firstWord v ∈ ks.map String.toList) (Option.Rel R)
      (Grammar.optional g) := by
  intro c c' hc
  have hword : firstWord c.rest = firstWord c'.rest := by
    rw [firstWord, firstWord, (hc.span hE fun x hx => ⟨not_isBlank_of_isWord hx,
      Quoted.not_isQuote_of_isWord hx, by rintro rfl; exact absurd hx (by decide)⟩).1]
  rw [Grammar.optional, run_orElse, run_orElse, run_map, run_map]
  cases hm : g.run c with
  | matched next a =>
      have hmem := hopen.firstWord_mem hm
      have halike := hg c c' hc
      rw [hm] at halike
      cases hm' : g.run c' <;> rw [hm'] at halike <;> cases halike
      · next h hr => exact .matched h (.some hr)
      · next h h' => exact .slippedBoth (.inl h) (.inl h')
      · next h => exact .slippedBoth (.inl h) (.inr (hword ▸ hmem))
  | mismatch place =>
      have halike := hg c c' hc
      rw [hm] at halike
      cases hm' : g.run c' <;> rw [hm'] at halike <;> cases halike
      exact .matched hc .none
  | overlong digits =>
      have halike := hg c c' hc
      rw [hm] at halike
      cases hm' : g.run c' <;> rw [hm'] at halike <;> cases halike
      exact .overlong

/-- An optional part in front of another, by what that part does. -/
theorem run_optional_pair (g : Grammar α) (h : Grammar β) (c : Cursor) :
    (Grammar.pair (Grammar.optional g) h).run c =
      match g.run c with
      | .matched next a => (h.run next).map fun w => (some a, w)
      | .mismatch _ => (h.run c).map fun w => (none, w)
      | .overlong digits => .overlong digits := by
  rw [run_pair, Grammar.optional, run_orElse, run_map]
  cases g.run c <;> rfl

/-- An option and what follows it.  Where the option is there, what follows it does not match in
front of it; so if the option slips, neither text has what follows. -/
theorem Steady.optional_pair (hg : Steady E F R g) (hh : Steady E G Q h)
    (hrej : ∀ v, F v → Rejects h v)
    (hfront : ∀ {c next : Cursor} {a : α}, g.run c = .matched next a → Rejects h c.rest) :
    Steady E G (fun a b => Q a.2 b.2) (Grammar.pair (Grammar.optional g) h) := by
  have hslip {next : Cursor} (a : α) (hF : F next.rest) :
      ∃ place, ((h.run next).map fun w => (some a, w)) = .mismatch place := by
    obtain ⟨place, hp⟩ := hrej _ hF next rfl
    exact ⟨place, by rw [hp, Outcome.map]⟩
  intro c c' hc
  have halike := hg c c' hc
  rw [run_optional_pair, run_optional_pair]
  cases hm : g.run c <;> cases hm' : g.run c' <;> rw [hm, hm'] at halike <;> cases halike <;>
    dsimp only
  · next hn hr => exact (hh _ _ hn).map fun _ _ hq => hq
  · next a _ b hF hF' =>
    obtain ⟨place, hp⟩ := hslip a hF
    obtain ⟨place', hp'⟩ := hslip b hF'
    rw [hp, hp']
    exact .mismatch
  · next a _ hF =>
    -- the second text has the option too, but reads on in front of it
    obtain ⟨place, hp⟩ := hslip a hF
    obtain ⟨front, hrest⟩ := hfront hm c rfl
    obtain ⟨front', hrest'⟩ := hh.of_mismatch hc hrest
    rw [hp, hrest', Outcome.map]
    exact .mismatch
  · exact (hh c c' hc).map fun _ _ hq => hq
  · exact .overlong

/-- What begins with other keywords is rejected where an option has slipped. -/
theorem Opens.rejects_of_slip (hh : Opens h ls) (hempty : "" ∉ ls) (hd : ∀ k ∈ ks, k ∉ ls) :
    ∀ v, Stops v ∨ firstWord v ∈ ks.map String.toList → Rejects h v := by
  rintro v (hv | hv)
  · refine hh v ?_
    rw [hv.firstWord]
    exact nil_not_mem_map_toList hempty
  · exact hh v (not_mem_map_toList hv hd)

/-- No keyword begins where a text stops. -/
theorem Opens.rejects_of_stops (hh : Opens h ls) (hempty : "" ∉ ls) :
    ∀ v, Stops v → Rejects h v := by
  intro v hv
  have hnone : ∀ k ∈ ([] : List String), k ∉ ls := by simp
  exact hh.rejects_of_slip hempty hnone v (.inl hv)

/-! ## Repetitions -/

/-- Both sides take as many rounds, by induction on what is left. -/
theorem Steady.many (hg : Steady E Nowhere R g) (hmoves : Moves g) :
    Steady E Nowhere (List.Forall₂ R) (many g) := by
  intro c c' hc
  induction hn : c.rest.length using Nat.strong_induction_on generalizing c c' with
  | _ n ih =>
  subst hn
  rw [run_many_eq, run_many_eq]
  have halike := hg c c' hc
  cases hm : g.run c with
  | matched next a =>
      rw [hm] at halike
      cases hm' : g.run c' <;> rw [hm'] at halike <;> cases halike
      · next next' b h hr =>
        have hpos := hmoves c next a hm
        have hpos' := hmoves c' next' b hm'
        obtain ⟨w, hw⟩ := took_of_run hm
        have hlen := hw.length_rest
        have hwlen : w.length ≠ 0 := fun h0 =>
          absurd (hw.pos_eq_iff.2 (List.length_eq_zero_iff.1 h0)) (by omega)
        dsimp only
        rw [if_neg (by omega), if_neg (by omega)]
        have hrest := ih _ (by omega) next next' h rfl
        cases hk : (Grammar.many g).run next <;> cases hk' : (Grammar.many g).run next' <;>
          rw [hk, hk'] at hrest <;> cases hrest
        · next h hrs => exact .matched h (.cons hr hrs)
        · next h h' => exact h.elim
        · next h => exact h.elim
        · exact .mismatch
        · exact .overlong
      · next h h' => exact h.elim
      · next h => exact h.elim
  | mismatch place =>
      rw [hm] at halike
      cases hm' : g.run c' <;> rw [hm'] at halike <;> cases halike
      exact .matched hc .nil
  | overlong digits =>
      rw [hm] at halike
      cases hm' : g.run c' <;> rw [hm'] at halike <;> cases halike
      exact .overlong

/-- The repetition takes as many rounds in both texts, with values that are related. -/
theorem Steady.many1_rel (hg : Steady E Nowhere R g) (hmoves : Moves g) :
    Steady E Nowhere (List.Forall₂ R) (many1 g) := by
  refine (hg.many hmoves).refine nonempty? fun as bs hr => ?_
  cases hr with
  | nil => exact .none
  | cons h hs => exact .some (.cons h hs)

theorem Steady.many1 (hg : Steady E Nowhere Eq g) (hmoves : Moves g) :
    Steady E Nowhere Eq (many1 g) := by
  refine (hg.many1_rel hmoves).mono (fun _ hv => hv) fun as bs hr => ?_
  rwa [List.forall₂_eq_eq_eq] at hr

/-! ## Tokens -/

/-- The blanks in front of where the texts part are not compared. -/
theorem steady_whitespace0 (hE : Ending E) : Steady E Nowhere (fun _ _ => True) whitespace0 := by
  intro c c' hc
  have htrim := hc.trimStart hE
  rw [trimStart, trimStart, ← rest_advance_takeWhile, ← rest_advance_takeWhile] at htrim
  exact .matched htrim trivial

/-- Blanks at the end of the first text may be missing in the second one. -/
theorem steady_whitespace1 (hE : Ending E) : Steady E Stops (fun _ _ => True) whitespace1 := by
  intro c c' hc
  obtain ⟨hright, hleft⟩ := hc.headNot_isBlank_iff hE
  by_cases hb : HeadNot isBlank c.rest
  · obtain ⟨place, hp⟩ := rejects_whitespace1 hb c rfl
    obtain ⟨place', hp'⟩ := rejects_whitespace1 (hright hb) c' rfl
    rw [hp, hp']
    exact .mismatch
  · obtain ⟨next, w, hw, hnext⟩ := run_whitespace1 hb
    by_cases hb' : HeadNot isBlank c'.rest
    · obtain ⟨place', hp'⟩ := rejects_whitespace1 hb' c' rfl
      rw [hw, hp']
      exact .slipped (hnext ▸ (hleft hb').resolve_left hb)
    · obtain ⟨next', w', hw', hnext'⟩ := run_whitespace1 hb'
      rw [hw, hw']
      refine .matched ?_ trivial
      rw [hnext, hnext']
      exact hc.trimStart hE

/-- Words are the same in texts that are alike, since no word character is a blank. -/
theorem span_isWord (hE : Ending E) {t t' : List Char} (h : Relaid E .plain t t') :
    t.takeWhile isWord = t'.takeWhile isWord ∧
      Relaid E .plain (t.dropWhile isWord) (t'.dropWhile isWord) :=
  h.span hE fun c hc => ⟨not_isBlank_of_isWord hc, Quoted.not_isQuote_of_isWord hc, by
    rintro rfl
    exact absurd hc (by decide)⟩

/-- A keyword ends before the texts part, or it is none in both. -/
theorem steady_keyword (hE : Ending E) {k : String} (hk : isKeyword k = true) :
    Steady E Nowhere Eq (keyword k) := by
  intro c c' hc
  obtain ⟨htake, hdrop⟩ := span_isWord hE hc
  have hword : firstWord c.rest = firstWord c'.rest := by rw [firstWord, firstWord, htake]
  rw [run_keyword hk, run_keyword hk, ← hword]
  by_cases hfirst : firstWord c.rest = k.toList
  · have hlen : k.toList.length = (c.rest.takeWhile isWord).length := by
      rw [← hfirst, firstWord, List.length_map]
    rw [if_pos hfirst, if_pos hfirst]
    refine .matched ?_ (by rw [htake])
    rw [hlen, rest_advance_takeWhile, htake, rest_advance_takeWhile]
    exact hdrop
  · rw [if_neg hfirst, if_neg hfirst]
    exact .mismatch

theorem steady_keywordParts (hE : Ending E) {ks : List String}
    (hks : ∀ k ∈ ks, isKeyword k = true) : Steady E Nowhere Eq (keywordParts ks) := by
  induction ks with
  | nil => exact steady_pure rfl
  | cons k ks ih =>
      have hk := steady_keyword hE (hks k List.mem_cons_self)
      cases ks with
      | nil => exact hk.map _ fun _ _ hr => by rw [hr]
      | cons l ls =>
          have hl := hks l (by simp)
          have hempty : "" ∉ [l] := by
            rw [List.mem_singleton]
            rintro rfl
            exact absurd hl (by decide)
          have hrest := ih fun j hj => hks j (List.mem_cons_of_mem k hj)
          have htail := (steady_whitespace1 hE).preceded_of_rejects hrest
            ((opens_keywordParts hl ls).rejects_of_stops hempty)
          exact (hk.seq htail).map _ fun a b hr => by rw [hr.1, hr.2]

/-- Keywords in a row, with blanks between them that are not compared. -/
theorem steady_keywords (hE : Ending E) {ks : List String} (hks : ∀ k ∈ ks, isKeyword k = true) :
    Steady E Nowhere Eq (keywords ks) :=
  (steady_keywordParts hE hks).map _ fun _ _ hr => congrArg _ hr

/-- A single mark that is no blank, no quote and no semicolon is the same on both sides. -/
theorem steady_exactly (hE : Ending E) {s : String} {x : Char} (hs : s.toList = [x])
    (hx : (isBlank x || Quoted.isQuote x || x == ';') = false) :
    Steady E Nowhere Eq (exactly s) := by
  simp only [Bool.or_eq_false_iff, beq_eq_false_iff_ne] at hx
  obtain ⟨⟨hblank, hquote⟩, hsemi⟩ := hx
  intro c c' hc
  have hiff := hc.mark hE.stops hblank hsemi
  have hread {e : Cursor} {u : List Char} (he : e.rest = x :: u) :
      (exactly s).run e = .matched (e.advance 1) s ∧ (e.advance 1).rest = u := by
    have hrest : e.rest = s.toList ++ u := by rw [hs, he, List.singleton_append]
    have hrun := reads_exactly (v := u) (s := s) (by rw [hs]; simp) e hrest
    rw [hs] at hrun
    exact ⟨hrun, by rw [Cursor.rest_advance, he]; rfl⟩
  by_cases hhead : c.rest.head? = some x
  · obtain ⟨u, hu⟩ := List.head?_eq_some_iff.1 hhead
    obtain ⟨u', hu'⟩ := List.head?_eq_some_iff.1 (hiff.1 hhead)
    obtain ⟨hrun, hrest⟩ := hread hu
    obtain ⟨hrun', hrest'⟩ := hread hu'
    rw [hrun, hrun']
    refine .matched ?_ rfl
    rw [hrest, hrest']
    rw [hu, hu'] at hc
    exact hc.of_mark hE.stops hblank hquote hsemi
  · obtain ⟨place, hp⟩ := rejects_exactly_singleton hs hhead c rfl
    obtain ⟨place', hp'⟩ := rejects_exactly_singleton hs (fun h => hhead (hiff.2 h)) c' rfl
    rw [hp, hp']
    exact .mismatch

theorem steady_word (hE : Ending E) :
    Steady E Nowhere Eq (Grammar.refine nonempty? (span isWord)) := by
  refine Steady.refine (R := Eq) (fun c c' hc => ?_) nonempty? fun a b hr => ?_
  · obtain ⟨htake, hdrop⟩ := span_isWord hE hc
    rw [← rest_advance_takeWhile, ← rest_advance_takeWhile] at hdrop
    exact .matched hdrop htake
  · subst hr
    cases nonempty? a with
    | none => exact .none
    | some => exact .some rfl

/-- No name runs across the place where the texts part. -/
theorem steady_identifier (hE : Ending E) : Steady E Nowhere Eq identifier := by
  have htick : Steady E Nowhere Eq (exactly "`") := steady_exactly hE (x := '`') rfl (by decide)
  have hname := htick.optional.seq ((steady_word hE).seq htick.optional)
  exact hname.map _ fun a b hr => by rw [hr.2.1]

/-- No number runs across it either. -/
theorem steady_unsignedInteger (hE : Ending E) : Steady E Nowhere Eq unsignedInteger := by
  intro c c' hc
  obtain ⟨htake, hdrop⟩ := hc.span hE (p := isDigit) fun x hx => by
    have hword := isWord_of_isDigit hx
    exact ⟨not_isBlank_of_isWord hword, Quoted.not_isQuote_of_isWord hword, by
      rintro rfl
      exact absurd hx (by decide)⟩
  rw [← rest_advance_takeWhile, ← rest_advance_takeWhile] at hdrop
  rw [unsignedInteger, run, run, runNumber, runNumber, ← htake]
  rw [← htake] at hdrop
  by_cases hzero : (c.rest.takeWhile isDigit).length = 0
  · simp only [hzero, if_true]
    exact .mismatch
  · by_cases hlong : maxDigits < (c.rest.takeWhile isDigit).length
    · simp only [hzero, hlong, if_true, if_false]
      exact .overlong
    · simp only [hzero, hlong, if_false]
      exact .matched hdrop rfl

/-- What is looked for must tell neither blanks nor the semicolon from the end of the text. -/
theorem steady_ahead (hE : Ending E) {p : Option Char → Bool}
    (hblank : ∀ c, isBlank c = true → p (some c) = p none) (hsemi : p (some ';') = p none) :
    Steady E Nowhere Eq (ahead p) := by
  intro c c' hc
  have hend {v : List Char} (hv : Stops (trimStart v)) : p v.head? = p none := by
    cases v with
    | nil => rfl
    | cons x v =>
        by_cases hx : isBlank x = true
        · exact hblank x hx
        · rw [trimStart_eq_self (headNot_cons.2 (Bool.of_not_eq_true hx))] at hv
          obtain rfl := hv x rfl
          exact hsemi
  have hhead : p c.rest.head? = p c'.rest.head? := by
    rcases hc.plain_cases with h | ⟨x, u, u', hu, hu', -⟩ | ⟨y, y', u, u', hu, hu', hy, hy'⟩
    · rw [hend (hE.stops _ _ h).1, hend (hE.stops _ _ h).2]
    · rw [hu, hu']
      rfl
    · rw [hu, hu']
      exact (hblank y hy).trans (hblank y' hy').symm
  rw [run, run, ← hhead]
  split
  · exact .matched hc rfl
  · exact .mismatch

/-- Strings need texts that are alike to the end: only where the texts end outside of strings do
both have the same strings. -/
theorem steady_quotedString (hE : Ending E) (hwhole : ∀ m r r', E m r r' → m = .plain) :
    Steady E Nowhere Eq quotedString := by
  refine Steady.map (R := Eq) (fun c c' hc => ?_) String.ofList fun _ _ hr => by rw [hr]
  have hnone (h : Quoted.decode c.rest = none) : Quoted.decode c'.rest = none := by
    rw [Option.eq_none_iff_forall_not_mem]
    rintro ⟨content, n⟩ hd
    obtain ⟨q, body, rest, hq, htext, hs, -⟩ := Quoted.decode_eq_some_iff.1 hd
    have hflip := hc.symm
    rw [htext] at hflip
    obtain ⟨rest', htext', -⟩ := hflip.of_string (fun r r' h => (hE.stops r' r h).symm)
      (fun m r r' h => hwhole m r' r h) hq hs
    have hsome := Quoted.decode_eq_some_iff.2 ⟨q, body, rest', hq, htext', hs, rfl⟩
    rw [h] at hsome
    simp at hsome
  rw [run, run]
  cases hd : Quoted.decode c.rest with
  | none =>
      rw [hnone hd]
      exact .mismatch
  | some found =>
      obtain ⟨content, n⟩ := found
      obtain ⟨q, body, rest, hq, htext, hs, hn⟩ := Quoted.decode_eq_some_iff.1 hd
      rw [htext] at hc
      obtain ⟨rest', htext', hrest⟩ := hc.of_string hE.stops hwhole hq hs
      rw [Quoted.decode_eq_some_iff.2 ⟨q, body, rest', hq, htext', hs, hn⟩]
      have hadvance {e : Cursor} {r : List Char} (he : e.rest = q :: body ++ q :: r) :
          (e.advance n).rest = r := by
        have happ : e.rest = (q :: body ++ [q]) ++ r := by simpa using he
        have hlen : n = (q :: body ++ [q]).length := by simp [hn]
        rw [hlen]
        exact Cursor.rest_advance_of_append happ
      refine .matched ?_ rfl
      rw [hadvance htext, hadvance htext']
      exact hrest

/-! ## Where a grammar stops -/

/-- What stops a text begins no name. -/
theorem rejects_identifier_of_stops : ∀ v, Stops v → Rejects identifier v := fun v hv =>
  rejects_identifier (hv.headNot (by decide)) fun h => absurd (hv '`' h) (by decide)

theorem rejects_unsignedInteger_of_stops : ∀ v, Stops v → Rejects unsignedInteger v := fun _ hv =>
  rejects_unsignedInteger (hv.headNot (by decide))

theorem rejects_quotedString_of_stops : ∀ v, Stops v → Rejects quotedString v := fun _ hv =>
  rejects_quotedString (hv.headNot (by decide))

end Grammar

end TableDdl
