import TableDdl.Proofs.Grammar.Values

/-!
# Grammars do not see letter case

A grammar is blind to letter case (`CaseBlind`) if it reads two texts that are the same up to letter
case alike, wherever it starts: it matches both or neither, what it takes or reports ends at the
same place, and the values are the same after `fold`, which makes the letters in a value small.

What a grammar looks at must not tell letter cases apart, and what it makes of a value must commute
with folding.  Behind that each way to put grammars together has its lemma.
-/

namespace TableDdl

open Grammar Text

/-- Cursors at the same place of texts that are the same up to letter case. -/
structure Cursor.SameLetters (c c' : Cursor) : Prop where
  pos : c.pos = c'.pos
  text : Text.SameLetters c.text c'.text

/-- Outcomes on texts that are the same up to letter case. -/
inductive Outcome.SameLetters {α : Type} (fold : α → α) : Outcome α → Outcome α → Prop where
  | matched {next next' : Cursor} {a a' : α} (hc : next.SameLetters next') (ha : fold a = fold a') :
      SameLetters fold (.matched next a) (.matched next' a')
  | mismatch {place place' : Cursor} (hc : place.SameLetters place') :
      SameLetters fold (.mismatch place) (.mismatch place')
  | overlong {digits : Nat} : SameLetters fold (.overlong digits) (.overlong digits)

namespace Cursor.SameLetters

variable {c c' : Cursor}

theorem advance (h : c.SameLetters c') (n : Nat) : (c.advance n).SameLetters (c'.advance n) where
  pos := congrArg (· + n) h.pos
  text := h.text

theorem rest (h : c.SameLetters c') : Text.SameLetters c.rest c'.rest := by
  rw [c.rest_eq, c'.rest_eq, ← h.pos]
  exact h.text.drop c.pos

/-- Both cursors stand in front of a text that has no letters, or neither does. -/
theorem startsWith (h : c.SameLetters c') {s : List Char}
    (hs : ∀ x ∈ s, isSmall (asciiLower x) = false) : c.startsWith s = c'.startsWith s := by
  rw [Cursor.startsWith, Cursor.startsWith, isPrefixOf_congr hs h.rest.letters, isWithin, isWithin,
    h.pos, h.text.length_eq]

end Cursor.SameLetters

namespace Outcome.SameLetters

variable {α β : Type} {fold : α → α} {fold' : β → β} {x x' : Outcome α}

/-- A coarser comparison of the values. -/
theorem mono {fold₂ : α → α} (h : SameLetters fold x x')
    (hf : ∀ a a', fold a = fold a' → fold₂ a = fold₂ a') : SameLetters fold₂ x x' := by
  cases h with
  | matched hc ha => exact .matched hc (hf _ _ ha)
  | mismatch hc => exact .mismatch hc
  | overlong => exact .overlong

theorem map (h : SameLetters fold x x') {f : α → β} (hf : ∀ a, fold' (f a) = f (fold a)) :
    SameLetters fold' (x.map f) (x'.map f) := by
  cases h with
  | matched hc ha => exact .matched hc (by rw [hf, hf, ha])
  | mismatch hc => exact .mismatch hc
  | overlong => exact .overlong

/-- Two runs that go on from places with the same letters, with values that compare. -/
theorem bind (h : SameLetters fold x x') {k k' : Cursor → α → Outcome β}
    (hk : ∀ next next' a a', next.SameLetters next' → fold a = fold a' →
      SameLetters fold' (k next a) (k' next' a')) :
    SameLetters fold' (x.bind k) (x'.bind k') := by
  cases h with
  | matched hc ha => exact hk _ _ _ _ hc ha
  | mismatch hc => exact .mismatch hc
  | overlong => exact .overlong

/-- Two runs that go on wherever they mismatch. -/
theorem recover (h : SameLetters fold x x') {k k' : Cursor → Outcome α}
    (hk : ∀ place place', SameLetters fold (k place) (k' place')) :
    SameLetters fold (x.recover k) (x'.recover k') := by
  cases h with
  | matched hc ha => exact .matched hc ha
  | mismatch hc => exact hk _ _
  | overlong => exact .overlong

/-- A test of the value is passed by both or by neither. -/
theorem ofOption {c c' next next' : Cursor} (hc : c.SameLetters c') (hnext : next.SameLetters next')
    {found found' : Option α} (h : found.map fold = found'.map fold) :
    SameLetters fold (.ofOption c next found) (.ofOption c' next' found') := by
  cases found with
  | none =>
      cases found' with
      | none => exact .mismatch hc
      | some a' => simp at h
  | some a =>
      cases found' with
      | none => simp at h
      | some a' => exact .matched hnext (by simpa using h)

end Outcome.SameLetters

namespace Grammar

/-- The grammar reads texts that are the same up to letter case alike. -/
def CaseBlind {α : Type} (fold : α → α) (g : Grammar α) : Prop :=
  ∀ c c' : Cursor, c.SameLetters c' → Outcome.SameLetters fold (g.run c) (g.run c')

variable {α β : Type} {fold : α → α} {fold' : β → β} {g : Grammar α} {h : Grammar β}

/-! ## Values -/

/-- A value that depends on no text. -/
theorem caseBlind_pure (value : α) : CaseBlind fold (pure value) := fun _ _ hc => .matched hc rfl

theorem caseBlind_fail : CaseBlind fold (fail : Grammar α) := fun _ _ hc => .mismatch hc

/-- Values that agree up to case agree under any coarser way to fold them. -/
theorem CaseBlind.mono {fold₂ : α → α} (hg : CaseBlind fold g)
    (hf : ∀ a a', fold a = fold a' → fold₂ a = fold₂ a') : CaseBlind fold₂ g :=
  fun c c' hc => (hg c c' hc).mono hf

/-- Equal values are the same after any folding. -/
theorem CaseBlind.of_id (hg : CaseBlind id g) : CaseBlind fold g :=
  hg.mono fun _ _ ha => congrArg fold ha

/-- A function of the value has to respect the comparison. -/
theorem CaseBlind.map (hg : CaseBlind fold g) {f : α → β} (hf : ∀ a, fold' (f a) = f (fold a)) :
    CaseBlind fold' (map f g) :=
  fun c c' hc => (hg c c' hc).map hf

/-- A test of values that does not see case either accepts both values or none. -/
theorem CaseBlind.refine (hg : CaseBlind fold g) {f : α → Option β}
    (hf : ∀ a, (f a).map fold' = f (fold a)) : CaseBlind fold' (refine f g) := by
  intro c c' hc
  rw [run_refine, run_refine]
  exact (hg c c' hc).bind fun next next' a a' hn ha =>
    .ofOption hc hn (by rw [hf, hf, ha])

/-! ## One behind the other -/

/-- The values of both parts are compared. -/
theorem CaseBlind.pair (hg : CaseBlind fold g) (hh : CaseBlind fold' h) :
    CaseBlind (Prod.map fold fold') (pair g h) := by
  intro c c' hc
  rw [run_pair, run_pair]
  refine (hg c c' hc).bind fun next next' a a' hn ha => ?_
  have hrest := hh next next' hn
  generalize h.run next = y at hrest
  generalize h.run next' = y' at hrest
  cases hrest with
  | matched hc hb => exact .matched hc (Prod.ext ha hb)
  | mismatch hc => exact .mismatch hc
  | overlong => exact .overlong

theorem CaseBlind.attempt (hg : CaseBlind fold g) : CaseBlind fold (attempt g) :=
  fun c c' hc => (hg c c' hc).recover fun _ _ => .mismatch hc

theorem CaseBlind.seq (hg : CaseBlind fold g) (hh : CaseBlind fold' h) :
    CaseBlind (Prod.map fold fold') (seq g h) :=
  (hg.pair hh).attempt

/-- The value in front is dropped, so how it is folded does not matter. -/
theorem CaseBlind.preceded (hg : CaseBlind fold g) (hh : CaseBlind fold' h) :
    CaseBlind fold' (preceded g h) :=
  (hg.seq hh).map fun _ => rfl

/-- Only the first value is compared, and both parts have to be blind. -/
theorem CaseBlind.followedBy (hg : CaseBlind fold g) (hh : CaseBlind fold' h) :
    CaseBlind fold (followedBy g h) :=
  (hg.seq hh).map fun _ => rfl

/-! ## Choices -/

/-- The two texts take the same side of a choice. -/
theorem CaseBlind.orElse {k : Grammar α} (hg : CaseBlind fold g) (hk : CaseBlind fold k) :
    CaseBlind fold (orElse g k) :=
  fun c c' hc => (hg c c' hc).recover fun _ _ => (hk c c' hc).recover fun _ _ => .mismatch hc

theorem caseBlind_alternatives {gs : List (Grammar α)} (hgs : ∀ k ∈ gs, CaseBlind fold k) :
    CaseBlind fold (alternatives gs) := by
  induction gs with
  | nil => exact caseBlind_fail
  | cons k gs ih =>
      exact (hgs k List.mem_cons_self).orElse (ih fun j hj => hgs j (List.mem_cons_of_mem k hj))

theorem CaseBlind.optional (hg : CaseBlind fold g) :
    CaseBlind (Option.map fold) (optional g) :=
  (hg.map (f := some) fun _ => rfl).orElse (caseBlind_pure none)

/-! ## Repetitions -/

/-- Rounds that differ in case only end after as many rounds on both sides. -/
theorem sameLetters_repeatRun {run : Cursor → Outcome α}
    (hrun : ∀ c c' : Cursor, c.SameLetters c' → Outcome.SameLetters fold (run c) (run c'))
    (fuel : Nat) {c c' : Cursor} (hc : c.SameLetters c') :
    Outcome.SameLetters (List.map fold) (repeatRun run fuel c) (repeatRun run fuel c') := by
  induction fuel generalizing c c' with
  | zero => exact .matched hc rfl
  | succ fuel ih =>
      have hround := hrun c c' hc
      rw [repeatRun, repeatRun]
      generalize run c = x at hround
      generalize run c' = x' at hround
      cases hround with
      | mismatch _ => exact .matched hc rfl
      | overlong => exact .overlong
      | @matched next next' a a' hn ha =>
          dsimp only
          rw [← hc.pos, ← hn.pos]
          split
          · exact .matched hc rfl
          · have hrest := ih hn
            generalize repeatRun run fuel next = y at hrest
            generalize repeatRun run fuel next' = y' at hrest
            cases hrest with
            | matched hc has => exact .matched hc (congrArg₂ List.cons ha has)
            | mismatch hc => exact .mismatch hc
            | overlong => exact .overlong

/-- A repetition takes as many rounds in both texts. -/
theorem CaseBlind.many (hg : CaseBlind fold g) : CaseBlind (List.map fold) (many g) := by
  intro c c' hc
  rw [run_many, run_many, hc.rest.length_eq]
  exact sameLetters_repeatRun hg _ hc

/-- Whether a list has members does not depend on their letters. -/
theorem map_nonempty? (f : α → α) (as : List α) :
    (nonempty? as).map (List.map f) = nonempty? (as.map f) := by
  cases as with
  | nil => rfl
  | cons a as => rfl

theorem CaseBlind.many1 (hg : CaseBlind fold g) : CaseBlind (List.map fold) (many1 g) :=
  hg.many.refine (map_nonempty? fold)

/-! ## Characters -/

/-- What is looked at may be a letter, as long as both of its cases pass the same test. -/
theorem caseBlind_ahead {p : Option Char → Bool}
    (hp : ∀ c c', asciiLower c = asciiLower c' → p (some c) = p (some c')) :
    CaseBlind id (ahead p) := by
  intro c c' hc
  have hhead : p c.rest.head? = p c'.rest.head? := by
    have hrest := hc.rest
    cases hr : c.rest with
    | nil =>
        rw [hr] at hrest
        have hnil : c'.rest = [] := by simpa using hrest.length_eq.symm
        rw [hnil]
    | cons x u =>
        rw [hr] at hrest
        obtain ⟨x', u', hr', hx, -⟩ := hrest.exists_cons
        rw [hr']
        exact hp x x' hx
  rw [run, run, hhead]
  split
  · exact .matched hc rfl
  · exact .mismatch hc

/-- A run ends at the same place if the test does not tell the letter cases apart. -/
theorem caseBlind_span {p : Char → Bool}
    (hp : ∀ c c', asciiLower c = asciiLower c' → p c = p c') :
    CaseBlind (List.map asciiLower) (span p) := by
  intro c c' hc
  have htaken := map_takeWhile_congr hp (fun _ _ h _ => h) hc.rest.letters
  have hlen : (c.rest.takeWhile p).length = (c'.rest.takeWhile p).length := by
    simpa using congrArg List.length htaken
  rw [run, run, hlen]
  exact .matched (hc.advance _) htaken

/-- A literal without letters is the same in both texts. -/
theorem caseBlind_literal {s : List Char} (hs : ∀ x ∈ s, isSmall (asciiLower x) = false) :
    CaseBlind id (literal s) := by
  intro c c' hc
  rw [run, run, hc.startsWith hs]
  split
  · exact .matched (hc.advance _) rfl
  · exact .mismatch hc

/-- The prefixes of texts with the same letters have the same letters. -/
theorem caselessPrefix_congr (s : List Char) {t t' : List Char}
    (h : t.map asciiLower = t'.map asciiLower) :
    (caselessPrefix s t).map (List.map asciiLower) =
      (caselessPrefix s t').map (List.map asciiLower) := by
  induction s generalizing t t' with
  | nil => simp [caselessPrefix]
  | cons k s ih =>
      cases t with
      | nil =>
          obtain rfl : t' = [] := by simpa using h.symm
          rfl
      | cons c t =>
          cases t' with
          | nil => simp at h
          | cons c' t' =>
              obtain ⟨hc, ht⟩ := List.cons.inj h
              have hascii : c.toNat < 0x80 ↔ c'.toNat < 0x80 := by
                have := eq_of_forall_small (f := fun c => decide (c.toNat < 0x80)) (b := true)
                  (fun x hx => decide_eq_true (isWord_of_isSmall_asciiLower hx).2) hc
                simpa using this
              have hrest := ih ht
              simp only [caselessPrefix, hascii, hc]
              split
              · rw [Option.map_map, Option.map_map]
                have hcons (x : Char) : List.map asciiLower ∘ (x :: ·) =
                    (asciiLower x :: ·) ∘ List.map asciiLower := rfl
                rw [hcons, hcons, ← Option.map_map, ← Option.map_map, hrest, hc]
              · rfl

/-- What is compared without regard to case is found in both texts or in neither. -/
theorem caseBlind_caseless (s : List Char) : CaseBlind (List.map asciiLower) (caseless s) := by
  intro c c' hc
  rw [run, run]
  exact .ofOption hc (hc.advance _) (caselessPrefix_congr s hc.rest.letters)

/-- Digits have no case, so the integers are the same ones. -/
theorem caseBlind_number : CaseBlind id number := by
  intro c c' hc
  have hdigits : c.rest.takeWhile isDigit = c'.rest.takeWhile isDigit := by
    have htaken := map_takeWhile_congr (f := id) (fun _ _ => isDigit_congr)
      (fun _ _ => eq_of_isDigit) hc.rest.letters
    rwa [List.map_id, List.map_id] at htaken
  rw [run, run, runNumber, runNumber, hdigits]
  split
  · exact .mismatch hc
  · split
    · exact .overlong
    · exact .matched (hc.advance _) rfl

/-- The contents differ in case only, and both strings are equally long. -/
theorem caseBlind_quoted : CaseBlind (List.map asciiLower) quoted := by
  intro c c' hc
  have hd := Quoted.decode_congr hc.rest
  rw [run, run]
  cases h : Quoted.decode c.rest <;> cases h' : Quoted.decode c'.rest <;> rw [h, h'] at hd
  · exact .mismatch hc
  · simp at hd
  · simp at hd
  · next found found' =>
    obtain ⟨content, count⟩ := found
    obtain ⟨content', count'⟩ := found'
    obtain ⟨hcontent, hcount⟩ :
        content.map asciiLower = content'.map asciiLower ∧ count = count' := by simpa using hd
    subst hcount
    exact .matched (hc.advance count) hcontent

/-! ## Tokens -/

/-- A mark that is no letter. -/
theorem caseBlind_exactly {s : String} {x : Char} (hs : s.toList = [x])
    (hx : isSmall (asciiLower x) = false) : CaseBlind id (exactly s) := by
  have hmark : ∀ y ∈ s.toList, isSmall (asciiLower y) = false := by
    rw [hs]
    simpa using hx
  exact (caseBlind_literal hmark).map fun _ => rfl

theorem caseBlind_whitespace0 : CaseBlind foldCase whitespace0 :=
  (caseBlind_span fun _ _ => isBlank_congr).map foldCase_ofList

/-- A run of a class, at least one character long. -/
theorem caseBlind_run {p : Char → Bool}
    (hp : ∀ c c', asciiLower c = asciiLower c' → p c = p c') :
    CaseBlind (List.map asciiLower) (Grammar.refine nonempty? (span p)) :=
  (caseBlind_span hp).refine (map_nonempty? asciiLower)

theorem caseBlind_whitespace1 : CaseBlind foldCase whitespace1 :=
  (caseBlind_run fun _ _ => isBlank_congr).map foldCase_ofList

theorem caseBlind_wordEnd : CaseBlind id wordEnd :=
  caseBlind_ahead fun c c' h => by simp [isWord_congr h]

theorem caseBlind_caselessWord (lowered : List Char) :
    CaseBlind (List.map asciiLower) (caselessWord lowered) := by
  rw [caselessWord]
  split
  · exact (caseBlind_caseless lowered).followedBy caseBlind_wordEnd
  · exact caseBlind_caseless lowered

/-- A keyword is found in any letter case, with nothing but what ends a word behind it. -/
theorem caseBlind_keyword (text : String) : CaseBlind foldCase (keyword text) :=
  (caseBlind_caselessWord _).map foldCase_ofList

theorem caseBlind_keywordParts (texts : List String) :
    CaseBlind (List.map foldCase) (keywordParts texts) := by
  induction texts with
  | nil => exact caseBlind_pure []
  | cons text texts ih =>
      cases texts with
      | nil => exact (caseBlind_keyword text).map fun _ => rfl
      | cons next texts =>
          exact ((caseBlind_keyword text).seq (caseBlind_whitespace1.preceded ih)).map fun _ => rfl

/-- In capitals, words with small letters are the words themselves. -/
theorem capitals_map_foldCase (words : List String) :
    capitals (words.map foldCase) = capitals words := by
  refine capitals_congr ?_
  rw [List.map_map]
  refine List.map_congr_left fun w _ => ?_
  simp [foldCase, asciiLower_asciiLower]

/-- Keywords are found in capitals, whatever their case. -/
theorem caseBlind_keywords (texts : List String) : CaseBlind id (keywords texts) :=
  (caseBlind_keywordParts texts).map fun words => (capitals_map_foldCase words).symm

/-- Digits have no case, so the number is the same, and so is one too long. -/
theorem caseBlind_unsignedInteger : CaseBlind id unsignedInteger := caseBlind_number

/-- A name is as long in both texts, and keeps the letters of its own. -/
theorem caseBlind_identifier : CaseBlind foldCase identifier := by
  have htick : CaseBlind (Option.map id) (optional (exactly "`")) :=
    (caseBlind_exactly (x := '`') rfl (by decide)).optional
  have hword := caseBlind_run fun _ _ => isWord_congr
  exact (htick.seq (hword.seq htick)).map fun _ => foldCase_ofList _

theorem caseBlind_quotedString : CaseBlind foldCase quotedString :=
  caseBlind_quoted.map foldCase_ofList

end Grammar

end TableDdl
