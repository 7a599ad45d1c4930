import TableDdl.Proofs.Script.Pieces

/-!
# Texts that differ in their layout

`Relaid E m t t'` says that the texts `t` and `t'`, which both stand in mode `m`, have the same
characters, except that outside of strings blanks may stand for other blanks, as long as there are
some on both sides.  How the two texts end is left to `E`: there they may differ in what no grammar
looks at.  A relation that may stand there is an `Ending`.

The layout of a text cannot be seen in its words, marks and strings: where one text goes on with
one of these, so does the other, and behind it the texts are still alike.
-/

namespace TableDdl.Script

open Text Mode

/-- The texts differ only in the blanks between their lexemes, up to where they end as in `E`. -/
inductive Relaid (E : Mode → List Char → List Char → Prop) :
    Mode → List Char → List Char → Prop where
  | ended {m : Mode} {t t' : List Char} (h : E m t t') : Relaid E m t t'
  | char {m : Mode} {t t' : List Char} (c : Char) (h : Relaid E (m.stepString c) t t') :
      Relaid E m (c :: t) (c :: t')
  | blanks {b b' t t' : List Char} (hne : b ≠ []) (hb : ∀ c ∈ b, isBlank c = true)
      (hne' : b' ≠ []) (hb' : ∀ c ∈ b', isBlank c = true) (h : Relaid E .plain t t') :
      Relaid E .plain (b ++ t) (b' ++ t')

/-- Nothing comes next that a grammar reads: the text is at its end, or a semicolon comes. -/
def Stops (v : List Char) : Prop := ∀ c ∈ v.head?, c = ';'

theorem Stops.headNot {v : List Char} (hv : Stops v) {p : Char → Bool} (hp : p ';' = false) :
    HeadNot p v := by
  intro c hc
  rw [hv c hc, hp]

theorem Stops.firstWord {v : List Char} (hv : Stops v) : firstWord v = [] :=
  firstWord_eq_nil (hv.headNot (by decide))

/-- Where two texts end in this way, no grammar goes on, blanks apart. -/
def StopsAt (E : Mode → List Char → List Char → Prop) : Prop :=
  ∀ r r' : List Char, E .plain r r' → Stops (trimStart r) ∧ Stops (trimStart r')

/-- Where two texts end in this way, no grammar goes on, blanks apart; and the second text has
blanks there only if the first one has. -/
structure Ending (E : Mode → List Char → List Char → Prop) : Prop where
  stops : StopsAt E
  trimStart : ∀ {r r' : List Char}, E .plain r r' → E .plain (trimStart r) (trimStart r')
  blank : ∀ {r r' : List Char}, E .plain r r' → HeadNot isBlank r → HeadNot isBlank r'

namespace Relaid

variable {E : Mode → List Char → List Char → Prop} {m : Mode} {t t' : List Char}

/-- More endings may be allowed. -/
theorem mono {E' : Mode → List Char → List Char → Prop} (h : Relaid E m t t')
    (hE : ∀ m r r', E m r r' → E' m r r') : Relaid E' m t t' := by
  induction h with
  | ended h => exact .ended (hE _ _ _ h)
  | char c _ ih => exact .char c ih
  | blanks hne hb hne' hb' _ ih => exact .blanks hne hb hne' hb' ih

/-- Read from the other side, the endings are exchanged too. -/
theorem symm (h : Relaid E m t t') : Relaid (fun m r r' => E m r' r) m t' t := by
  induction h with
  | ended h => exact .ended h
  | char c _ ih => exact .char c ih
  | blanks hne hb hne' hb' _ ih => exact .blanks hne' hb' hne hb ih

/-- Texts with the same beginning differ in what comes behind it. -/
theorem append (u : List Char) (h : Relaid E (m.scanString u) t t') :
    Relaid E m (u ++ t) (u ++ t') := by
  induction u generalizing m with
  | nil => exact h
  | cons c u ih => exact .char c (ih h)

/-! ## Outside of strings -/

/-- The ways in which two texts outside of strings go on. -/
theorem plain_cases (h : Relaid E .plain t t') :
    E .plain t t' ∨
      (∃ c u u', t = c :: u ∧ t' = c :: u' ∧ Relaid E (plain.stepString c) u u') ∨
      ∃ x x' u u', t = x :: u ∧ t' = x' :: u' ∧ isBlank x = true ∧ isBlank x' = true := by
  cases h with
  | ended h => exact .inl h
  | char c h => exact .inr (.inl ⟨c, _, _, rfl, rfl, h⟩)
  | @blanks b b' u u' hne hb hne' hb' h =>
      obtain ⟨x, b, rfl⟩ := List.exists_cons_of_ne_nil hne
      obtain ⟨x', b', rfl⟩ := List.exists_cons_of_ne_nil hne'
      exact .inr (.inr ⟨x, x', b ++ u, b' ++ u', rfl, rfl, hb x List.mem_cons_self,
        hb' x' List.mem_cons_self⟩)

theorem trimStart (hE : Ending E) (h : Relaid E .plain t t') :
    Relaid E .plain (trimStart t) (trimStart t') := by
  generalize hm : plain = m at h
  induction h with
  | ended h =>
      subst hm
      exact .ended (hE.trimStart h)
  | @char m u u' c h ih =>
      subst hm
      by_cases hc : isBlank c = true
      · have hstep := stepString_plain (Quoted.not_isQuote_of_isBlank hc)
        have htrim (v : List Char) : Text.trimStart (c :: v) = Text.trimStart v :=
          List.dropWhile_cons_of_pos hc
        have htail := ih hstep.symm
        rwa [htrim, htrim, ← hstep]
      · have htrim (v : List Char) : Text.trimStart (c :: v) = c :: v :=
          List.dropWhile_cons_of_neg hc
        rw [htrim, htrim]
        exact .char c h
  | blanks hne hb hne' hb' h ih =>
      rw [trimStart_append hb, trimStart_append hb']
      exact ih rfl

/-- Both texts begin with a blank, or neither does; but the blanks of the first text may be at its
end. -/
theorem headNot_isBlank_iff (hE : Ending E) (h : Relaid E .plain t t') :
    (HeadNot isBlank t → HeadNot isBlank t') ∧
      (HeadNot isBlank t' → HeadNot isBlank t ∨ Stops (Text.trimStart t)) := by
  rcases h.plain_cases with h | ⟨c, u, u', rfl, rfl, -⟩ | ⟨x, x', u, u', rfl, rfl, hx, hx'⟩
  · exact ⟨hE.blank h, fun _ => .inr (hE.stops _ _ h).1⟩
  · exact ⟨fun h => by simpa using h, fun h => .inl (by simpa using h)⟩
  · simp [hx, hx']

/-- A text whose head begins no lexeme has nothing of a run in front. -/
theorem headNot_of_stops_trimStart {p : Char → Bool} {v : List Char}
    (hp : ∀ c, p c = true → isBlank c = false ∧ c ≠ ';') (hv : Stops (Text.trimStart v)) :
    HeadNot p v := by
  intro c hc
  by_contra hpc
  obtain ⟨hblank, hsemi⟩ := hp c (Bool.of_not_eq_false hpc)
  have htrim : Text.trimStart v = v := trimStart_eq_self fun d hd => by
    obtain rfl : c = d := Option.some.inj (hc.symm.trans hd)
    exact hblank
  rw [htrim] at hv
  exact hsemi (hv c hc)

/-- Runs of words or digits are the same in both texts. -/
theorem span (hE : Ending E) {p : Char → Bool}
    (hp : ∀ c, p c = true → isBlank c = false ∧ Quoted.isQuote c = false ∧ c ≠ ';')
    (h : Relaid E .plain t t') :
    t.takeWhile p = t'.takeWhile p ∧ Relaid E .plain (t.dropWhile p) (t'.dropWhile p) := by
  generalize hm : plain = m at h
  have hnone {v w : List Char} (hv : HeadNot p v) (hw : HeadNot p w) (h : Relaid E .plain v w) :
      v.takeWhile p = w.takeWhile p ∧ Relaid E .plain (v.dropWhile p) (w.dropWhile p) := by
    have htake {x : List Char} (hx : HeadNot p x) : x.takeWhile p = [] :=
      takeWhile_append_of_headNot (u := []) (by simp) hx
    have hdrop {x : List Char} (hx : HeadNot p x) : x.dropWhile p = x :=
      dropWhile_append_of_headNot (u := []) (by simp) hx
    rw [htake hv, htake hw, hdrop hv, hdrop hw]
    exact ⟨rfl, h⟩
  induction h with
  | ended h =>
      subst hm
      have hstop (c : Char) (hc : p c = true) := And.intro (hp c hc).1 (hp c hc).2.2
      obtain ⟨hs, hs'⟩ := hE.stops _ _ h
      exact hnone (headNot_of_stops_trimStart hstop hs) (headNot_of_stops_trimStart hstop hs')
        (.ended h)
  | @char m u u' c h ih =>
      subst hm
      by_cases hc : p c = true
      · have hstep := stepString_plain (hp c hc).2.1
        obtain ⟨htake, hdrop⟩ := ih hstep.symm
        rw [hstep] at hdrop
        simp only [List.takeWhile_cons, List.dropWhile_cons, hc, if_true, htake]
        exact ⟨trivial, hdrop⟩
      · exact hnone (by simpa using hc) (by simpa using hc) (.char c h)
  | @blanks b b' u u' hne hb hne' hb' h ih =>
      have hhead {x v : List Char} (hx : x ≠ []) (hxb : ∀ c ∈ x, isBlank c = true) :
          HeadNot p (x ++ v) := by
        obtain ⟨c, x, rfl⟩ := List.exists_cons_of_ne_nil hx
        rw [headNot_append hx, headNot_cons]
        by_contra hpc
        have := (hp c (Bool.of_not_eq_false hpc)).1
        rw [hxb c List.mem_cons_self] at this
        exact Bool.false_ne_true this.symm
      exact hnone (hhead hne hb) (hhead hne' hb') (.blanks hne hb hne' hb' h)

/-- A mark comes next in both texts or in neither. -/
theorem mark (hE : StopsAt E) {x : Char} (hx : isBlank x = false) (hsemi : x ≠ ';')
    (h : Relaid E .plain t t') : t.head? = some x ↔ t'.head? = some x := by
  have hnot {v : List Char} (hv : Stops (Text.trimStart v)) : v.head? ≠ some x := by
    have hp (c : Char) (hc : (c == x) = true) : isBlank c = false ∧ c ≠ ';' := by
      rw [beq_iff_eq] at hc
      exact hc ▸ ⟨hx, hsemi⟩
    intro hv'
    have := headNot_of_stops_trimStart hp hv x hv'
    simp at this
  rcases h.plain_cases with h | ⟨c, u, u', rfl, rfl, -⟩ | ⟨y, y', u, u', rfl, rfl, hy, hy'⟩
  · obtain ⟨hs, hs'⟩ := hE _ _ h
    exact ⟨fun h => absurd h (hnot hs), fun h => absurd h (hnot hs')⟩
  · simp
  · have hne {z : Char} (hz : isBlank z = true) : z ≠ x := by
      rintro rfl
      rw [hx] at hz
      exact Bool.false_ne_true hz
    simp [hne hy, hne hy']

/-- Behind the same mark the texts are alike. -/
theorem of_mark (hE : StopsAt E) {x : Char} {u u' : List Char} (hx : isBlank x = false)
    (hquote : Quoted.isQuote x = false) (hsemi : x ≠ ';')
    (h : Relaid E .plain (x :: u) (x :: u')) : Relaid E .plain u u' := by
  rcases h.plain_cases with h | ⟨c, v, v', hv, hv', h⟩ | ⟨y, y', v, v', hv, -, hy, -⟩
  · have hs := (hE _ _ h).1
    rw [trimStart_eq_self (headNot_cons.2 hx)] at hs
    exact absurd (hs x rfl) hsemi
  · obtain ⟨rfl, rfl⟩ := List.cons.inj hv
    obtain ⟨-, rfl⟩ := List.cons.inj hv'
    rwa [stepString_plain hquote] at h
  · obtain ⟨rfl, -⟩ := List.cons.inj hv
    rw [hx] at hy
    exact absurd hy Bool.false_ne_true

/-! ## Inside of strings -/

/-- Inside of strings the texts are the same, character by character. -/
theorem of_ne_plain (hwhole : ∀ m r r', E m r r' → m = .plain) (hm : m ≠ .plain) {c : Char}
    {u : List Char} (h : Relaid E m (c :: u) t') :
    ∃ u', t' = c :: u' ∧ Relaid E (m.stepString c) u u' := by
  generalize ht : c :: u = t at h
  cases h with
  | ended h => exact absurd (hwhole _ _ _ h) hm
  | char c' h =>
      obtain ⟨rfl, rfl⟩ := List.cons.inj ht
      exact ⟨_, rfl, h⟩
  | blanks => exact absurd rfl hm

/-- A string is the same on both sides, since blanks inside of it count. -/
theorem of_spells (hwhole : ∀ m r r', E m r r' → m = .plain) {q : Char}
    (hq : Quoted.isQuote q = true) {content body rest : List Char}
    (hs : Quoted.Spells content body) (h : Relaid E (.quoted q) (body ++ q :: rest) t') :
    ∃ rest', t' = body ++ q :: rest' ∧ Relaid E .plain rest rest' := by
  have hstep {c : Char} {u v : List Char} (h : Relaid E (.quoted q) (c :: u) v) :=
    of_ne_plain hwhole (by simp) h
  induction hs generalizing t' with
  | nil =>
      obtain ⟨rest', rfl, hrest⟩ := hstep h
      refine ⟨rest', rfl, ?_⟩
      simpa [stepString, step] using hrest
  | @plain c content body hc hs ih =>
      have hcq : c ≠ q := Quoted.ne_of_isPlain hq hc
      have hcb : c ≠ '\\' := by
        rintro rfl
        exact absurd hc (by decide)
      have hmode : (quoted q).stepString c = quoted q := by simp [stepString, step, hcq, hcb]
      obtain ⟨u', rfl, hu⟩ := hstep h
      rw [hmode] at hu
      obtain ⟨rest', rfl, hrest⟩ := ih hu
      exact ⟨rest', rfl, hrest⟩
  | @escape e c content body he hs ih =>
      have hslash := Quoted.backslash_ne_of_isQuote hq
      have htick : q ≠ '`' := by
        rintro rfl
        exact absurd hq (by decide)
      have hmode : (quoted q).stepString '\\' = escaped q := by
        simp [stepString, step, hslash, htick]
      obtain ⟨u', rfl, hu⟩ := hstep h
      rw [hmode] at hu
      obtain ⟨v', rfl, hv⟩ := of_ne_plain hwhole (by simp) hu
      obtain ⟨rest', rfl, hrest⟩ := ih hv
      exact ⟨rest', rfl, hrest⟩

/-- A string in one text is the same string in the other. -/
theorem of_string (hE : StopsAt E) (hwhole : ∀ m r r', E m r r' → m = .plain) {q : Char}
    (hq : Quoted.isQuote q = true) {content body rest : List Char}
    (hs : Quoted.Spells content body) (h : Relaid E .plain (q :: body ++ q :: rest) t') :
    ∃ rest', t' = q :: body ++ q :: rest' ∧ Relaid E .plain rest rest' := by
  have hblank : isBlank q = false := by
    by_contra hb
    rw [Quoted.not_isQuote_of_isBlank (Bool.of_not_eq_false hb)] at hq
    exact Bool.false_ne_true hq
  have hsemi : q ≠ ';' := by
    rintro rfl
    exact absurd hq (by decide)
  obtain ⟨u', rfl⟩ : ∃ u', t' = q :: u' := by
    have hhead := (h.mark hE hblank hsemi).1 rfl
    cases t' with
    | nil => simp at hhead
    | cons c u' => exact ⟨u', by rw [Option.some.inj hhead]⟩
  rcases h.plain_cases with h | ⟨c, v, v', hv, hv', h⟩ | ⟨y, y', v, v', hv, -, hy, -⟩
  · have hstop := (hE _ _ h).1
    rw [List.cons_append, trimStart_eq_self (headNot_cons.2 hblank)] at hstop
    exact absurd (hstop q rfl) hsemi
  · obtain ⟨rfl, rfl⟩ := List.cons.inj hv
    obtain ⟨-, rfl⟩ := List.cons.inj hv'
    have hmode : plain.stepString q = quoted q := by simp [stepString, hq]
    rw [hmode] at h
    obtain ⟨rest', rfl, hrest⟩ := of_spells hwhole hq hs h
    exact ⟨rest', rfl, hrest⟩
  · obtain ⟨rfl, -⟩ := List.cons.inj hv
    rw [hblank] at hy
    exact absurd hy Bool.false_ne_true

end Relaid

/-! ## Texts that end together -/

/-- Both texts are at their end. -/
def Exactly : Mode → List Char → List Char → Prop := fun _ r r' => r = [] ∧ r' = []

theorem ending_exactly : Ending Exactly where
  stops := fun _ _ ⟨hr, hr'⟩ => by
    subst hr hr'
    exact ⟨fun c hc => absurd hc (by simp [trimStart]), fun c hc => absurd hc (by simp [trimStart])⟩
  trimStart := fun ⟨hr, hr'⟩ => by
    subst hr hr'
    exact ⟨rfl, rfl⟩
  blank := fun ⟨_, hr'⟩ _ => by
    subst hr'
    exact headNot_nil _

/-- A text that stays as it is. -/
theorem relaid_refl (m : Mode) (text : List Char) : Relaid Exactly m text text := by
  have h := Relaid.append (E := Exactly) (m := m) text (.ended ⟨rfl, rfl⟩)
  rwa [List.append_nil] at h

theorem scanString_plain_of_isBlank {b : List Char} (hb : ∀ c ∈ b, isBlank c = true) :
    plain.scanString b = .plain :=
  scanString_plain fun c hc => Quoted.not_isQuote_of_isBlank (hb c hc)

namespace Relaid

variable {E : Mode → List Char → List Char → Prop} {m M : Mode} {t t' x x' u v : List Char}

/-- Up to where two texts end, they end together. -/
theorem split (h : Relaid E m t t') :
    ∃ x x' r r', t = x ++ r ∧ t' = x' ++ r' ∧ Relaid Exactly m x x' ∧ E (m.scanString x) r r' := by
  induction h with
  | @ended m r r' h => exact ⟨[], [], r, r', rfl, rfl, .ended ⟨rfl, rfl⟩, h⟩
  | char c _ ih =>
      obtain ⟨x, x', r, r', rfl, rfl, hx, hr⟩ := ih
      exact ⟨c :: x, c :: x', r, r', rfl, rfl, .char c hx, hr⟩
  | @blanks b b' t t' hne hb hne' hb' _ ih =>
      obtain ⟨x, x', r, r', rfl, rfl, hx, hr⟩ := ih
      refine ⟨b ++ x, b' ++ x', r, r', by simp, by simp, .blanks hne hb hne' hb' hx, ?_⟩
      rwa [scanString_append, scanString_plain_of_isBlank hb]

theorem exactly_symm (h : Relaid Exactly m x x') : Relaid Exactly m x' x :=
  h.symm.mono fun _ _ _ hr => hr.symm

/-- The blanks that are laid out anew stand outside of strings, so both texts lead to one mode. -/
theorem scanString_eq (h : Relaid Exactly m x x') : m.scanString x = m.scanString x' := by
  induction h with
  | ended h => rw [h.1, h.2]
  | char c _ ih => exact ih
  | blanks hne hb hne' hb' _ ih =>
      rw [scanString_append, scanString_append, scanString_plain_of_isBlank hb,
        scanString_plain_of_isBlank hb', ih]

/-- The cut into pieces comes to the same mode. -/
theorem scan_eq (h : Relaid Exactly m x x') (hM : M.HasQuote) : M.scan x = M.scan x' := by
  induction h generalizing M with
  | ended h => rw [h.1, h.2]
  | char c _ ih => exact ih (hM.step c)
  | blanks hne hb hne' hb' _ ih =>
      rw [scan_append, scan_append, scan_of_isBlank hM hne hb, scan_of_isBlank hM hne' hb',
        ih hM.afterBlank]

theorem isBlank_of_isBlank (h : Relaid Exactly m x x') (hx : ∀ c ∈ x, isBlank c = true) :
    ∀ c ∈ x', isBlank c = true := by
  induction h with
  | ended h =>
      rw [h.2]
      simp
  | char c _ ih =>
      rw [List.forall_mem_cons] at hx ⊢
      exact ⟨hx.1, ih hx.2⟩
  | blanks hne hb hne' hb' _ ih =>
      rw [List.forall_mem_append] at hx ⊢
      exact ⟨hb', ih hx.2⟩

/-- To a semicolon in one text there is one in the other. -/
theorem of_semicolon (h : Relaid Exactly m x x') (hx : x = u ++ ';' :: v) :
    ∃ u' v', x' = u' ++ ';' :: v' ∧ Relaid Exactly m u u' ∧
      Relaid Exactly ((m.scanString u).stepString ';') v v' := by
  induction h generalizing u with
  | ended h =>
      rw [h.1] at hx
      simp at hx
  | @char m t t' c h ih =>
      cases u with
      | nil =>
          obtain ⟨rfl, rfl⟩ := List.cons.inj hx
          exact ⟨[], t', rfl, .ended ⟨rfl, rfl⟩, h⟩
      | cons d u =>
          obtain ⟨rfl, ht⟩ := List.cons.inj hx
          obtain ⟨u', v', rfl, hu, hv⟩ := ih ht
          exact ⟨c :: u', v', rfl, .char c hu, hv⟩
  | @blanks b b' t t' hne hb hne' hb' h ih =>
      obtain ⟨w, rfl, ht⟩ : ∃ w, u = b ++ w ∧ t = w ++ ';' :: v := by
        rcases List.append_eq_append_iff.1 hx with ⟨w, hu, ht⟩ | ⟨w, hbw, hw⟩
        · exact ⟨w, hu, ht⟩
        · cases w with
          | nil => exact ⟨[], by simpa using hbw.symm, hw.symm⟩
          | cons d w =>
              obtain rfl := (List.cons.inj hw).1
              exact absurd (by rw [hbw]; simp) (not_mem_of_isBlank hb)
      obtain ⟨u', v', rfl, hu, hv⟩ := ih ht
      refine ⟨b' ++ u', v', by simp, .blanks hne hb hne' hb' hu, ?_⟩
      rwa [scanString_append, scanString_plain_of_isBlank hb]

/-- Blanks cut nothing, so neither text is cut where the other is not. -/
theorem uncut (h : Relaid Exactly m x x') (hM : M.HasQuote) (hx : Uncut M x) : Uncut M x' := by
  intro u' v' hx'
  obtain ⟨u, v, rfl, hu, -⟩ := h.exactly_symm.of_semicolon hx'
  rw [hu.scan_eq hM]
  exact hx u v rfl

end Relaid

end TableDdl.Script
