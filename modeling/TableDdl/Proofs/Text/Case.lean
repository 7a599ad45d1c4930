import TableDdl.Proofs.Text.Quoted
import TableDdl.Proofs.Text.Words

/-!
# Letter case

Two characters are the same up to letter case if their small forms are (`asciiLower`).  Such
characters are equal unless they are letters (`eq_of_asciiLower_eq`), so every class of characters
that has all letters or none holds both or neither.

Two texts are the same up to letter case (`SameLetters`) if they are so character by character,
with one exception: behind a backslash a letter tells which character is meant, so there the texts
agree exactly.
-/

namespace TableDdl.Text

variable {c c' : Char}

/-! ## Characters -/

/-- The capital letters are the characters of 26 codes in a row. -/
theorem exists_ofNat_of_isUpper (h : 'A' ≤ c ∧ c ≤ 'Z') : ∃ n < 26, c = Char.ofNat (65 + n) := by
  have h1 : 65 ≤ c.toNat := UInt32.le_iff_toNat_le.1 h.1
  have h2 : c.toNat ≤ 90 := UInt32.le_iff_toNat_le.1 h.2
  refine ⟨c.toNat - 65, by omega, ?_⟩
  have hsum : 65 + (c.toNat - 65) = c.toNat := by omega
  rw [hsum, Char.ofNat_toNat]

theorem asciiLower_of_not_isUpper (h : ¬('A' ≤ c ∧ c ≤ 'Z')) : asciiLower c = c := by
  rw [asciiLower, if_neg h]

/-- The capital of a small form is that of the character itself. -/
theorem asciiUpper_asciiLower (c : Char) : asciiUpper (asciiLower c) = asciiUpper c := by
  have hall : ∀ n < 26, asciiUpper (asciiLower (Char.ofNat (65 + n))) =
      asciiUpper (Char.ofNat (65 + n)) := by decide
  by_cases h : 'A' ≤ c ∧ c ≤ 'Z'
  · obtain ⟨n, hn, rfl⟩ := exists_ofNat_of_isUpper h
    exact hall n hn
  · rw [asciiLower_of_not_isUpper h]

/-- The small form of a small form is the same. -/
theorem asciiLower_asciiLower (c : Char) : asciiLower (asciiLower c) = asciiLower c := by
  have hall : ∀ n < 26, asciiLower (asciiLower (Char.ofNat (65 + n))) =
      asciiLower (Char.ofNat (65 + n)) := by decide
  by_cases h : 'A' ≤ c ∧ c ≤ 'Z'
  · obtain ⟨n, hn, rfl⟩ := exists_ofNat_of_isUpper h
    exact hall n hn
  · rw [asciiLower_of_not_isUpper h, asciiLower_of_not_isUpper h]

/-- What is no small letter when it is lowered was no letter, so it stays. -/
theorem asciiLower_eq_self_of_not_small (h : isSmall (asciiLower c) = false) :
    asciiLower c = c := by
  have hall : ∀ n < 26, isSmall (asciiLower (Char.ofNat (65 + n))) = true := by decide
  by_cases hu : 'A' ≤ c ∧ c ≤ 'Z'
  · obtain ⟨n, hn, rfl⟩ := exists_ofNat_of_isUpper hu
    rw [hall n hn] at h
    exact absurd h (by decide)
  · exact asciiLower_of_not_isUpper hu

/-- Characters that are the same up to letter case are equal, unless they are letters. -/
theorem eq_of_asciiLower_eq (h : asciiLower c = asciiLower c')
    (hc : isSmall (asciiLower c) = false) : c = c' := by
  have hc' : isSmall (asciiLower c') = false := h ▸ hc
  rw [← asciiLower_eq_self_of_not_small hc, h, asciiLower_eq_self_of_not_small hc']

/-- A class of characters that has all the letters holds both of two characters that are the same up
to letter case, or neither. -/
theorem eq_of_forall_small {β : Type} {f : Char → β} {b : β}
    (hf : ∀ c, isSmall (asciiLower c) = true → f c = b) (h : asciiLower c = asciiLower c') :
    f c = f c' := by
  by_cases hc : isSmall (asciiLower c) = true
  · rw [hf c hc, hf c' (h ▸ hc)]
  · rw [eq_of_asciiLower_eq h (Bool.of_not_eq_true hc)]

theorem isWord_congr (h : asciiLower c = asciiLower c') : isWord c = isWord c' :=
  eq_of_forall_small (fun _ hc => (isWord_of_isSmall_asciiLower hc).1) h

theorem isBlank_congr (h : asciiLower c = asciiLower c') : isBlank c = isBlank c' :=
  eq_of_forall_small (fun _ hc => not_isBlank_of_isWord (isWord_of_isSmall_asciiLower hc).1) h

/-- A digit agrees up to case with itself only. -/
theorem eq_of_isDigit (h : asciiLower c = asciiLower c') (hc : isDigit c = true) : c = c' :=
  eq_of_asciiLower_eq h (not_isSmall_of_isDigit hc)

theorem isDigit_congr (h : asciiLower c = asciiLower c') : isDigit c = isDigit c' := by
  refine eq_of_forall_small (fun x hx => Bool.of_not_eq_true fun hd => ?_) h
  rw [not_isSmall_of_isDigit hd] at hx
  exact absurd hx (by decide)

/-- A character that is no letter is hit by both of two characters that are the same up to letter
case, or by neither. -/
theorem eq_iff_eq_of_not_small {x : Char} (hx : isSmall (asciiLower x) = false)
    (h : asciiLower c = asciiLower c') : x = c ↔ x = c' := by
  constructor
  · rintro rfl
    exact eq_of_asciiLower_eq h hx
  · rintro rfl
    exact eq_of_asciiLower_eq h.symm hx

/-! ## Texts -/

/-- A text with all its letters small. -/
def foldCase (s : String) : String := String.ofList (s.toList.map asciiLower)

theorem foldCase_ofList (w : List Char) :
    foldCase (String.ofList w) = String.ofList (w.map asciiLower) := by
  rw [foldCase, String.toList_ofList]

/-- Texts that are the same up to letter case, and behind each backslash without exception. -/
structure SameLetters (t t' : List Char) : Prop where
  letters : t.map asciiLower = t'.map asciiLower
  escaped : ∀ i : Nat, t[i]? = some '\\' → t[i + 1]? = t'[i + 1]?

variable {t t' : List Char}

namespace SameLetters

instance (t t' : List Char) : Decidable (SameLetters t t') :=
  decidable_of_iff (t.map asciiLower = t'.map asciiLower ∧
      ∀ i < t.length, t[i]? = some '\\' → t[i + 1]? = t'[i + 1]?)
    ⟨fun h => ⟨h.1, fun i hi => h.2 i (List.getElem?_eq_some_iff.1 hi).1 hi⟩,
      fun h => ⟨h.letters, fun i _ => h.escaped i⟩⟩

theorem length_eq (h : SameLetters t t') : t.length = t'.length := by
  simpa using congrArg List.length h.letters

/-- A backslash is no letter, so both texts have it in the same places. -/
theorem symm (h : SameLetters t t') : SameLetters t' t where
  letters := h.letters.symm
  escaped i hi := by
    have hat : t[i]?.map asciiLower = t'[i]?.map asciiLower := by
      rw [← List.getElem?_map, ← List.getElem?_map, h.letters]
    rw [hi] at hat
    obtain ⟨c, hc, hlower⟩ := Option.map_eq_some_iff.1 hat
    obtain rfl := (eq_iff_eq_of_not_small (by decide) hlower.symm).1 rfl
    exact (h.escaped i hc).symm

theorem drop (h : SameLetters t t') (n : Nat) : SameLetters (t.drop n) (t'.drop n) where
  letters := by rw [List.map_drop, List.map_drop, h.letters]
  escaped i hi := by
    rw [List.getElem?_drop] at hi
    rw [List.getElem?_drop, List.getElem?_drop]
    exact h.escaped (n + i) hi

/-- Both texts go on with a character, or neither. -/
theorem exists_cons {u : List Char} (h : SameLetters (c :: u) t') :
    ∃ c' u', t' = c' :: u' ∧ asciiLower c = asciiLower c' ∧ SameLetters u u' := by
  cases t' with
  | nil => exact absurd h.letters (by simp)
  | cons c' u' => exact ⟨c', u', rfl, (List.cons.inj h.letters).1, h.drop 1⟩

/-- Behind a backslash both texts go on with the same character. -/
theorem exists_escape {e : Char} {u : List Char} (h : SameLetters ('\\' :: e :: u) t') :
    ∃ u', t' = '\\' :: e :: u' ∧ SameLetters u u' := by
  obtain ⟨c, v, rfl, hc, hv⟩ := h.exists_cons
  obtain rfl := (eq_iff_eq_of_not_small (by decide) hc).1 rfl
  obtain ⟨e', u', rfl, -, hu⟩ := hv.exists_cons
  have he : e = e' := by simpa using h.escaped 0 rfl
  subst he
  exact ⟨u', rfl, hu⟩

end SameLetters

/-! ## Beginnings -/

/-- The longest runs of a class that does not tell letter cases apart are the same up to what their
characters are. -/
theorem map_takeWhile_congr {β : Type} {p : Char → Bool} {f : Char → β}
    (hp : ∀ c c', asciiLower c = asciiLower c' → p c = p c')
    (hf : ∀ c c', asciiLower c = asciiLower c' → p c = true → f c = f c')
    (h : t.map asciiLower = t'.map asciiLower) :
    (t.takeWhile p).map f = (t'.takeWhile p).map f := by
  induction t generalizing t' with
  | nil =>
      obtain rfl : t' = [] := by simpa using h.symm
      rfl
  | cons c t ih =>
      cases t' with
      | nil => simp at h
      | cons c' t' =>
          obtain ⟨hc, ht⟩ := List.cons.inj h
          rw [List.takeWhile_cons, List.takeWhile_cons, ← hp c c' hc]
          cases hpc : p c with
          | false => rfl
          | true => simp [hf c c' hc hpc, ih ht]

/-- Whether a text begins with one that has no letters does not depend on letter case. -/
theorem isPrefixOf_congr {s : List Char} (hs : ∀ x ∈ s, isSmall (asciiLower x) = false)
    (h : t.map asciiLower = t'.map asciiLower) : s.isPrefixOf t = s.isPrefixOf t' := by
  induction s generalizing t t' with
  | nil => simp
  | cons x s ih =>
      rw [List.forall_mem_cons] at hs
      cases t with
      | nil =>
          obtain rfl : t' = [] := by simpa using h.symm
          rfl
      | cons c t =>
          cases t' with
          | nil => simp at h
          | cons c' t' =>
              obtain ⟨hc, ht⟩ := List.cons.inj h
              have hiff := eq_iff_eq_of_not_small hs.1 hc
              rw [List.isPrefixOf_cons_cons, List.isPrefixOf_cons_cons, ih hs.2 ht, Bool.eq_iff_iff]
              simp [hiff]

/-! ## Strings -/

namespace Quoted

theorem isPlain_congr (h : asciiLower c = asciiLower c') : isPlain c = isPlain c' := by
  refine eq_of_forall_small (b := true) (fun x hx => ?_) h
  by_contra hp
  simp only [isPlain, isQuote, Bool.not_eq_true, Bool.not_eq_false', Bool.or_eq_true,
    beq_iff_eq] at hp
  rcases hp with ((((rfl | rfl) | rfl) | rfl) | rfl) | rfl <;> exact absurd hx (by decide)

/-- What stands in one text up to the closing quote stands in the other one, up to letter case. -/
theorem exists_spells_of_sameLetters {q : Char} (hq : isQuote q = true)
    {content body rest : List Char} (hs : Spells content body) {text' : List Char}
    (h : SameLetters (body ++ q :: rest) text') :
    ∃ content' body' rest', text' = body' ++ q :: rest' ∧ Spells content' body' ∧
      body'.length = body.length ∧ content.map asciiLower = content'.map asciiLower := by
  induction hs generalizing text' with
  | nil =>
      obtain ⟨q', u, rfl, hq', -⟩ := h.exists_cons
      obtain rfl := (eq_iff_eq_of_not_small (not_isSmall_of_isQuote hq) hq').1 rfl
      exact ⟨[], [], u, rfl, .nil, rfl, rfl⟩
  | plain hc _ ih =>
      obtain ⟨c', u, rfl, hlower, hu⟩ := h.exists_cons
      obtain ⟨content', body', rest', rfl, hs', hlen, hmap⟩ := ih hu
      rw [isPlain_congr hlower] at hc
      exact ⟨c' :: content', c' :: body', rest', rfl, .plain hc hs', by simp [hlen],
        by simp [hlower, hmap]⟩
  | escape he _ ih =>
      obtain ⟨u, rfl, hu⟩ := h.exists_escape
      obtain ⟨content', body', rest', rfl, hs', hlen, hmap⟩ := ih hu
      exact ⟨_ :: content', _ :: _ :: body', rest', rfl, .escape he hs', by simp [hlen],
        by simp [hmap]⟩

/-- Quotes and backslashes have no case, so the strings end at the same place. -/
theorem decode_of_sameLetters (h : SameLetters t t') {content : List Char} {n : Nat}
    (hd : decode t = some (content, n)) : ∃ content', decode t' = some (content', n) ∧
      content.map asciiLower = content'.map asciiLower := by
  obtain ⟨q, body, rest, hq, rfl, hs, rfl⟩ := decode_eq_some_iff.1 hd
  obtain ⟨q', u, rfl, hq', hu⟩ := h.exists_cons
  obtain rfl := (eq_iff_eq_of_not_small (not_isSmall_of_isQuote hq) hq').1 rfl
  obtain ⟨content', body', rest', rfl, hs', hlen, hmap⟩ := exists_spells_of_sameLetters hq hs hu
  exact ⟨content', decode_eq_some_iff.2 ⟨q, body', rest', hq, rfl, hs', by rw [hlen]⟩, hmap⟩

/-- Texts that are the same up to letter case begin with strings of one length whose contents are
the same up to letter case, or none begins with a string. -/
theorem decode_congr (h : SameLetters t t') :
    (decode t).map (Prod.map (List.map asciiLower) id) =
      (decode t').map (Prod.map (List.map asciiLower) id) := by
  cases hd : decode t with
  | some found =>
      obtain ⟨content', hd', hmap⟩ := decode_of_sameLetters h hd
      simp [hd', Prod.ext_iff, hmap]
  | none =>
      cases hd' : decode t' with
      | none => rfl
      | some found =>
          obtain ⟨content, hsome, -⟩ := decode_of_sameLetters h.symm hd'
          rw [hd] at hsome
          exact absurd hsome (by simp)

end Quoted

end TableDdl.Text
