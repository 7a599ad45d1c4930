import Mathlib.Computability.Language
import Mathlib.Data.List.TakeWhile
import TableDdl.Grammar.Tokens
import TableDdl.Proofs.Text.Quoted

/-!
# What a match takes

A match takes the characters between the cursor it starts from and the cursor it ends at.  If all
the primitives of a grammar take texts of a language that is closed under concatenation, so does
the whole grammar (`Grammar.exists_took`).  For the language of all texts this says that a match
never moves backwards and never leaves its text, which is what makes the bound on the number of
repetitions invisible (`Grammar.run_many_eq`).
-/

namespace TableDdl

/-! ## Taking -/

namespace Cursor

/-- `w` stands between the cursors `c` and `next`. -/
def Took (c next : Cursor) (w : List Char) : Prop :=
  c.rest = w ++ next.rest ∧ next = c.advance w.length

@[simp]
theorem rest_advance (c : Cursor) (n : Nat) : (c.advance n).rest = c.rest.drop n := rfl

@[simp]
theorem pos_advance (c : Cursor) (n : Nat) : (c.advance n).pos = c.pos + n := rfl

@[simp]
theorem text_advance (c : Cursor) (n : Nat) : (c.advance n).text = c.text := rfl

@[simp]
theorem rest_start (text : List Char) : (start text).rest = text := rfl

@[simp]
theorem rest_atPosition (text : List Char) (pos : Nat) :
    (atPosition text pos).rest = text.drop pos := rfl

/-- Behind what is taken, the rest of the text is left. -/
theorem rest_advance_of_append {c : Cursor} {u v : List Char} (h : c.rest = u ++ v) :
    (c.advance u.length).rest = v := by
  rw [rest_advance, h, List.drop_left]

/-- A cursor that moves over a text in front of it has taken that text. -/
theorem took_advance {c : Cursor} {u v : List Char} (h : c.rest = u ++ v) :
    c.Took (c.advance u.length) u :=
  ⟨by rw [rest_advance_of_append h, h], rfl⟩

/-- A cursor that stays has taken nothing. -/
theorem took_nil (c : Cursor) : c.Took c [] :=
  ⟨rfl, (c.advance_zero).symm⟩

/-- Two texts are taken one behind the other. -/
theorem Took.trans {c d e : Cursor} {u v : List Char} (hu : c.Took d u) (hv : d.Took e v) :
    c.Took e (u ++ v) := by
  obtain ⟨hc, rfl⟩ := hu
  obtain ⟨hd, rfl⟩ := hv
  refine ⟨?_, ?_⟩
  · rw [hc, hd, List.append_assoc]
  · rw [advance_advance, List.length_append]

/-- What is taken is missing from what is left. -/
theorem Took.length_rest {c next : Cursor} {w : List Char} (h : c.Took next w) :
    c.rest.length = w.length + next.rest.length := by
  rw [h.1, List.length_append]

/-- Nothing is taken where the position stays. -/
theorem Took.pos_eq_iff {c next : Cursor} {w : List Char} (h : c.Took next w) :
    next.pos = c.pos ↔ w = [] := by
  rw [h.2, pos_advance, ← List.length_eq_zero_iff]
  omega

end Cursor

namespace Grammar

variable {α β : Type}

/-- Every text that a primitive of the grammar takes is in `L`. -/
def Within (L : Language Char) {α : Type} : Grammar α → Prop
  | .pure _ => True
  | .fail => True
  | .ahead _ => True
  | .span p => ∀ w : List Char, (∀ c ∈ w, p c = true) → w ∈ L
  | .literal s => s ∈ L
  | .caseless s => ∀ w : List Char, w.map Text.asciiLower = s → w ∈ L
  | .number => ∀ w : List Char, (∀ c ∈ w, Text.isDigit c = true) → w ∈ L
  | .quoted => ∀ (q : Char) (content body : List Char), Text.Quoted.isQuote q = true →
      Text.Quoted.Spells content body → q :: body ++ [q] ∈ L
  | .map _ g => g.Within L
  | .refine _ g => g.Within L
  | .pair g h => g.Within L ∧ h.Within L
  | .attempt g => g.Within L
  | .orElse g h => g.Within L ∧ h.Within L
  | .many g => g.Within L

end Grammar

/-! ## Inversion of outcomes -/

namespace Outcome

variable {α β : Type} {x : Outcome α} {next : Cursor} {b : β}

theorem map_eq_matched_iff {f : α → β} :
    x.map f = .matched next b ↔ ∃ a, x = .matched next a ∧ f a = b := by
  cases x <;> simp [Outcome.map]

theorem map_eq_mismatch_iff {f : α → β} {place : Cursor} :
    x.map f = .mismatch place ↔ x = .mismatch place := by
  cases x <;> simp [Outcome.map]

/-- A run that goes on matches through the place where its first part stopped. -/
theorem bind_eq_matched_iff {k : Cursor → α → Outcome β} :
    x.bind k = .matched next b ↔ ∃ mid a, x = .matched mid a ∧ k mid a = .matched next b := by
  cases x <;> simp [Outcome.bind]

/-- A match is kept, or found where the run goes on after a mismatch. -/
theorem recover_eq_matched_iff {other : Cursor → Outcome α} {a : α} :
    x.recover other = .matched next a ↔
      x = .matched next a ∨ ∃ place, x = .mismatch place ∧ other place = .matched next a := by
  cases x <;> simp [Outcome.recover]

theorem ofOption_eq_matched_iff {c d : Cursor} {found : Option β} :
    ofOption c d found = .matched next b ↔ next = d ∧ found = some b := by
  cases found <;> simp [ofOption, eq_comm]

end Outcome

/-! ## What primitives take -/

/-- A text matches up to case just if it begins with characters whose lower-case forms are those of
the keyword. -/
theorem caselessPrefix_eq_some {s text w : List Char} (h : caselessPrefix s text = some w) :
    w.map Text.asciiLower = s ∧ ∃ rest, text = w ++ rest := by
  induction s generalizing text w with
  | nil =>
      obtain rfl : [] = w := Option.some.inj h
      exact ⟨rfl, text, rfl⟩
  | cons k ks ih =>
      cases text with
      | nil => simp [caselessPrefix] at h
      | cons c cs =>
          rw [caselessPrefix] at h
          split at h
          · next hc =>
            obtain ⟨v, hv, rfl⟩ := Option.map_eq_some_iff.1 h
            obtain ⟨hk, rest, rfl⟩ := ih hv
            exact ⟨by rw [List.map_cons, hc.2, hk], rest, rfl⟩
          · simp at h

/-- A span takes the longest run of its characters. -/
theorem took_takeWhile (c : Cursor) (p : Char → Bool) :
    c.Took (c.advance (c.rest.takeWhile p).length) (c.rest.takeWhile p) :=
  Cursor.took_advance (List.takeWhile_append_dropWhile).symm

/-- A literal takes itself. -/
theorem took_of_startsWith {c : Cursor} {s : List Char} (h : c.startsWith s = true) :
    c.Took (c.advance s.length) s := by
  rw [Cursor.startsWith, Bool.and_eq_true] at h
  obtain ⟨rest, hr⟩ := List.isPrefixOf_iff_prefix.1 h.1
  exact Cursor.took_advance hr.symm

theorem all_of_mem_takeWhile {p : Char → Bool} {text : List Char} :
    ∀ c ∈ text.takeWhile p, p c = true := fun _ => List.mem_takeWhile_imp

/-- A keyword takes a spelling of itself. -/
theorem took_of_caseless {s w : List Char} {c next : Cursor}
    (h : (Grammar.caseless s).run c = .matched next w) :
    w.map Text.asciiLower = s ∧ c.Took next w := by
  obtain ⟨rfl, hs⟩ := Outcome.ofOption_eq_matched_iff.1 h
  obtain ⟨hw, rest, hr⟩ := caselessPrefix_eq_some hs
  refine ⟨hw, ?_⟩
  rw [← hw, List.length_map]
  exact Cursor.took_advance hr

/-- An integer takes the digits that come next. -/
theorem took_of_runNumber {c next : Cursor} {n : Nat} (h : runNumber c = .matched next n) :
    c.Took next (c.rest.takeWhile Text.isDigit) := by
  rw [runNumber] at h
  split at h
  · simp at h
  · split at h
    · simp at h
    · obtain ⟨rfl, -⟩ := Outcome.matched.inj h
      exact took_takeWhile c Text.isDigit

/-- A quoted string takes its quotes and what spells its content between them. -/
theorem exists_took_of_quoted {c next : Cursor} {content : List Char}
    (h : Grammar.quoted.run c = .matched next content) :
    ∃ q body, Text.Quoted.isQuote q = true ∧ Text.Quoted.Spells content body ∧
      c.Took next (q :: body ++ [q]) := by
  rw [Grammar.run] at h
  split at h
  · next count hd =>
    obtain ⟨rfl, rfl⟩ := Outcome.matched.inj h
    obtain ⟨q, body, rest, hq, hr, hs, rfl⟩ := Text.Quoted.decode_eq_some_iff.1 hd
    have hlen : (q :: body ++ [q]).length = body.length + 2 := by simp
    refine ⟨q, body, hq, hs, ?_⟩
    rw [← hlen]
    exact Cursor.took_advance (by simpa using hr)
  · simp at h

/-! ## What a grammar takes -/

namespace Grammar

variable {α β : Type} {L : Language Char}

/-- A repetition takes what its rounds take, one behind the other. -/
theorem exists_took_repeatRun {run : Cursor → Outcome α} (hnil : [] ∈ L)
    (happ : ∀ u ∈ L, ∀ v ∈ L, u ++ v ∈ L)
    (hrun : ∀ c next a, run c = .matched next a → ∃ w ∈ L, c.Took next w) (fuel : Nat) (c : Cursor)
    (next : Cursor) (as : List α) (h : repeatRun run fuel c = .matched next as) :
    ∃ w ∈ L, c.Took next w := by
  induction fuel generalizing c next as with
  | zero =>
      obtain ⟨rfl, rfl⟩ := Outcome.matched.inj h
      exact ⟨[], hnil, c.took_nil⟩
  | succ fuel ih =>
      rw [repeatRun] at h
      split at h
      · next mid a hm =>
        split at h
        · obtain ⟨rfl, rfl⟩ := Outcome.matched.inj h
          exact ⟨[], hnil, c.took_nil⟩
        · obtain ⟨bs, hb, rfl⟩ := Outcome.map_eq_matched_iff.1 h
          obtain ⟨u, hu, htu⟩ := hrun c mid a hm
          obtain ⟨v, hv, htv⟩ := ih mid next bs hb
          exact ⟨u ++ v, happ u hu v hv, htu.trans htv⟩
      · obtain ⟨rfl, rfl⟩ := Outcome.matched.inj h
        exact ⟨[], hnil, c.took_nil⟩
      · simp at h

/-- **What a match takes**: if all the primitives of a grammar take texts of a language that is
closed under concatenation, each match of the grammar takes a text of that language. -/
theorem exists_took (hnil : [] ∈ L) (happ : ∀ u ∈ L, ∀ v ∈ L, u ++ v ∈ L) {g : Grammar α}
    (hg : g.Within L) {c next : Cursor} {a : α} (h : g.run c = .matched next a) :
    ∃ w ∈ L, c.Took next w := by
  induction g generalizing c next with
  | pure value =>
      obtain ⟨rfl, rfl⟩ := Outcome.matched.inj h
      exact ⟨[], hnil, c.took_nil⟩
  | fail => simp at h
  | ahead p =>
      rw [run] at h
      split at h
      · obtain ⟨rfl, -⟩ := Outcome.matched.inj h
        exact ⟨[], hnil, c.took_nil⟩
      · simp at h
  | span p =>
      obtain ⟨rfl, rfl⟩ := Outcome.matched.inj h
      exact ⟨_, hg _ all_of_mem_takeWhile, took_takeWhile c p⟩
  | literal s =>
      rw [run] at h
      split at h
      · next hs =>
        obtain ⟨rfl, rfl⟩ := Outcome.matched.inj h
        exact ⟨s, hg, took_of_startsWith hs⟩
      · simp at h
  | caseless s =>
      obtain ⟨hw, htook⟩ := took_of_caseless h
      exact ⟨_, hg _ hw, htook⟩
  | number => exact ⟨_, hg _ all_of_mem_takeWhile, took_of_runNumber h⟩
  | quoted =>
      obtain ⟨q, body, hq, hs, htook⟩ := exists_took_of_quoted h
      exact ⟨_, hg q _ body hq hs, htook⟩
  | map f g ih =>
      obtain ⟨b, hb, -⟩ := Outcome.map_eq_matched_iff.1 h
      exact ih hg hb
  | refine f g ih =>
      obtain ⟨mid, b, hb, hf⟩ := Outcome.bind_eq_matched_iff.1 h
      obtain ⟨rfl, -⟩ := Outcome.ofOption_eq_matched_iff.1 hf
      exact ih hg hb
  | pair g k ihg ihk =>
      obtain ⟨mid, b, hb, hk⟩ := Outcome.bind_eq_matched_iff.1 h
      obtain ⟨d, hd, -⟩ := Outcome.map_eq_matched_iff.1 hk
      obtain ⟨u, hu, htu⟩ := ihg hg.1 hb
      obtain ⟨v, hv, htv⟩ := ihk hg.2 hd
      exact ⟨u ++ v, happ u hu v hv, htu.trans htv⟩
  | attempt g ih =>
      rcases Outcome.recover_eq_matched_iff.1 h with h | ⟨_, -, h⟩
      · exact ih hg h
      · simp at h
  | orElse g k ihg ihk =>
      rcases Outcome.recover_eq_matched_iff.1 h with h | ⟨_, -, h⟩
      · exact ihg hg.1 h
      · rcases Outcome.recover_eq_matched_iff.1 h with h | ⟨_, -, h⟩
        · exact ihk hg.2 h
        · simp at h
  | many g ih =>
      exact exists_took_repeatRun hnil happ (fun _ _ _ hm => ih hg hm) _ c next a h

/-! ## Composed grammars -/

/-- A sequence takes a text of each of its parts. -/
theorem Within.seq {g : Grammar α} {h : Grammar β} (hg : g.Within L) (hh : h.Within L) :
    (Grammar.seq g h).Within L :=
  ⟨hg, hh⟩

theorem Within.preceded {g : Grammar α} {h : Grammar β} (hg : g.Within L) (hh : h.Within L) :
    (Grammar.preceded g h).Within L :=
  hg.seq hh

theorem Within.followedBy {g : Grammar α} {h : Grammar β} (hg : g.Within L) (hh : h.Within L) :
    (Grammar.followedBy g h).Within L :=
  hg.seq hh

/-- What is optional takes its text or none. -/
theorem Within.optional {g : Grammar α} (hg : g.Within L) : (Grammar.optional g).Within L :=
  ⟨hg, trivial⟩

/-- A choice takes what one of its alternatives takes. -/
theorem within_alternatives {gs : List (Grammar α)} (hgs : ∀ g ∈ gs, g.Within L) :
    (alternatives gs).Within L := by
  induction gs with
  | nil => trivial
  | cons g gs ih =>
      obtain ⟨hg, hrest⟩ := List.forall_mem_cons.1 hgs
      exact ⟨hg, ih hrest⟩

/-- Every grammar takes texts of the language of all texts. -/
theorem within_top (g : Grammar α) : g.Within ⊤ := by
  have top : ∀ w : List Char, w ∈ (⊤ : Language Char) := fun _ => trivial
  induction g <;> simp_all [Within]

/-- A match ends at or behind its start and within what was left there. -/
theorem took_of_run {g : Grammar α} {c next : Cursor} {a : α} (h : g.run c = .matched next a) :
    ∃ w, c.Took next w := by
  obtain ⟨w, -, hw⟩ := exists_took (L := ⊤) trivial (fun _ _ _ _ => trivial) g.within_top h
  exact ⟨w, hw⟩

/-- A match that moves leaves less. -/
theorem length_rest_lt_of_run {g : Grammar α} {c next : Cursor} {a : α}
    (h : g.run c = .matched next a) (hpos : next.pos ≠ c.pos) :
    next.rest.length < c.rest.length := by
  obtain ⟨w, hw⟩ := took_of_run h
  have hne : w.length ≠ 0 := fun h0 => hpos (hw.pos_eq_iff.2 (List.length_eq_zero_iff.1 h0))
  have hlen := hw.length_rest
  omega

/-! ## Repetition without a bound -/

/-- Any two bounds above the number of characters left allow the same repetition. -/
theorem repeatRun_eq_of_length_lt (g : Grammar α) {m n : Nat} {c : Cursor}
    (hm : c.rest.length < m) (hn : c.rest.length < n) :
    repeatRun g.run m c = repeatRun g.run n c := by
  induction m generalizing n c with
  | zero => exact absurd hm (Nat.not_lt_zero _)
  | succ m ih =>
      cases n with
      | zero => exact absurd hn (Nat.not_lt_zero _)
      | succ n =>
          rw [repeatRun, repeatRun]
          split
          · next next a h =>
            split
            · rfl
            · next hpos =>
              have hlt := length_rest_lt_of_run h hpos
              rw [ih (n := n) (by omega) (by omega)]
          · rfl
          · rfl

/-- A repetition is a round and the repetition behind it, as long as the round takes something. -/
theorem run_many_eq (g : Grammar α) (c : Cursor) :
    (many g).run c =
      match g.run c with
      | .matched next a =>
          if next.pos = c.pos then .matched c [] else ((many g).run next).map (a :: ·)
      | .mismatch _ => .matched c []
      | .overlong digits => .overlong digits := by
  cases h : g.run c with
  | matched next a =>
      rw [run_many, repeatRun, h]
      dsimp only
      split
      · rfl
      · next hpos =>
        have hlt := length_rest_lt_of_run h hpos
        rw [run_many, repeatRun_eq_of_length_lt g (n := next.rest.length + 1) (by omega) (by omega)]
  | mismatch place => rw [run_many, repeatRun, h]
  | overlong digits => rw [run_many, repeatRun, h]

end Grammar

end TableDdl
