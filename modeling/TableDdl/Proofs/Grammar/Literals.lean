import Mathlib.Data.List.Forall2
import TableDdl.Proofs.Grammar.Takes

/-!
# String literals

The strings of statements, said without a reader.  A literal stands between two quotes of one kind
and is a row of tokens, each of which stands for one character: any character but a quote, a
backslash, a line feed, a carriage return or a tab for itself, and a backslash with a letter of the
table `escapes` behind it for the character in that table (`Token`).

`run_quotedString_iff` ties the grammar to it: from each position of each text, the grammar takes a
literal just if one stands there, and there is at most one.  A text that is encoded is such a
literal, so it comes back whatever stands around it.
-/

namespace TableDdl.Text.Quoted

/-- The characters that do not stand for themselves. -/
def notBare : List Char := ['\'', '"', '\\', '\n', '\r', '\t']

/-- What may stand behind a backslash, and the character that it stands for. -/
def escapes : List (Char × Char) :=
  [('n', '\n'), ('r', '\r'), ('t', '\t'), ('\\', '\\'), ('/', '/'), ('"', '"'), ('\'', '\'')]

/-- `written` stands for the character `c` between quotes. -/
inductive Token : List Char → Char → Prop where
  | bare {c : Char} (hc : c ∉ notBare) : Token [c] c
  | escaped {e c : Char} (he : (e, c) ∈ escapes) : Token ['\\', e] c

/-- `written` is a string literal with this content. -/
def IsLiteral (written content : List Char) : Prop :=
  ∃ quote ∈ ['\'', '"'], ∃ tokens, List.Forall₂ Token tokens content ∧
    written = quote :: tokens.flatten ++ [quote]

/-- A literal with this content stands between the positions `p` and `q` of the text. -/
def LiteralAt (text : List Char) (p q : Nat) (content : String) : Prop :=
  q ≤ text.length ∧ IsLiteral (text.extract p q) content.toList

/-! ## Tokens -/

/-- What does not stand for itself is a quote, the backslash or a control character. -/
theorem isPlain_iff {c : Char} : isPlain c = true ↔ c ∉ notBare := by
  simp [isPlain, isQuote, notBare, and_assoc]

/-- The escapes are those of the table. -/
theorem unescape_eq_some_iff {e c : Char} : unescape e = some c ↔ (e, c) ∈ escapes := by
  constructor
  · intro h
    unfold unescape at h
    split at h <;> simp_all [escapes, eq_comm]
  · intro h
    simp only [escapes, List.mem_cons, Prod.mk.injEq, List.not_mem_nil, or_false] at h
    rcases h with ⟨rfl, rfl⟩ | ⟨rfl, rfl⟩ | ⟨rfl, rfl⟩ | ⟨rfl, rfl⟩ | ⟨rfl, rfl⟩ | ⟨rfl, rfl⟩ |
      ⟨rfl, rfl⟩ <;> rfl

/-- A body spells its content token by token. -/
theorem spells_iff {content body : List Char} :
    Spells content body ↔ ∃ tokens, List.Forall₂ Token tokens content ∧ body = tokens.flatten := by
  constructor
  · intro h
    induction h with
    | nil => exact ⟨[], .nil, rfl⟩
    | @plain c content body hc h ih =>
        obtain ⟨tokens, htokens, rfl⟩ := ih
        exact ⟨[c] :: tokens, .cons (.bare (isPlain_iff.1 hc)) htokens, rfl⟩
    | @escape e c content body he h ih =>
        obtain ⟨tokens, htokens, rfl⟩ := ih
        exact ⟨['\\', e] :: tokens, .cons (.escaped (unescape_eq_some_iff.1 he)) htokens, rfl⟩
  · rintro ⟨tokens, htokens, rfl⟩
    induction htokens with
    | nil => exact .nil
    | cons htoken _ ih =>
        cases htoken with
        | bare hc => exact .plain (isPlain_iff.2 hc) ih
        | escaped he => exact .escape (unescape_eq_some_iff.2 he) ih

/-- A literal is a body between two quotes of one kind. -/
theorem isLiteral_iff {written content : List Char} :
    IsLiteral written content ↔
      ∃ q body, isQuote q = true ∧ Spells content body ∧ written = q :: body ++ [q] := by
  constructor
  · rintro ⟨q, hq, tokens, htokens, rfl⟩
    exact ⟨q, _, isQuote_iff.2 (by simpa using hq), spells_iff.2 ⟨tokens, htokens, rfl⟩, rfl⟩
  · rintro ⟨q, body, hq, hs, rfl⟩
    obtain ⟨tokens, htokens, rfl⟩ := spells_iff.1 hs
    exact ⟨q, by simpa using isQuote_iff.1 hq, tokens, htokens, rfl⟩

/-- What is read of a text is a literal in front of it, and how long that literal is. -/
theorem decode_eq_some_iff_isLiteral {text content : List Char} {n : Nat} :
    decode text = some (content, n) ↔
      ∃ written rest, text = written ++ rest ∧ IsLiteral written content ∧ n = written.length := by
  rw [decode_eq_some_iff]
  constructor
  · rintro ⟨q, body, rest, hq, rfl, hs, rfl⟩
    exact ⟨q :: body ++ [q], rest, by simp, isLiteral_iff.2 ⟨q, body, hq, hs, rfl⟩, by simp⟩
  · rintro ⟨written, rest, rfl, hw, rfl⟩
    obtain ⟨q, body, hq, hs, rfl⟩ := isLiteral_iff.1 hw
    exact ⟨q, body, rest, hq, by simp, hs, by simp⟩

/-- A literal has its quotes at least. -/
theorem IsLiteral.ne_nil {written content : List Char} (h : IsLiteral written content) :
    written ≠ [] := by
  obtain ⟨q, -, tokens, -, rfl⟩ := h
  simp

/-! ## Encoding -/

/-- The escape of a character spells it in front of any body. -/
theorem spells_escape (c : Char) {content body : List Char} (h : Spells content body) :
    Spells (c :: content) (escape c ++ body) := by
  rw [escape]
  split
  · next hc => exact hc ▸ .escape rfl h
  split
  · next hc => exact hc ▸ .escape rfl h
  split
  · next hc => exact hc ▸ .escape rfl h
  split
  · next hc => exact .plain hc h
  · next hn hr ht hc =>
    -- What is left are the two quotes and the backslash, which stand behind a backslash.
    refine .escape (unescape_eq_some_iff.2 ?_) h
    have hmem : c ∈ notBare := not_not.1 fun hmem => hc (isPlain_iff.2 hmem)
    simp only [notBare, List.mem_cons, List.not_mem_nil, or_false] at hmem
    rcases hmem with rfl | rfl | rfl | rfl | rfl | rfl
    · decide
    · decide
    · decide
    · exact absurd rfl hn
    · exact absurd rfl hr
    · exact absurd rfl ht

/-- Every content can be spelled, with its own escapes. -/
theorem spells_flatMap_escape (content : List Char) :
    Spells content (content.flatMap escape) := by
  induction content with
  | nil => exact .nil
  | cons c content ih => exact spells_escape c ih

/-- What is encoded is a literal, whichever quotes are put around it. -/
theorem isLiteral_encode {q : Char} (hq : q ∈ ['\'', '"']) (content : List Char) :
    IsLiteral (encode q content) content :=
  isLiteral_iff.2
    ⟨q, _, isQuote_iff.2 (by simpa using hq), spells_flatMap_escape content, rfl⟩

/-! ## Positions -/

/-- A stretch of a text that is not empty, by its two positions and by what stands behind it. -/
theorem extract_eq_iff {text written : List Char} {p q : Nat} (hne : written ≠ []) :
    q ≤ text.length ∧ text.extract p q = written ↔
      ∃ rest, text.drop p = written ++ rest ∧ q = p + written.length := by
  have hpos := List.length_pos_iff.2 hne
  rw [List.extract_eq_take_drop]
  constructor
  · rintro ⟨hq, rfl⟩
    refine ⟨(text.drop p).drop (q - p), (List.take_append_drop _ _).symm, ?_⟩
    rw [List.length_take, List.length_drop] at hpos ⊢
    omega
  · rintro ⟨rest, hrest, rfl⟩
    have hlen := congrArg List.length hrest
    rw [List.length_drop, List.length_append] at hlen
    refine ⟨by omega, ?_⟩
    rw [hrest, Nat.add_sub_cancel_left, List.take_left]

/-- A literal stands between two places just if it is read at the first and ends at the second. -/
theorem literalAt_iff {text : List Char} {p q : Nat} {content : String} :
    LiteralAt text p q content ↔
      ∃ n, decode (text.drop p) = some (content.toList, n) ∧ q = p + n := by
  constructor
  · rintro ⟨hq, hl⟩
    obtain ⟨rest, hrest, hend⟩ := (extract_eq_iff hl.ne_nil).1 ⟨hq, rfl⟩
    exact ⟨_, decode_eq_some_iff_isLiteral.2 ⟨_, rest, hrest, hl, rfl⟩, hend⟩
  · rintro ⟨n, hn, rfl⟩
    obtain ⟨written, rest, hrest, hl, rfl⟩ := decode_eq_some_iff_isLiteral.1 hn
    obtain ⟨hq, hw⟩ := (extract_eq_iff hl.ne_nil).2 ⟨rest, hrest, rfl⟩
    refine ⟨hq, ?_⟩
    rwa [hw]

end TableDdl.Text.Quoted

namespace TableDdl.Grammar

open Text Text.Quoted

/-! ## The grammar -/

/-- What the decoder makes of a text is what the grammar reads there. -/
theorem run_quotedString_of_decode {c : Cursor} {content : List Char} {n : Nat}
    (h : decode c.rest = some (content, n)) :
    quotedString.run c = .matched (c.advance n) (String.ofList content) := by
  rw [quotedString, run_map, run, h, Outcome.map]

/-- Where no string is decoded, the token does not match, and reports where it began. -/
theorem run_quotedString_of_none {c : Cursor} (h : decode c.rest = none) :
    quotedString.run c = .mismatch c := by
  rw [quotedString, run_map, run, h, Outcome.map]

theorem run_quotedString_eq_matched_iff {text : List Char} {p q : Nat} {v : String} :
    quotedString.run (.atPosition text p) = .matched (.atPosition text q) v ↔
      LiteralAt text p q v := by
  rw [literalAt_iff]
  constructor
  · intro h
    cases hd : decode (text.drop p) with
    | none =>
        rw [run_quotedString_of_none hd] at h
        simp at h
    | some found =>
        obtain ⟨content, n⟩ := found
        rw [run_quotedString_of_decode hd, Outcome.matched.injEq] at h
        obtain ⟨hnext, rfl⟩ := h
        exact ⟨n, by rw [String.toList_ofList], (congrArg Cursor.pos hnext).symm⟩
  · rintro ⟨n, hn, rfl⟩
    rw [run_quotedString_of_decode hn, String.ofList_toList]
    exact congrArg (Outcome.matched · v) (Cursor.eq_of_text_of_pos rfl rfl)

/-- Where no literal stands, the string fails where it was tried. -/
theorem run_quotedString_eq_mismatch {text : List Char} {p : Nat}
    (h : ¬∃ q v, LiteralAt text p q v) :
    quotedString.run (.atPosition text p) = .mismatch (.atPosition text p) := by
  refine run_quotedString_of_none (Option.eq_none_iff_forall_ne_some.2 fun found hfound => h ?_)
  obtain ⟨content, n⟩ := found
  exact ⟨p + n, String.ofList content,
    literalAt_iff.2 ⟨n, by rwa [String.toList_ofList], rfl⟩⟩

/-- **Strings**: the grammar takes the literal that stands at a position and yields its content; it
matches nowhere else, and then reports the position itself.  No two literals stand at one position.
A text that is encoded comes back, whatever stands around it. -/
theorem run_quotedString_iff (text : List Char) (p : Nat) :
    (∀ q v, quotedString.run (.atPosition text p) = .matched (.atPosition text q) v ↔
      LiteralAt text p q v) ∧
    (∀ q v q' v', LiteralAt text p q v → LiteralAt text p q' v' → q = q' ∧ v = v') ∧
    ((¬∃ q v, LiteralAt text p q v) →
      quotedString.run (.atPosition text p) = .mismatch (.atPosition text p)) ∧
    ∀ quote ∈ ['\'', '"'], ∀ (v : String) (u w : List Char), ∃ next,
      quotedString.run (.atPosition (u ++ encode quote v.toList ++ w) u.length) =
          .matched next v ∧
        next.pos = u.length + (encode quote v.toList).length ∧ next.rest = w := by
  refine ⟨fun q v => run_quotedString_eq_matched_iff, ?_, run_quotedString_eq_mismatch, ?_⟩
  · intro q v q' v' h h'
    have hrun := run_quotedString_eq_matched_iff.2 h
    rw [run_quotedString_eq_matched_iff.2 h', Outcome.matched.injEq] at hrun
    exact ⟨(congrArg Cursor.pos hrun.1).symm, hrun.2.symm⟩
  · intro quote hquote v u w
    have hrest : (Cursor.atPosition (u ++ encode quote v.toList ++ w) u.length).rest =
        encode quote v.toList ++ w := by
      rw [Cursor.rest_atPosition, List.append_assoc, List.drop_left]
    have hdecode := decode_eq_some_iff_isLiteral.2
      ⟨_, w, hrest, isLiteral_encode hquote v.toList, rfl⟩
    refine ⟨_, (run_quotedString_of_decode hdecode).trans (by rw [String.ofList_toList]), rfl, ?_⟩
    exact Cursor.rest_advance_of_append hrest

end TableDdl.Grammar
