import TableDdl.Proofs.Text.Words
import TableDdl.Text.Quoted

/-!
# The format of quoted strings

`Spells content body` says, character by character, what may stand between the quotes of a string
for its content: a plain character for itself, and an escape for the character it stands for.
`decode_eq_some_iff` ties the reader to it: what is read is one quote, a body that spells the
content, and the same quote again, whatever comes behind.
-/

namespace TableDdl.Text.Quoted

/-- `body` is a way to write `content` between quotes. -/
inductive Spells : List Char → List Char → Prop where
  | nil : Spells [] []
  | plain {c : Char} {content body : List Char} (hc : isPlain c = true)
      (h : Spells content body) : Spells (c :: content) (c :: body)
  | escape {e c : Char} {content body : List Char} (he : unescape e = some c)
      (h : Spells content body) : Spells (c :: content) ('\\' :: e :: body)

/-! ## Characters -/

/-- Neither quote stands for itself in a string. -/
theorem not_isPlain_of_isQuote {q : Char} (hq : isQuote q = true) : isPlain q = false := by
  simp [isPlain, hq]

theorem ne_of_isPlain {q c : Char} (hq : isQuote q = true) (hc : isPlain c = true) : c ≠ q := by
  rintro rfl
  rw [not_isPlain_of_isQuote hq] at hc
  exact Bool.false_ne_true hc

/-- There are two quotes. -/
theorem isQuote_iff {q : Char} : isQuote q = true ↔ q = '\'' ∨ q = '"' := by
  simp [isQuote]

theorem not_isQuote_of_isBlank {c : Char} (hc : isBlank c = true) : isQuote c = false := by
  by_contra hq
  rcases isQuote_iff.1 (Bool.of_not_eq_false hq) with rfl | rfl <;> exact absurd hc (by decide)

/-- Quotes are no word characters, so a word opens no string. -/
theorem not_isQuote_of_isWord {c : Char} (hc : isWord c = true) : isQuote c = false := by
  by_contra hq
  rcases isQuote_iff.1 (Bool.of_not_eq_false hq) with rfl | rfl <;> exact absurd hc (by decide)

theorem not_isSmall_of_isQuote {q : Char} (hq : isQuote q = true) :
    isSmall (asciiLower q) = false := by
  rcases isQuote_iff.1 hq with rfl | rfl <;> decide

/-- An escape is not taken for the end of a string. -/
theorem backslash_ne_of_isQuote {q : Char} (hq : isQuote q = true) : '\\' ≠ q := by
  rintro rfl
  exact absurd hq (by decide)

/-! ## Reading a body -/

/-- A body that spells a text is read up to the quote behind it. -/
theorem decodeFrom_append {q : Char} (hq : isQuote q = true) {content body : List Char}
    (h : Spells content body) (done : List Char) (count : Nat) (rest : List Char) :
    decodeFrom q done count (body ++ q :: rest) =
      some (done.reverse ++ content, count + body.length + 1) := by
  induction h generalizing done count with
  | nil =>
      have hb := backslash_ne_of_isQuote hq
      rw [List.nil_append, decodeFrom.eq_def]
      split
      · next h => exact absurd h (by simp)
      · next h => exact absurd (List.cons.inj h).1 hb.symm
      · next h => exact absurd (List.cons.inj h).1 hb.symm
      · next c r _ _ h =>
        obtain ⟨rfl, rfl⟩ := List.cons.inj h
        simp
  | @plain c content body hc h ih =>
      have hcq : c ≠ q := ne_of_isPlain hq hc
      have hcb : c ≠ '\\' := by rintro rfl; exact absurd hc (by decide)
      rw [List.cons_append, decodeFrom.eq_def]
      split
      · next h => exact absurd h (by simp)
      · next h => exact absurd (List.cons.inj h).1 hcb
      · next h => exact absurd (List.cons.inj h).1 hcb
      · next d r _ _ h =>
        obtain ⟨rfl, rfl⟩ := List.cons.inj h
        rw [if_neg hcq, if_pos hc, ih]
        simp only [List.reverse_cons, List.append_assoc, List.singleton_append, List.length_cons]
        congr 2
        omega
  | @escape e c content body he h ih =>
      rw [List.cons_append, List.cons_append, decodeFrom, he]
      simp only [ih, List.reverse_cons, List.append_assoc, List.singleton_append, List.length_cons]
      congr 2
      omega

/-- What is read is a body that spells what is read, and the quote behind it. -/
theorem exists_spells_of_decodeFrom {q : Char} {done text content : List Char} {count n : Nat}
    (h : decodeFrom q done count text = some (content, n)) :
    ∃ read body rest, text = body ++ q :: rest ∧ Spells read body ∧
      content = done.reverse ++ read ∧ n = count + body.length + 1 := by
  fun_induction decodeFrom q done count text with
  | case1 => simp at h
  | case2 => simp at h
  | case3 done count e rest c he ih =>
      obtain ⟨read, body, r, rfl, hs, rfl, rfl⟩ := ih h
      refine ⟨c :: read, '\\' :: e :: body, r, rfl, .escape he hs, by simp, ?_⟩
      simp only [List.length_cons]
      omega
  | case4 => simp at h
  | case5 done count rest h1 h2 =>
      simp only [Option.some.injEq, Prod.mk.injEq] at h
      obtain ⟨rfl, rfl⟩ := h
      exact ⟨[], [], rest, rfl, .nil, by simp, rfl⟩
  | case6 done count c rest h1 h2 hcq hc ih =>
      obtain ⟨read, body, r, rfl, hs, rfl, rfl⟩ := ih h
      refine ⟨c :: read, c :: body, r, rfl, .plain hc hs, by simp, ?_⟩
      simp only [List.length_cons]
      omega
  | case7 => simp at h

/-- **The format**: a text begins with a string of this content and length just if a quote, a body
that spells the content, and the same quote stand in front. -/
theorem decode_eq_some_iff {text content : List Char} {n : Nat} :
    decode text = some (content, n) ↔
      ∃ q body rest, isQuote q = true ∧ text = q :: body ++ q :: rest ∧ Spells content body ∧
        n = body.length + 2 := by
  constructor
  · intro h
    cases text with
    | nil => simp [decode] at h
    | cons q text =>
        rw [decode] at h
        split at h
        · next hq =>
          obtain ⟨read, body, rest, rfl, hs, rfl, rfl⟩ := exists_spells_of_decodeFrom h
          exact ⟨q, body, rest, hq, rfl, by simpa using hs, by omega⟩
        · simp at h
  · rintro ⟨q, body, rest, hq, rfl, hs, rfl⟩
    rw [List.cons_append, decode, if_pos hq, decodeFrom_append hq hs]
    simp only [List.reverse_nil, List.nil_append]
    congr 2
    omega

/-- A text that begins with no quote begins with no string. -/
theorem decode_eq_none {text : List Char} (h : ∀ q ∈ text.head?, isQuote q = false) :
    decode text = none := by
  cases text with
  | nil => rfl
  | cons c rest => simp [decode, h c (by simp)]

end TableDdl.Text.Quoted
