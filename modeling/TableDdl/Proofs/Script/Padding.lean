import Mathlib.Computability.Language
import TableDdl.Proofs.Script.Comments
import TableDdl.Proofs.Sql.Written

/-!
# What is stripped from a statement

The padding in front of a statement is a row of blanks and block comments.  The opening mark of a
comment is not part of its closing mark: `/*/` is no comment but a stub, which some later `*/` may
close.  Stripping takes a stub for a whole comment:

```
/* a */ /* b */ x   ↦  x          padding is stripped
/*/ /* a */ x       ↦  x          `/*/ /* a */` is one comment, stripped in two steps
/*/ x               ↦  x          a stub is stripped, but is no padding
```

So what is stripped is padding if and only if, behind padding, each stub goes on, behind blanks,
with a comment or with a stub (`exists_padding_iff`).
-/

namespace TableDdl.Script

open Text Computability

variable {b s t u v w x y rest : List Char}

/-! ## Blanks and comments -/

/-- One blank. -/
def blank : Language Char := {w | ∃ c, isBlank c = true ∧ w = [c]}

/-- One block comment.  It ends with the first closing mark behind its opening mark. -/
def comments : Language Char :=
  {w | ∃ body, ¬['*', '/'] <:+: body ∧ w = '/' :: '*' :: (body ++ ['*', '/'])}

/-- One blank or one comment. -/
def units : Language Char := blank + comments

/-- Blanks and comments, perhaps none. -/
def padding : Language Char := units∗

/-- An opening and a closing mark that share their star. -/
def stub : List Char := ['/', '*', '/']

/-- What begins, behind blanks, with a comment or a stub. -/
def resumed : Language Char := Written.blanks0 * ((comments + {stub}) * ⊤)

/-- Each stub behind padding is resumed. -/
def StubsResumed (s : List Char) : Prop :=
  ∀ front ∈ padding, ∀ v, s = front ++ (stub ++ v) → v ∈ resumed

theorem append_mem_kstar {L : Language Char} (hu : u ∈ L) (hv : v ∈ L∗) : u ++ v ∈ L∗ := by
  rw [← Language.one_add_self_mul_kstar_eq_kstar L]
  exact .inr (Language.append_mem_mul hu hv)

/-- Blanks are taken one by one. -/
theorem blanks_append_mem_kstar {L : Language Char} (hL : ∀ c, isBlank c = true → [c] ∈ L)
    (hb : ∀ c ∈ b, isBlank c = true) (hv : v ∈ L∗) : b ++ v ∈ L∗ := by
  induction b with
  | nil => exact hv
  | cons c b ih =>
      obtain ⟨hc, hb⟩ := List.forall_mem_cons.1 hb
      exact append_mem_kstar (u := [c]) (hL c hc) (ih hb)

/-- Padding is empty, or begins with a blank or a comment that more padding follows. -/
theorem mem_padding_iff :
    w ∈ padding ↔ w = [] ∨ ∃ u ∈ units, ∃ v ∈ padding, w = u ++ v := by
  have h : 1 + units * padding = padding :=
    Language.one_add_self_mul_kstar_eq_kstar _
  conv_lhs => rw [← h]
  rw [Language.mem_add, Language.mem_one, Language.mem_mul]
  simp only [eq_comm (b := w)]

theorem nil_mem_padding : [] ∈ padding := Language.nil_mem_kstar _

theorem append_mem_padding (hu : u ∈ units) (hv : v ∈ padding) : u ++ v ∈ padding :=
  append_mem_kstar hu hv

/-- Induction on padding, unit by unit from the front. -/
theorem padding_induction {P : List Char → Prop} (nil : P [])
    (append : ∀ u ∈ units, ∀ v ∈ padding, P v → P (u ++ v)) (hw : w ∈ padding) :
    P w := by
  obtain ⟨us, rfl, hus⟩ := hw
  induction us with
  | nil => exact nil
  | cons u us ih =>
      obtain ⟨hu, hus⟩ := List.forall_mem_cons.1 hus
      exact append u hu us.flatten (Language.join_mem_kstar hus) (ih hus)

theorem mem_blank {c : Char} (hc : isBlank c = true) : [c] ∈ units :=
  .inl ⟨c, hc, rfl⟩

theorem ne_nil_of_mem_unit (hu : u ∈ units) : u ≠ [] := by
  rcases hu with ⟨c, -, rfl⟩ | ⟨body, -, rfl⟩
  · simp
  · simp

/-- What goes on with a closed comment begins with a comment. -/
theorem exists_comment_of_afterClose (h : afterClose t = some rest) :
    ∃ w ∈ comments, '/' :: '*' :: t = w ++ rest := by
  obtain ⟨body, hbody, rfl⟩ := afterClose_eq_some_iff.1 h
  exact ⟨_, ⟨body, hbody, rfl⟩, by simp⟩

/-- No blank begins a comment, and no comment begins another: what a text begins with is
determined. -/
theorem unit_append_inj (hu : u ∈ units) (hw : w ∈ units)
    (h : u ++ x = w ++ y) : u = w ∧ x = y := by
  have hslash : isBlank '/' = false := by decide
  rcases hu with ⟨c, hc, rfl⟩ | ⟨body, hbody, rfl⟩ <;>
    rcases hw with ⟨d, hd, rfl⟩ | ⟨other, hother, rfl⟩
  · simpa using h
  · obtain ⟨rfl, -⟩ := List.cons.inj h
    simp [hslash] at hc
  · obtain ⟨rfl, -⟩ := List.cons.inj h
    simp [hslash] at hd
  · have hx := afterClose_closing (afterClose_eq_none_iff.2 hbody) x
    have hy := afterClose_closing (afterClose_eq_none_iff.2 hother) y
    have htail : body ++ '*' :: '/' :: x = other ++ '*' :: '/' :: y := by simpa using h
    rw [htail, hy] at hx
    obtain rfl := Option.some.inj hx
    exact ⟨List.append_cancel_right h, rfl⟩

/-! ## Stubs -/

/-- Without a star, a text closes nothing. -/
theorem afterClose_append_of_not_mem (h : '*' ∉ u) (v : List Char) :
    afterClose (u ++ v) = afterClose v := by
  induction u with
  | nil => rfl
  | cons c u ih =>
      have hc : c ≠ '*' := fun hc => h (hc ▸ List.mem_cons_self)
      have hu : '*' ∉ u := fun hmem => h (List.mem_cons_of_mem c hmem)
      rw [List.cons_append, afterClose_cons, if_neg (fun hclose => hc hclose.1), ih hu]

/-- A comment that ends began with the opening mark, and its star may be the star of the closing
mark. -/
theorem exists_of_afterComment? (h : afterComment? t = some rest) :
    ∃ x, t = '/' :: '*' :: x ∧ afterClose ('*' :: x) = some rest := by
  cases t with
  | nil => simp [afterComment?] at h
  | cons c t =>
      rw [afterComment?_cons] at h
      split at h
      · next hopen =>
        obtain ⟨x, rfl⟩ := List.head?_eq_some_iff.1 hopen.2
        exact ⟨x, by rw [hopen.1], h⟩
      · simp at h

/-- What is taken for a comment is a comment or a stub. -/
theorem exists_unit_of_afterComment? (h : afterComment? t = some rest) :
    ∃ w ∈ comments + {stub}, t = w ++ rest := by
  obtain ⟨x, rfl, hclose⟩ := exists_of_afterComment? h
  rw [afterClose_cons] at hclose
  split at hclose
  · next hstub =>
    obtain ⟨x, rfl⟩ := List.head?_eq_some_iff.1 hstub.2
    obtain rfl := Option.some.inj hclose
    exact ⟨stub, .inr rfl, rfl⟩
  · obtain ⟨w, hw, htext⟩ := exists_comment_of_afterClose hclose
    exact ⟨w, .inl hw, htext⟩

theorem afterComment?_of_mem_comments (hw : w ∈ comments) (v : List Char) :
    ∃ rest, afterComment? (w ++ v) = some rest := by
  obtain ⟨body, hbody, rfl⟩ := hw
  have hclose := afterClose_closing (afterClose_eq_none_iff.2 hbody) v
  have hopen : ∃ rest, afterClose ('*' :: (body ++ '*' :: '/' :: v)) = some rest := by
    rw [afterClose_cons]
    split
    · exact ⟨_, rfl⟩
    · exact ⟨v, hclose⟩
  simpa [afterComment?] using hopen

theorem afterComment?_stub (v : List Char) : afterComment? (stub ++ v) = some v := rfl

/-- What begins with a comment or a stub is what stripping goes on with. -/
theorem mem_resumed_iff : v ∈ resumed ↔ ∃ rest, afterComment? (trimStart v) = some rest := by
  constructor
  · rintro ⟨b, hb, _, ⟨w, hw, rest, -, rfl⟩, rfl⟩
    have hrest : ∃ next, afterComment? (w ++ rest) = some next := by
      rcases hw with hw | rfl
      · exact afterComment?_of_mem_comments hw rest
      · exact ⟨rest, rfl⟩
    obtain ⟨next, hnext⟩ := hrest
    obtain ⟨x, hx, -⟩ := exists_of_afterComment? hnext
    have hhead : HeadNot isBlank (w ++ rest) := by
      rw [hx]
      exact headNot_cons.2 (by decide)
    exact ⟨next, by rw [trimStart_append hb, trimStart_eq_self hhead, hnext]⟩
  · rintro ⟨rest, h⟩
    obtain ⟨w, hw, htext⟩ := exists_unit_of_afterComment? h
    have hb : v.takeWhile isBlank ∈ Written.blanks0 := isBlank_of_mem_takeWhile v
    have hrest : trimStart v ∈ (comments + {stub}) * ⊤ := htext ▸ Language.append_mem_mul hw trivial
    rw [← takeWhile_append_trimStart v]
    exact Language.append_mem_mul hb hrest

/-- A stub that is resumed begins a comment. -/
theorem exists_comment_of_resumed (h : afterComment? (trimStart v) = some rest) :
    ∃ w ∈ comments, stub ++ v = w ++ rest := by
  obtain ⟨x, hx, hclose⟩ := exists_of_afterComment? h
  have hblanks : '*' ∉ v.takeWhile isBlank := fun hmem =>
    absurd (List.mem_takeWhile_imp hmem) (by decide)
  have hv : afterClose ('/' :: v) = some rest := by
    have hsplit : '/' :: v = '/' :: v.takeWhile isBlank ++ (['/'] ++ '*' :: x) := by
      have := takeWhile_append_trimStart v
      rw [hx] at this
      simp [this]
    rw [hsplit, afterClose_append_of_not_mem (by simp [hblanks]),
      afterClose_append_of_not_mem (by decide), hclose]
  exact exists_comment_of_afterClose hv

/-! ## The normal form -/

/-- Behind what is stripped, no other comment begins. -/
theorem afterComment?_stripComments (s : List Char) : afterComment? (stripComments s) = none := by
  fun_induction stripComments s with
  | case1 s rest hrest ih => exact ih
  | case2 s hnone => exact hnone

theorem stripComments_stripComments (s : List Char) :
    stripComments (stripComments s) = stripComments s := by
  have htrim := trimStart_eq_self (headNot_stripComments s)
  rw [stripComments_of_none (by rw [htrim, afterComment?_stripComments]), htrim]

/-- Behind what is stripped stands no comment. -/
theorem not_prefix_stripComments (hw : w ∈ comments) : ¬w <+: stripComments s := by
  rintro ⟨v, hv⟩
  obtain ⟨rest, h⟩ := afterComment?_of_mem_comments hw v
  rw [hv, afterComment?_stripComments] at h
  simp at h

/-! ## What is stripped -/

/-- What is stripped behind a unit is padding just if it is padding together with the unit. -/
theorem exists_front_append_iff (hu : u ∈ units)
    (hrest : stripComments (u ++ rest) = stripComments rest) :
    (∃ front ∈ padding, u ++ rest = front ++ stripComments (u ++ rest)) ↔
      ∃ front ∈ padding, rest = front ++ stripComments rest := by
  rw [hrest]
  constructor
  · rintro ⟨front, hfront, htext⟩
    rcases mem_padding_iff.1 hfront with rfl | ⟨w, hw, v, hv, rfl⟩
    · -- The unit is stripped, so the front is not empty.
      have hlen := congrArg List.length htext
      have hle := (stripComments_suffix rest).length_le
      have hpos := List.length_pos_iff.2 (ne_nil_of_mem_unit hu)
      simp only [List.nil_append, List.length_append] at hlen
      omega
    · rw [List.append_assoc] at htext
      exact ⟨v, hv, (unit_append_inj hu hw htext).2⟩
  · rintro ⟨front, hfront, htext⟩
    exact ⟨u ++ front, append_mem_padding hu hfront, by rw [List.append_assoc, ← htext]⟩

/-- A unit in front adds one stub at most, so only that one has to be looked at. -/
theorem stubsResumed_append_iff (hu : u ∈ units)
    (hstub : ∀ v, u ++ rest = stub ++ v → v ∈ resumed) :
    StubsResumed (u ++ rest) ↔ StubsResumed rest := by
  constructor
  · intro h front hfront v htext
    refine h (u ++ front) (append_mem_padding hu hfront) v ?_
    rw [List.append_assoc, ← htext]
  · intro h front hfront v htext
    rcases mem_padding_iff.1 hfront with rfl | ⟨w, hw, x, hx, rfl⟩
    · exact hstub v htext
    · rw [List.append_assoc] at htext
      exact h x hx v (unit_append_inj hu hw htext).2

/-- No padding stands in front of a text that begins with no blank and is taken for no comment. -/
theorem eq_nil_of_mem_padding (hblank : HeadNot isBlank t) (hnone : afterComment? t = none)
    (hu : u ∈ padding) (h : t = u ++ v) : u = [] := by
  rcases mem_padding_iff.1 hu with rfl | ⟨w, ⟨c, hc, rfl⟩ | hw, x, -, rfl⟩
  · rfl
  · rw [h] at hblank
    exact absurd hc (by simp [headNot_cons.1 hblank])
  · obtain ⟨rest, hrest⟩ := afterComment?_of_mem_comments hw (x ++ v)
    rw [← List.append_assoc, ← h, hnone] at hrest
    simp at hrest

/-- The text is stripped of padding if and only if its stubs are resumed. -/
def StripsPadding (s : List Char) : Prop :=
  (∃ front ∈ padding, s = front ++ stripComments s) ↔ StubsResumed s

/-- The condition on stubs is carried over a unit in front. -/
theorem StripsPadding.unit_append (hu : u ∈ units)
    (hstrip : stripComments (u ++ rest) = stripComments rest)
    (hstub : ∀ v, u ++ rest = stub ++ v → v ∈ resumed) (h : StripsPadding rest) :
    StripsPadding (u ++ rest) :=
  (exists_front_append_iff hu hstrip).trans (h.trans (stubsResumed_append_iff hu hstub).symm)

theorem StripsPadding.blanks_append (hb : ∀ c ∈ b, isBlank c = true) (h : StripsPadding rest) :
    StripsPadding (b ++ rest) := by
  induction b with
  | nil => exact h
  | cons c b ih =>
      obtain ⟨hc, hb⟩ := List.forall_mem_cons.1 hb
      have hstrip : stripComments ([c] ++ (b ++ rest)) = stripComments (b ++ rest) :=
        stripComments_blanks_append (by simpa using hc) _
      refine StripsPadding.unit_append (u := [c]) (mem_blank hc) hstrip (fun v htext => ?_) (ih hb)
      obtain ⟨rfl, -⟩ := List.cons.inj htext
      exact absurd hc (by decide)

/-- A stub is no comment, so a text that begins with it is no padding. -/
theorem stub_append_not_mem_padding (hb : ∀ c ∈ b, isBlank c = true) : stub ++ b ∉ padding := by
  intro hmem
  rcases mem_padding_iff.1 hmem with hnil | ⟨w, ⟨c, hc, rfl⟩ | ⟨body, -, rfl⟩, x, -, htext⟩
  · exact absurd hnil (by simp [stub])
  · obtain ⟨rfl, -⟩ := List.cons.inj htext
    exact absurd hc (by decide)
  · have hbody : '/' :: b = body ++ '*' :: '/' :: x := by simpa [stub] using htext
    have hstar : '*' ∈ '/' :: b := by rw [hbody]; simp
    exact absurd (hb '*' (by simpa using hstar)) (by decide)

/-- A stub that nothing resumes is stripped, and is no padding. -/
theorem stripsPadding_stub (h : afterComment? (trimStart v) = none) :
    StripsPadding (stub ++ v) := by
  have hstrip : stripComments (stub ++ v) = trimStart v := by
    rw [stripComments_of_some (show afterComment? (trimStart (stub ++ v)) = some v from rfl),
      stripComments_of_none h]
  refine iff_of_false ?_ fun hall => ?_
  · rintro ⟨front, hmem, htext⟩
    have hfront : front = stub ++ v.takeWhile isBlank := by
      rw [hstrip] at htext
      refine (List.append_left_inj (trimStart v)).1 (htext.symm.trans ?_)
      rw [List.append_assoc, takeWhile_append_trimStart]
    exact stub_append_not_mem_padding (fun _ hc => List.mem_takeWhile_imp hc) (hfront ▸ hmem)
  · obtain ⟨rest, hrest⟩ := mem_resumed_iff.1 (hall [] nil_mem_padding v rfl)
    simp [h] at hrest

/-- A comment that is stripped, at once or in two steps. -/
theorem StripsPadding.comment_append (hw : w ∈ comments) (hs : t = w ++ rest)
    (hstrip : stripComments t = stripComments rest)
    (hstub : ∀ v, t = stub ++ v → v ∈ resumed) (h : StripsPadding rest) : StripsPadding t := by
  subst hs
  exact StripsPadding.unit_append (.inr hw) hstrip hstub h

/-- A comment at the head, or a stub.  What resumes a stub closes a comment that the stub begins,
and both are stripped one after the other. -/
theorem stripsPadding_of_afterComment? (h : afterComment? t = some rest)
    (ih : ∀ v : List Char, v.length < t.length → StripsPadding v) : StripsPadding t := by
  obtain ⟨x, rfl, hclose⟩ := exists_of_afterComment? h
  have htrim : trimStart ('/' :: '*' :: x) = '/' :: '*' :: x :=
    trimStart_eq_self (headNot_cons.2 (by decide))
  have hstrip := stripComments_of_some (htrim.symm ▸ h)
  rw [afterClose_cons] at hclose
  split at hclose
  · next hstub =>
    obtain ⟨v, rfl⟩ := List.head?_eq_some_iff.1 hstub.2
    obtain rfl := Option.some.inj hclose
    -- Behind the stub, the next text that is taken for a comment ends the comment.
    cases hnext : afterComment? (trimStart v) with
    | none => exact stripsPadding_stub hnext
    | some next =>
        obtain ⟨w, hw, htext⟩ := exists_comment_of_resumed hnext
        refine .comment_append hw htext (hstrip.trans (stripComments_of_some hnext)) ?_ ?_
        · intro y hy
          obtain rfl := (List.append_right_inj stub).1 hy
          exact mem_resumed_iff.2 ⟨next, hnext⟩
        · refine ih next ?_
          have hlt := length_lt_of_afterComment? hnext
          have hle := length_trimStart_le v
          simp only [List.length_cons]
          omega
  · next hstub =>
    obtain ⟨w, hw, htext⟩ := exists_comment_of_afterClose hclose
    refine .comment_append hw htext hstrip ?_ (ih rest (length_lt_of_afterComment? h))
    intro y hy
    obtain rfl := (List.cons.inj (List.cons.inj hy).2).2
    exact absurd ⟨rfl, rfl⟩ hstub

/-- **What is stripped is padding** if and only if every stub is resumed. -/
theorem exists_padding_iff (s : List Char) :
    (∃ front ∈ padding, s = front ++ stripComments s) ↔ StubsResumed s := by
  have hb := isBlank_of_mem_takeWhile s
  suffices h : StripsPadding (trimStart s) by
    rw [← takeWhile_append_trimStart s]
    exact h.blanks_append hb
  cases h : afterComment? (trimStart s) with
  | none =>
      have hhead := headNot_trimStart s
      refine iff_of_true ⟨[], nil_mem_padding, ?_⟩ fun front hfront v htext => ?_
      · rw [stripComments_trimStart, stripComments_of_none h]
        rfl
      · obtain rfl := eq_nil_of_mem_padding hhead h hfront htext
        rw [htext] at h
        exact absurd h (by simp [afterComment?_stub])
  | some rest =>
      refine stripsPadding_of_afterComment? h fun v hv => ?_
      have := length_trimStart_le s
      exact exists_padding_iff v
termination_by s.length
decreasing_by omega

/-- Only blanks, comments and stubs are stripped. -/
theorem exists_front (s : List Char) :
    ∃ front ∈ (units + {stub})∗, s = front ++ stripComments s := by
  have hblank (c : Char) (hc : isBlank c = true) : [c] ∈ units + {stub} := .inl (mem_blank hc)
  fun_induction stripComments s with
  | case1 s rest hrest ih =>
      obtain ⟨w, hw, htext⟩ := exists_unit_of_afterComment? hrest
      obtain ⟨front, hfront, hsplit⟩ := ih
      have hblanks := isBlank_of_mem_takeWhile s
      have hw : w ∈ units + {stub} := hw.imp_left .inr
      refine ⟨s.takeWhile isBlank ++ (w ++ front),
        blanks_append_mem_kstar hblank hblanks (append_mem_kstar hw hfront), ?_⟩
      rw [List.append_assoc, List.append_assoc, ← hsplit, ← htext, takeWhile_append_trimStart]
  | case2 s hnone =>
      refine ⟨s.takeWhile isBlank, ?_, (takeWhile_append_trimStart s).symm⟩
      simpa using
        blanks_append_mem_kstar hblank (isBlank_of_mem_takeWhile s) (Language.nil_mem_kstar _)

/-- **Stripping.**  Blanks, comments and stubs are stripped from the front of a text, up to where
no blank and no comment stands; stripping again changes nothing; and what is stripped is blanks and
comments alone if and only if each stub goes on with a comment or a stub. -/
theorem stripComments_normal (s : List Char) :
    (∃ front ∈ (units + {stub})∗, s = front ++ stripComments s) ∧
      stripComments s <:+ s ∧ HeadNot isBlank (stripComments s) ∧
      (∀ w ∈ comments, ¬w <+: stripComments s) ∧
      stripComments (stripComments s) = stripComments s ∧
      ((∃ front ∈ padding, s = front ++ stripComments s) ↔ StubsResumed s) :=
  ⟨exists_front s, stripComments_suffix s, headNot_stripComments s,
    fun _ hw => not_prefix_stripComments hw, stripComments_stripComments s, exists_padding_iff s⟩

/-- A stub in front of a statement is stripped, and is no comment. -/
theorem not_forall_stripComments :
    ¬∀ s, ∃ front ∈ padding, s = front ++ stripComments s := by
  intro h
  have hnone : afterComment? (trimStart [' ', 'a']) = none := by decide
  have hstubs := (exists_padding_iff (stub ++ [' ', 'a'])).1 (h _)
  obtain ⟨rest, hrest⟩ := mem_resumed_iff.1 (hstubs [] nil_mem_padding _ rfl)
  rw [hnone] at hrest
  exact Option.some_ne_none rest hrest.symm

end TableDdl.Script
