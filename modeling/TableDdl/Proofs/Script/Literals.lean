import TableDdl.Proofs.Grammar.Literals
import TableDdl.Proofs.Script.Cutting

/-!
# Literals in scripts

A script is cut without a look at the grammar, and yet it is never cut inside of what the grammar
takes for a string or a name, unless the name has a backtick on one side only.  Both end at the
same quote: what a string may hold between its quotes keeps the scan between them (`Enclosed`), an
escape of the grammar being one of the characters that a backslash hides.

So a literal that stands outside of quotes belongs to one piece, and the script behind it is cut as
if it stood alone (`pieces_around_literal`).
-/

namespace TableDdl.Script

open Text Mode

/-! ## Literals between their quotes -/

theorem isOpening_of_isQuote {q : Char} (hq : Quoted.isQuote q = true) : isOpening q = true :=
  isOpening_iff.2 (by rcases Quoted.isQuote_iff.1 hq with rfl | rfl <;> decide)

/-- What the grammar takes between quotes stays between them for the scan. -/
theorem enclosed_of_spells {q : Char} (hq : Quoted.isQuote q = true) {content body : List Char}
    (h : Quoted.Spells content body) : Enclosed q body := by
  have htick : q ≠ '`' := by
    rintro rfl
    exact absurd hq (by decide)
  induction h with
  | nil => exact .nil
  | plain hc _ ih =>
      refine .char (Quoted.ne_of_isPlain hq hc) (fun hslash => ?_) ih
      rw [hslash] at hc
      exact absurd hc (by decide)
  | escape _ _ ih => exact .hidden htick ih

/-- A name has neither backtick nor backslash in it. -/
theorem enclosed_of_words {name : List Char} (hname : ∀ c ∈ name, isWord c = true) :
    Enclosed '`' name := by
  induction name with
  | nil => exact .nil
  | cons c name ih =>
      obtain ⟨hc, hname⟩ := List.forall_mem_cons.1 hname
      refine .char ?_ (fun _ => rfl) (ih hname)
      rintro rfl
      exact absurd hc (by decide)

theorem not_isOpening_of_isWord {c : Char} (hc : isWord c = true) : isOpening c = false := by
  by_contra h
  have hmem := isOpening_iff.1 (Bool.of_not_eq_false h)
  simp only [List.mem_cons, List.not_mem_nil, or_false] at hmem
  rcases hmem with rfl | rfl | rfl <;> exact absurd hc (by decide)

/-- A text of which nothing is cut and that leaves no quotes open. -/
def Whole (v : List Char) : Prop := Uncut .plain v ∧ plain.scan v = .plain

/-- No word is cut, since it holds neither a quote nor a semicolon. -/
theorem whole_words {name : List Char} (hname : ∀ c ∈ name, isWord c = true) : Whole name := by
  refine ⟨uncut_of_not_mem _ fun h => ?_, scan_plain fun c hc =>
    not_isOpening_of_isWord (hname c hc)⟩
  exact absurd (hname _ h) (by decide)

theorem whole_stretch {q : Char} {body : List Char} (hq : isOpening q = true)
    (h : Enclosed q body) : Whole (q :: body ++ [q]) :=
  ⟨uncut_quoted_stretch hq h, scan_quoted_stretch hq h⟩

/-- What the grammar takes as a string is whole. -/
theorem whole_of_run {v w : List Char} {next : Cursor} {value : String}
    (hrun : Grammar.quotedString.run (.start (v ++ w)) = .matched next value)
    (hnext : next.pos = v.length) : Whole v := by
  cases hd : Quoted.decode (v ++ w) with
  | none =>
      rw [Grammar.run_quotedString_of_none hd] at hrun
      simp at hrun
  | some found =>
      obtain ⟨content, n⟩ := found
      rw [Grammar.run_quotedString_of_decode hd, Outcome.matched.injEq] at hrun
      obtain ⟨written, rest, htext, hl, rfl⟩ := Quoted.decode_eq_some_iff_isLiteral.1 hd
      have hlen : written.length = v.length := by
        rw [← hnext, ← hrun.1, Cursor.pos_advance]
        exact (Nat.zero_add _).symm
      obtain ⟨rfl, -⟩ := List.append_inj htext hlen.symm
      obtain ⟨q, body, hq, hs, rfl⟩ := Quoted.isLiteral_iff.1 hl
      exact whole_stretch (isOpening_of_isQuote hq) (enclosed_of_spells hq hs)

/-! ## In a script -/

/-- What is whole joins the last piece before it to the first piece behind it. -/
theorem exists_pieces_around {u v : List Char} (hu : plain.scan u = .plain) (hv : Whole v)
    (w : List Char) :
    ∃ front p q behind, pieces u = front ++ [p] ∧ pieces w = q :: behind ∧
      pieces (u ++ v ++ w) = front ++ (p ++ v ++ q) :: behind := by
  obtain ⟨front, p, hp, happend⟩ := exists_lastPiece u
  obtain ⟨q, behind, -, hq⟩ := exists_firstPiece .plain w
  refine ⟨front, p, q, behind, hp, ?_, ?_⟩
  · rw [pieces, hq]
    rfl
  · rw [List.append_assoc, happend, hu, piecesFrom_append_of_uncut hv.1, hv.2, hq]
    simp

/-- **Literals**: a string that the grammar takes, or a name with a backtick on both sides or on
neither, is not cut where it stands outside of quotes, and no quotes are open behind it.  So it
belongs to one piece, and what stands behind it is cut as it is by itself. -/
theorem pieces_around_literal {u v w : List Char} (hu : plain.scan u = .plain)
    (hv : (∃ next value, Grammar.quotedString.run (.start (v ++ w)) = .matched next value ∧
        next.pos = v.length) ∨
      ∃ name, name ≠ [] ∧ (∀ c ∈ name, isWord c = true) ∧ (v = name ∨ v = '`' :: name ++ ['`'])) :
    (∀ v₁ c v₂, v = v₁ ++ c :: v₂ → isCut (plain.scan (u ++ v₁)) c = false) ∧
      plain.scan (u ++ v) = .plain ∧
      ∃ front p q behind, pieces u = front ++ [p] ∧ pieces w = q :: behind ∧
        pieces (u ++ v ++ w) = front ++ (p ++ v ++ q) :: behind := by
  have hwhole : Whole v := by
    rcases hv with ⟨next, value, hrun, hnext⟩ | ⟨name, -, hname, rfl | rfl⟩
    · exact whole_of_run hrun hnext
    · exact whole_words hname
    · exact whole_stretch rfl (enclosed_of_words hname)
  refine ⟨fun v₁ c v₂ hsplit => ?_, ?_, exists_pieces_around hu hwhole w⟩
  · rw [scan_append, hu]
    by_contra hcut
    obtain ⟨hplain, rfl⟩ := isCut_eq_true_iff.1 (Bool.of_not_eq_false hcut)
    exact hwhole.1 v₁ v₂ hsplit hplain
  · rw [scan_append, hu, hwhole.2]

/-- A string with a semicolon and with quotes of both kinds in it, between two semicolons. -/
theorem pieces_around_literal_quotedSemicolon :
    pieces "a;b='x;\\'\\\"';c".toList = ["a".toList, "b='x;\\'\\\"'".toList, "c".toList] := by
  have hrun : Grammar.quotedString.run (.start ("'x;\\'\\\"'".toList ++ ";c".toList)) =
      .matched (.atPosition "'x;\\'\\\"';c".toList 8) "x;'\"" := by decide +kernel
  obtain ⟨-, -, front, p, q, behind, hu, hw, hpieces⟩ :=
    pieces_around_literal (u := "a;b=".toList) (by decide) (.inl ⟨_, _, hrun, by decide⟩)
  have hu' : pieces "a;b=".toList = ["a".toList] ++ ["b=".toList] := by decide
  have hw' : pieces ";c".toList = [] :: ["c".toList] := by decide
  obtain ⟨rfl, hp⟩ := List.append_inj' (hu.symm.trans hu') rfl
  obtain ⟨rfl, rfl⟩ := List.cons.inj (hw.symm.trans hw')
  obtain rfl := List.singleton_inj.1 hp
  exact hpieces

end TableDdl.Script
