import TableDdl.Proofs.Script.Strings

/-!
# Where a script is cut

A script falls into pieces at its cuts, the semicolons outside of quotes.  Up to its first cut a
text is one piece (`Uncut`); behind a cut the pieces are those of the rest alone
(`pieces_append_cut`); and what is put behind a text changes its last piece only
(`exists_lastPiece`).
-/

namespace TableDdl.Text

theorem trim_blanks_append {b v : List Char} (hb : ∀ c ∈ b, isBlank c = true) :
    trim (b ++ v) = trim v := by
  rw [trim, trimStart_append hb, trim]

/-- Trimming in front stops before what stands behind. -/
theorem trimStart_append_of_not_blank {u : List Char} (hu : trimStart u ≠ []) (v : List Char) :
    trimStart (u ++ v) = trimStart u ++ v := by
  rw [trimStart, List.dropWhile_append, if_neg, trimStart]
  rwa [List.isEmpty_iff]

/-- Blanks behind a text are trimmed with its own. -/
theorem trim_append_blanks {u b : List Char} (hb : ∀ c ∈ b, isBlank c = true) :
    trim (u ++ b) = trim u := by
  by_cases hu : trimStart u = []
  · have hall := trimStart_eq_nil_iff.1 hu
    rw [trim_eq_nil_iff.2 hall, trim_eq_nil_iff]
    exact List.forall_mem_append.2 ⟨hall, hb⟩
  · rw [trim, trimStart_append_of_not_blank hu, trimEnd_append hb, trim]

/-- A piece that is all blank is not kept. -/
theorem isAllBlank_iff {t : List Char} : isAllBlank t = true ↔ ∀ c ∈ t, isBlank c = true := by
  rw [isAllBlank, List.all_eq_true]

end TableDdl.Text

namespace TableDdl.Script

open Text Mode

/-! ## Cuts -/

/-- The text, which stands in mode `m`, has no cut. -/
def Uncut (m : Mode) (text : List Char) : Prop :=
  ∀ u v, text = u ++ ';' :: v → m.scan u ≠ .plain

theorem uncut_nil (m : Mode) : Uncut m [] := fun u v h => by simp at h

/-- A script is cut at a semicolon outside of quotes, and only there. -/
theorem isCut_eq_true_iff {m : Mode} {c : Char} : isCut m c = true ↔ m = .plain ∧ c = ';' := by
  simp [isCut]

/-- The first character of a text that is not cut does not cut it. -/
theorem Uncut.not_isCut {m : Mode} {c : Char} {text : List Char} (h : Uncut m (c :: text)) :
    isCut m c = false := by
  by_contra hcut
  obtain ⟨rfl, rfl⟩ := isCut_eq_true_iff.1 (Bool.of_not_eq_false hcut)
  exact h [] text rfl rfl

theorem Uncut.tail {m : Mode} {c : Char} {text : List Char} (h : Uncut m (c :: text)) :
    Uncut (m.step c) text :=
  fun u v huv => h (c :: u) v (by rw [huv]; rfl)

/-- A character that cuts nothing may stand in front of an uncut text. -/
theorem uncut_cons {m : Mode} {c : Char} {text : List Char} (hcut : isCut m c = false)
    (h : Uncut (m.step c) text) : Uncut m (c :: text) := by
  intro u v huv
  cases u with
  | nil =>
      obtain ⟨rfl, -⟩ := List.cons.inj huv
      rintro rfl
      exact absurd hcut (by decide)
  | cons d u =>
      obtain ⟨rfl, rfl⟩ := List.cons.inj huv
      exact h u v rfl

/-- A text is not cut if neither part of it is, the second in the mode that the first leads to. -/
theorem uncut_append {m : Mode} {u v : List Char} (hu : Uncut m u) (hv : Uncut (m.scan u) v) :
    Uncut m (u ++ v) := by
  induction u generalizing m with
  | nil => exact hv
  | cons c u ih => exact uncut_cons hu.not_isCut (ih hu.tail hv)

/-- Without semicolons there are no cuts. -/
theorem uncut_of_not_mem (m : Mode) {text : List Char} (h : ';' ∉ text) : Uncut m text :=
  fun u v huv => absurd (by rw [huv]; simp) h

/-- A text has no cut, or it has a first one. -/
theorem exists_firstCut (m : Mode) (text : List Char) :
    Uncut m text ∨ ∃ u v, text = u ++ ';' :: v ∧ Uncut m u ∧ m.scan u = .plain := by
  induction text generalizing m with
  | nil => exact .inl (uncut_nil m)
  | cons c text ih =>
      by_cases hcut : isCut m c = true
      · obtain ⟨rfl, rfl⟩ := isCut_eq_true_iff.1 hcut
        exact .inr ⟨[], text, rfl, uncut_nil _, rfl⟩
      · have hcut := Bool.of_not_eq_true hcut
        rcases ih (m.step c) with h | ⟨u, v, rfl, hu, hm⟩
        · exact .inl (uncut_cons hcut h)
        · exact .inr ⟨c :: u, v, rfl, uncut_cons hcut hu, hm⟩

/-! ## Pieces -/

/-- What the first piece has begun with stands in front of the pieces. -/
theorem exists_firstPiece (m : Mode) (text : List Char) :
    ∃ p ps, p <+: text ∧ ∀ current, piecesFrom m current text = (current.reverse ++ p) :: ps := by
  induction text generalizing m with
  | nil => exact ⟨[], [], List.prefix_refl _, fun current => by simp [piecesFrom]⟩
  | cons c text ih =>
      by_cases hcut : isCut m c = true
      · refine ⟨[], piecesFrom .plain [] text, List.nil_prefix, fun current => ?_⟩
        rw [piecesFrom, if_pos hcut, List.append_nil]
      · obtain ⟨p, ps, hp, hps⟩ := ih (m.step c)
        refine ⟨c :: p, ps, (List.prefix_cons_inj c).2 hp, fun current => ?_⟩
        rw [piecesFrom, if_neg hcut, hps]
        simp

/-- What is not cut goes to the piece at hand. -/
theorem piecesFrom_append_of_uncut {m : Mode} {u : List Char} (hu : Uncut m u)
    (current v : List Char) :
    piecesFrom m current (u ++ v) = piecesFrom (m.scan u) (u.reverse ++ current) v := by
  induction u generalizing m current with
  | nil => rfl
  | cons c u ih =>
      rw [List.cons_append, piecesFrom, if_neg (by simp [hu.not_isCut]), ih hu.tail]
      simp

/-- A text without cuts is one piece. -/
theorem pieces_of_uncut {text : List Char} (h : Uncut .plain text) : pieces text = [text] := by
  have happ := piecesFrom_append_of_uncut h [] []
  rw [List.append_nil, List.append_nil] at happ
  rw [pieces, happ, piecesFrom, List.reverse_reverse]

/-- Without a cut in it, the beginning of a text belongs to its first piece. -/
theorem exists_pieces_append {u : List Char} (hu : Uncut .plain u) (v : List Char) :
    ∃ p ps, p <+: v ∧ pieces (u ++ v) = (u ++ p) :: ps := by
  obtain ⟨p, ps, hp, hps⟩ := exists_firstPiece (plain.scan u) v
  refine ⟨p, ps, hp, ?_⟩
  rw [pieces, piecesFrom_append_of_uncut hu, hps]
  simp

/-- The last piece of a text goes on with whatever is put behind the text. -/
theorem exists_lastPieceFrom (m : Mode) (current u : List Char) :
    ∃ qs q, piecesFrom m current u = qs ++ [q] ∧
      ∀ v, piecesFrom m current (u ++ v) = qs ++ piecesFrom (m.scan u) q.reverse v := by
  induction u generalizing m current with
  | nil => exact ⟨[], current.reverse, rfl, fun v => by simp⟩
  | cons c u ih =>
      by_cases hcut : isCut m c = true
      · obtain ⟨qs, q, hq, hv⟩ := ih .plain []
        obtain ⟨rfl, rfl⟩ := isCut_eq_true_iff.1 hcut
        refine ⟨current.reverse :: qs, q, ?_, fun v => ?_⟩
        · rw [piecesFrom, if_pos hcut, hq]
          rfl
        · rw [List.cons_append, piecesFrom, if_pos hcut, hv]
          rfl
      · obtain ⟨qs, q, hq, hv⟩ := ih (m.step c) (c :: current)
        refine ⟨qs, q, ?_, fun v => ?_⟩
        · rw [piecesFrom, if_neg hcut, hq]
        · rw [List.cons_append, piecesFrom, if_neg hcut, hv]
          rfl

/-- Of the pieces of a text, only the last one depends on what stands behind the text. -/
theorem exists_lastPiece (u : List Char) :
    ∃ qs q, pieces u = qs ++ [q] ∧
      ∀ v, pieces (u ++ v) = qs ++ piecesFrom (plain.scan u) q.reverse v :=
  exists_lastPieceFrom .plain [] u

/-- A text without cuts belongs to the last piece of the text that it stands behind. -/
theorem pieces_append_of_uncut {u v p : List Char} {qs : List (List Char)}
    (hp : pieces u = qs ++ [p]) (hv : Uncut (plain.scan u) v) :
    pieces (u ++ v) = qs ++ [p ++ v] := by
  obtain ⟨qs', q, hq, happ⟩ := exists_lastPiece u
  rw [hp] at hq
  obtain ⟨rfl, hlast⟩ := List.append_inj' hq rfl
  obtain rfl := List.singleton_inj.1 hlast
  have hgo := piecesFrom_append_of_uncut hv p.reverse []
  rw [List.append_nil] at hgo
  rw [happ, hgo, piecesFrom, List.reverse_append, List.reverse_reverse, List.reverse_reverse]

/-- Behind a cut the pieces are those of the rest. -/
theorem pieces_append_cut {u : List Char} (hu : plain.scan u = .plain) (v : List Char) :
    pieces (u ++ ';' :: v) = pieces u ++ pieces v := by
  obtain ⟨qs, q, hq, hv⟩ := exists_lastPiece u
  rw [hv, hu, hq, piecesFrom, if_pos (by decide), List.reverse_reverse, pieces, List.append_assoc]
  rfl

/-! ## Statements -/

/-- A semicolon outside of quotes separates the statements in front from those behind. -/
theorem statements_append_cut {u : List Char} (hu : plain.scan u = .plain) (v : List Char) :
    statements (u ++ ';' :: v) = statements u ++ statements v := by
  rw [statements, pieces_append_cut hu, List.filter_append, List.map_append, statements, statements]

theorem not_mem_of_isBlank {b : List Char} (hb : ∀ c ∈ b, isBlank c = true) : ';' ∉ b :=
  fun h => absurd (hb _ h) (by decide)

/-- Blanks in front do not count for whether a piece is kept. -/
theorem isAllBlank_append_left {b v : List Char} (hb : ∀ c ∈ b, isBlank c = true) :
    isAllBlank (b ++ v) = isAllBlank v := by
  rw [isAllBlank, List.all_append, List.all_eq_true.2 hb, Bool.true_and, isAllBlank]

theorem isAllBlank_append_right {u b : List Char} (hb : ∀ c ∈ b, isBlank c = true) :
    isAllBlank (u ++ b) = isAllBlank u := by
  rw [isAllBlank, List.all_append, List.all_eq_true.2 hb, Bool.and_true, isAllBlank]

/-- The statement in a piece, if there is one. -/
def statementOf (piece : List Char) : List (List Char) :=
  if isAllBlank piece then [] else [trim piece]

/-- The statements are those of the pieces, one after the other. -/
theorem statements_eq (text : List Char) : statements text = (pieces text).flatMap statementOf := by
  rw [statements]
  induction pieces text with
  | nil => rfl
  | cons p ps ih =>
      rw [List.flatMap_cons, ← ih, statementOf]
      by_cases hp : isAllBlank p = true <;> simp [hp]

theorem statementOf_blanks_append {b : List Char} (hb : ∀ c ∈ b, isBlank c = true)
    (piece : List Char) : statementOf (b ++ piece) = statementOf piece := by
  rw [statementOf, isAllBlank_append_left hb, trim_blanks_append hb, statementOf]

/-- Blanks behind a piece do not count for its statement. -/
theorem statementOf_append_blanks {b : List Char} (hb : ∀ c ∈ b, isBlank c = true)
    (piece : List Char) : statementOf (piece ++ b) = statementOf piece := by
  rw [statementOf, isAllBlank_append_right hb, trim_append_blanks hb, statementOf]

theorem scan_plain_of_isBlank {b : List Char} (hb : ∀ c ∈ b, isBlank c = true) :
    plain.scan b = .plain :=
  scan_plain fun c hc => not_isOpening_of_isBlank (hb c hc)

/-- Blanks in front of a script do not count. -/
theorem statements_blanks_append {b : List Char} (hb : ∀ c ∈ b, isBlank c = true)
    (text : List Char) : statements (b ++ text) = statements text := by
  obtain ⟨p, ps, -, hps⟩ := exists_firstPiece .plain text
  have hall := piecesFrom_append_of_uncut (uncut_of_not_mem .plain (not_mem_of_isBlank hb)) [] text
  rw [scan_plain_of_isBlank hb, List.append_nil, hps, List.reverse_reverse] at hall
  have htext := hps []
  rw [List.reverse_nil, List.nil_append] at htext
  rw [statements_eq, statements_eq, pieces, hall, pieces, htext, List.flatMap_cons,
    List.flatMap_cons, statementOf_blanks_append hb]

/-- Blanks behind a script do not count. -/
theorem statements_append_blanks {b : List Char} (hb : ∀ c ∈ b, isBlank c = true)
    (text : List Char) : statements (text ++ b) = statements text := by
  obtain ⟨qs, q, hq, -⟩ := exists_lastPiece text
  have huncut := uncut_of_not_mem (plain.scan text) (not_mem_of_isBlank hb)
  rw [statements_eq, statements_eq, pieces_append_of_uncut hq huncut, hq, List.flatMap_append,
    List.flatMap_append, List.flatMap_singleton, List.flatMap_singleton,
    statementOf_append_blanks hb]

end TableDdl.Script
