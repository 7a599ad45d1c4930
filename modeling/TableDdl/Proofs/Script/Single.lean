import TableDdl.Proofs.Script.Reading

/-!
# One statement of a script

A statement survives in a script if its line breaks stand outside of strings (`BreaksOutside`) and
the script is cut at most where the statement ends (`CutsAtEnd`).  Cleaning then only lays it out
anew, and the cut gives it back whole (`statements_cleanLines`).  A statement that is not like this
makes the script fail, whatever stands behind it (`spoils_of_torn`, `spoils_of_cut`); so does one
whose quotes are not closed when another statement comes next (`spoils_of_open`).
-/

namespace TableDdl.Script

open Text Mode

/-- The line breaks of the text stand outside of strings. -/
def BreaksOutside (text : List Char) : Prop :=
  ∀ u c v, text = u ++ c :: v → isLineBreak c = true → plain.scanString u = .plain

/-- Behind a cut of the text there are only blanks. -/
def CutsAtEnd (text : List Char) : Prop :=
  ∀ u v, text = u ++ ';' :: v → plain.scan u = .plain → ∀ c ∈ v, isBlank c = true

theorem forall_append_cons_iff {P : List Char → Char → List Char → Prop} {text : List Char} :
    (∀ u c v, text = u ++ c :: v → P u c v) ↔
      ∀ i : Fin text.length, P (text.take i) text[i] (text.drop (i + 1)) := by
  constructor
  · intro h i
    refine h _ _ _ ?_
    rw [Fin.getElem_fin, List.getElem_cons_drop, List.take_append_drop]
  · rintro h u c v rfl
    have hi : u.length < (u ++ c :: v).length := by simp
    simpa using h ⟨u.length, hi⟩

instance : DecidablePred BreaksOutside := fun _ =>
  decidable_of_iff _ forall_append_cons_iff.symm

/-- Whether a text is cut at most at its end is seen at each of its semicolons. -/
theorem cutsAtEnd_iff {text : List Char} :
    CutsAtEnd text ↔ ∀ u c v, text = u ++ c :: v → c = ';' → plain.scan u = .plain →
      v.all isBlank = true := by
  simp only [List.all_eq_true]
  exact ⟨fun h u _ v huv hc => h u v (hc ▸ huv), fun h u v huv => h u ';' v huv rfl⟩

instance : DecidablePred CutsAtEnd := fun _ =>
  decidable_of_iff _ (cutsAtEnd_iff.trans forall_append_cons_iff).symm

/-- The first piece of the text is taken for a statement and is not spelled like one. -/
def Spoils (text : List Char) : Prop :=
  ∃ piece pieces', pieces text = piece :: pieces' ∧ (∃ c ∈ piece, Sql.isMark c = true) ∧
    Sql.isCreateTable piece = true ∧ ¬Statement.Spelled piece

variable {d : Dialect} {s u v x x' : List Char} {t : Table}

/-! ## Marks -/

theorem isMark_of_isOpening {c : Char} (hc : isOpening c = true) : Sql.isMark c = true := by
  simp only [isOpening, Bool.or_eq_true, beq_iff_eq] at hc
  rcases hc with (rfl | rfl) | rfl <;> decide

/-- Quotes that are open have been opened. -/
theorem exists_isMark_of_scan (h : plain.scan u ≠ .plain) : ∃ c ∈ u, Sql.isMark c = true := by
  by_contra hnone
  refine h (scan_plain fun c hc => ?_)
  by_contra hopen
  exact hnone ⟨c, hc, isMark_of_isOpening (Bool.of_not_eq_false hopen)⟩

/-- Strings are open only behind a quote, which is a mark. -/
theorem exists_isMark_of_scanString (h : plain.scanString u ≠ .plain) :
    ∃ c ∈ u, Sql.isMark c = true := by
  by_contra hnone
  refine h (scanString_plain fun c hc => ?_)
  by_contra hquote
  have hopening : isOpening c = true :=
    Bool.or_eq_true_iff.2 (.inl (Bool.of_not_eq_false hquote))
  exact hnone ⟨c, hc, isMark_of_isOpening hopening⟩

/-! ## Where strings are broken -/

/-- Where nothing outside of strings opens a comment, a text is clear, or a first line break stands
in a string. -/
theorem clear_or_exists_break (m : Mode) (text : List Char)
    (h : ∀ u c v, text = u ++ c :: v → m.scanString u = .plain → opensComment c = false) :
    Clear m text ∨ ∃ u c v, text = u ++ c :: v ∧ Clear m u ∧ m.scanString u ≠ .plain ∧
      isLineBreak c = true := by
  induction text generalizing m with
  | nil => exact .inl trivial
  | cons c text ih =>
      by_cases hbreak : m ≠ .plain ∧ isLineBreak c = true
      · exact .inr ⟨[], c, text, rfl, trivial, hbreak.1, hbreak.2⟩
      · have hhead : (m = .plain → opensComment c = false) ∧ (m ≠ .plain → isLineBreak c = false) :=
          ⟨fun hm => h [] c text rfl hm, fun hm => by
            by_contra hc
            exact hbreak ⟨hm, Bool.of_not_eq_false hc⟩⟩
        rcases ih (m.stepString c) fun u x v hu => h (c :: u) x v (by rw [hu]; rfl) with
          hclear | ⟨u, x, v, rfl, hu, hm, hx⟩
        · exact .inl ⟨hhead.1, hhead.2, hclear⟩
        · exact .inr ⟨c :: u, x, v, rfl, ⟨hhead.1, hhead.2, hu⟩, hm, hx⟩

/-- What may stand outside of strings opens no comment. -/
theorem not_opensComment_of_admits {c : Char} (h : plain.admits c = true) :
    opensComment c = false := by
  by_contra hc
  simp only [opensComment, Bool.not_eq_false, Bool.or_eq_true, beq_iff_eq] at hc
  rcases hc with (rfl | rfl) | rfl <;> exact absurd h (by decide)

theorem not_opensComment_of_isBlank {c : Char} (h : isBlank c = true) : opensComment c = false :=
  not_opensComment_of_admits (by simp [admits, h])

/-- Outside of strings nothing in a statement opens a comment. -/
theorem not_opensComment_of_spelled {c : Char} (h : Statement.Spelled (u ++ c :: v))
    (hu : plain.scanString u = .plain) : opensComment c = false := by
  rcases h.admits_or with ha | ⟨-, hc | ⟨rfl, -⟩⟩
  · rw [hu] at ha
    exact not_opensComment_of_admits ha
  · exact not_opensComment_of_isBlank hc
  · decide

/-- Outside of strings, what is spelled like a statement has nothing that opens a comment. -/
theorem clear_of_spelled (h : Statement.Spelled s) (hbreaks : BreaksOutside s) :
    Clear .plain s := by
  rcases clear_or_exists_break .plain s fun u c v huv hu =>
    not_opensComment_of_spelled (huv ▸ h) hu with hclear | ⟨u, c, v, huv, -, hm, hc⟩
  · exact hclear
  · exact absurd (hbreaks u c v huv hc) hm

/-! ## Cuts in a statement -/

/-- A semicolon neither opens nor closes a string. -/
theorem stepString_semicolon_eq_plain {m : Mode} (hm : m.HasQuote) :
    m.stepString ';' = .plain ↔ m = .plain := by
  cases m with
  | plain => simp [stepString, Quoted.isQuote]
  | quoted q =>
      have hq : ';' ≠ q := by
        rintro rfl
        rw [HasQuote] at hm
        exact absurd hm (by decide)
      simp [stepString, step, hq]
  | escaped q => simp [stepString, step]

/-- A semicolon of a statement stands outside of strings just if only blanks are behind it. -/
theorem scanString_eq_plain_iff_of_spelled (h : Statement.Spelled (u ++ ';' :: v)) :
    plain.scanString u = .plain ↔ ∀ c ∈ v, isBlank c = true := by
  refine ⟨h.of_semicolon, fun hv => ?_⟩
  have hq : (plain.scanString u).HasQuote := HasQuote.scanString (m := .plain) trivial u
  have hall := h.scanString
  rw [scanString_append, scanString_cons] at hall
  exact (stepString_semicolon_eq_plain hq).1
    ((scanString_of_isBlank hv (HasQuote.scanString hq [';'])).1 hall)

/-- Blanks around a statement that is read do not count. -/
theorem read_trim (h : (Statement.read d s).result = .ok t) :
    (Statement.read d (trim s)).result = .ok t ∧ HeadNot isBlank (trim s) := by
  obtain ⟨c, rest, hc, hword⟩ :=
    Sql.exists_trimStart_of_isCreateTable (Sql.isCreateTable_of_read h)
  obtain ⟨more, hmore⟩ := exists_trim_eq_cons hc
  have hhead : HeadNot isBlank (trim s) := by
    rw [hmore]
    exact headNot_cons.2 (not_isBlank_of_isWord hword)
  obtain ⟨b, hb, hend⟩ := exists_trimEnd (trimStart s)
  have hm := (Statement.spelled_of_read h).scanString
  rw [← scanString_trimStart, hend, scanString_append] at hm
  have hm := (scanString_of_isBlank hb (HasQuote.scanString (m := .plain) trivial _)).1 hm
  refine ⟨Statement.read_of_relaid ?_ h, hhead⟩
  have hdrop : Relaid Statement.Drops (plain.scanString (trimEnd (trimStart s))) b [] :=
    .ended ⟨hm, Statement.ends_iff_trimStart.2 (.inl (trimStart_eq_nil_iff.2 hb)), rfl⟩
  have happ := hdrop.append
  rwa [List.append_nil, ← hend, ← trim, ← trimStart_eq_self hhead] at happ

/-! ## Statements that survive -/

/-- Endings may be put behind texts that are alike. -/
theorem Relaid.append_ended {E : Mode → List Char → List Char → Prop} {m : Mode} {r r' : List Char}
    (h : Relaid Exactly m x x') (hr : E (m.scanString x) r r') :
    Relaid E m (x ++ r) (x' ++ r') := by
  induction h with
  | ended h =>
      obtain ⟨rfl, rfl⟩ := h
      exact .ended hr
  | char c _ ih => exact .char c (ih hr)
  | blanks hne hb hne' hb' _ ih =>
      rw [scanString_append, scanString_plain_of_isBlank hb] at hr
      rw [List.append_assoc, List.append_assoc]
      exact .blanks hne hb hne' hb' (ih hr)

/-- What a statement has before it ends is read like the whole. -/
theorem read_of_front {x x' r : List Char} (h : (Statement.read d (x ++ r)).result = .ok t)
    (hx : Relaid Exactly .plain x x') (hm : plain.scanString x = .plain)
    (hr : Statement.Ends r) : (Statement.read d x').result = .ok t := by
  have hdrop : Relaid Statement.Drops .plain (x ++ r) (x' ++ []) :=
    hx.append_ended ⟨hm, hr, rfl⟩
  rw [List.append_nil] at hdrop
  exact Statement.read_of_relaid (hdrop.trimStart Statement.ending_drops) h

/-- A readable statement is not blank, so it counts as one. -/
theorem statementOf_of_read (h : (Statement.read d s).result = .ok t) : statementOf s = [trim s] :=
  statementOf_of_isCreateTable (Sql.isCreateTable_of_read h)

/-- A statement that is cut at most where it ends, and laid out anew, is one statement. -/
theorem statements_of_front {x x' r : List Char} (h : (Statement.read d (x ++ r)).result = .ok t)
    (hx : Relaid Exactly .plain x x') (hr : ∀ c ∈ r, isBlank c = true)
    (hcuts : CutsAtEnd (x ++ r)) :
    ∃ s, statements x' = [s] ∧ HeadNot isBlank s ∧ (Statement.read d s).result = .ok t := by
  have hspelled := Statement.spelled_of_read h
  rcases exists_firstCut .plain x' with hx' | ⟨u', v', rfl, hu', hm'⟩
  · -- nothing is cut, so all of the text is the statement
    have hm := hspelled.scanString
    rw [scanString_append] at hm
    have hquote : (plain.scanString x).HasQuote := HasQuote.scanString (m := .plain) trivial x
    have hplain := (scanString_of_isBlank hr hquote).1 hm
    have hends := Statement.ends_iff_trimStart.2 (.inl (trimStart_eq_nil_iff.2 hr))
    have hread := read_of_front h hx hplain hends
    refine ⟨trim x', ?_, (read_trim hread).2, (read_trim hread).1⟩
    rw [statements_eq, pieces_of_uncut hx', List.flatMap_singleton, statementOf_of_read hread]
  · obtain ⟨u, v, rfl, hu, hv⟩ := hx.exactly_symm.of_semicolon rfl
    rw [List.append_assoc, List.cons_append] at h hspelled hcuts
    have hcut : plain.scan u = .plain := by rw [← hu.scan_eq (M := .plain) trivial, hm']
    have hblank := hcuts u (v ++ r) rfl hcut
    have hm := (scanString_eq_plain_iff_of_spelled hspelled).2 hblank
    have hsemicolon : trimStart (';' :: (v ++ r)) = ';' :: (v ++ r) :=
      trimStart_eq_self (headNot_cons.2 (by decide))
    have hends := Statement.ends_iff_trimStart.2 (.inr ⟨v ++ r, hblank, hsemicolon⟩)
    have hread := read_of_front h hu.exactly_symm hm hends
    have hv' := hv.exactly_symm.isBlank_of_isBlank (List.forall_mem_append.1 hblank).1
    have hnone := statements_append_blanks hv' []
    refine ⟨trim u', ?_, (read_trim hread).2, (read_trim hread).1⟩
    rw [statements_append_cut hm', ← List.nil_append v', hnone, statements_eq,
      pieces_of_uncut hu', List.flatMap_singleton, statementOf_of_read hread]
    rfl

/-! ## Statements that do not -/

/-- Marks are no blanks, so both texts have them. -/
theorem Relaid.exists_isMark {m : Mode} (h : Relaid Exactly m x x')
    (hmark : ∃ c ∈ x, Sql.isMark c = true) : ∃ c ∈ x', Sql.isMark c = true := by
  induction h with
  | ended h =>
      obtain ⟨rfl, rfl⟩ := h
      exact hmark
  | char c _ ih =>
      obtain ⟨y, hy, hm⟩ := hmark
      rcases List.mem_cons.1 hy with rfl | hy
      · exact ⟨y, List.mem_cons_self, hm⟩
      · obtain ⟨z, hz, hm⟩ := ih ⟨y, hy, hm⟩
        exact ⟨z, List.mem_cons_of_mem c hz, hm⟩
  | blanks hne hb hne' hb' _ ih =>
      obtain ⟨y, hy, hm⟩ := hmark
      rcases List.mem_append.1 hy with hy | hy
      · rw [Sql.isMark, hb y hy] at hm
        exact absurd hm Bool.false_ne_true
      · obtain ⟨z, hz, hm⟩ := ih ⟨y, hy, hm⟩
        exact ⟨z, List.mem_append_right _ hz, hm⟩

/-- A text spoils a script if its first piece begins like a statement, up to a mark, and is not
spelled like one. -/
theorem spoils_of_pieces {text p : List Char} {ps : List (List Char)}
    (hcreate : Sql.isCreateTable (u ++ v) = true) (hx : Relaid Exactly .plain u x')
    (hmark : ∃ c ∈ u, Sql.isMark c = true) (hpieces : pieces text = (x' ++ p) :: ps)
    (hspelled : ¬Statement.Spelled (x' ++ p)) : Spoils text := by
  obtain ⟨c, hc, hm⟩ := hx.exists_isMark hmark
  refine ⟨_, _, hpieces, ⟨c, List.mem_append_left p hc, hm⟩, ?_, hspelled⟩
  rw [Sql.isCreateTable_append_iff ⟨c, hc, hm⟩]
  exact Sql.isCreateTable_of_relaid ending_exactly (hx.trimStart ending_exactly)
    ((Sql.isCreateTable_append_iff hmark v).1 hcreate)

/-- The first piece ends at the first semicolon outside of quotes. -/
theorem pieces_append_firstCut (hu : Uncut .plain u) (hm : plain.scan u = .plain)
    (v : List Char) : pieces (u ++ ';' :: v) = (u ++ []) :: pieces v := by
  rw [pieces_append_cut hm, pieces_of_uncut hu, List.append_nil, List.singleton_append]

/-- A statement that is torn in a string spoils a script. -/
theorem spoils_of_torn {r' : List Char} (hcreate : Sql.isCreateTable (x ++ v) = true)
    (hspelled : Statement.Spelled (x ++ v)) (hx : Relaid Exactly .plain x x')
    (hm : plain.scanString x ≠ .plain) (hr' : r' = [] ∨ ∃ w, r' = '\n' :: w) :
    Spoils (x' ++ r') := by
  rcases exists_firstCut .plain x' with hx' | ⟨u', v', rfl, hu', hm'⟩
  · obtain ⟨p, ps, ⟨q, hpq⟩, hpieces⟩ := exists_pieces_append hx' r'
    refine spoils_of_pieces hcreate hx (exists_isMark_of_scanString hm) hpieces fun hsp => hm ?_
    rw [hx.scanString_eq]
    cases p with
    | nil =>
        rw [List.append_nil] at hsp
        exact hsp.scanString
    | cons c p =>
        rcases hr' with rfl | ⟨w, rfl⟩
        · simp at hpq
        · obtain ⟨rfl, -⟩ := List.cons.inj hpq
          exact hsp.of_newline
  · obtain ⟨u, w, rfl, hu, -⟩ := hx.exactly_symm.of_semicolon rfl
    rw [List.append_assoc, List.cons_append] at hcreate hspelled
    have hopen : plain.scanString u ≠ .plain := by
      intro hclosed
      have hblank := hspelled.of_semicolon hclosed
      refine hm ?_
      rw [scanString_append, hclosed, scanString_cons]
      exact scanString_plain_of_isBlank (List.forall_mem_append.1 hblank).1
    rw [List.append_assoc, List.cons_append]
    refine spoils_of_pieces hcreate hu.exactly_symm (exists_isMark_of_scanString hopen)
      (pieces_append_firstCut hu' hm' _) fun hsp => hopen ?_
    rw [List.append_nil] at hsp
    rw [← hu.scanString_eq]
    exact hsp.scanString

/-- Where only blanks are behind its first cut, a text is cut only there. -/
theorem cutsAtEnd_of_firstCut (hu : Uncut .plain u) (hv : ∀ c ∈ v, isBlank c = true) :
    CutsAtEnd (u ++ ';' :: v) := by
  intro u' v' h hm
  rcases Statement.append_eq_append_cons h with ⟨w, rfl, -⟩ | ⟨w, rfl, hw⟩
  · exact absurd hm (hu u' w rfl)
  · cases w with
    | nil =>
        obtain ⟨-, rfl⟩ := List.cons.inj hw
        exact hv
    | cons c w =>
        obtain ⟨-, rfl⟩ := List.cons.inj hw
        exact (List.forall_mem_cons.1 (List.forall_mem_append.1 hv).2).2

theorem cutsAtEnd_of_uncut (hu : Uncut .plain u) : CutsAtEnd u :=
  fun u' v' h hm => absurd hm (hu u' v' h)

theorem Uncut.append_blanks {m : Mode} {b : List Char} (hu : Uncut m u)
    (hb : ∀ c ∈ b, isBlank c = true) : Uncut m (u ++ b) :=
  uncut_append hu (uncut_of_not_mem _ (not_mem_of_isBlank hb))

/-- A statement that is cut in the middle spoils a script. -/
theorem spoils_of_cut {r : List Char} (hcreate : Sql.isCreateTable (x ++ r) = true)
    (hspelled : Statement.Spelled (x ++ r)) (hx : Relaid Exactly .plain x x')
    (hr : ∀ c ∈ r, isBlank c = true) (hcuts : ¬CutsAtEnd (x ++ r)) (more : List Char) :
    Spoils (x' ++ more) := by
  rcases exists_firstCut .plain x' with hx' | ⟨u', v', rfl, hu', hm'⟩
  · have huncut := hx.exactly_symm.uncut (M := .plain) trivial hx'
    exact absurd (cutsAtEnd_of_uncut (huncut.append_blanks hr)) hcuts
  · obtain ⟨u, v, rfl, hu, -⟩ := hx.exactly_symm.of_semicolon rfl
    rw [List.append_assoc, List.cons_append] at hcreate hspelled hcuts
    have hopen : plain.scanString u ≠ .plain := fun hclosed => hcuts <|
      cutsAtEnd_of_firstCut (hu.uncut (M := .plain) trivial hu') (hspelled.of_semicolon hclosed)
    rw [List.append_assoc, List.cons_append]
    refine spoils_of_pieces hcreate hu.exactly_symm (exists_isMark_of_scanString hopen)
      (pieces_append_firstCut hu' hm' _) fun hsp => hopen ?_
    rw [List.append_nil] at hsp
    rw [← hu.scanString_eq]
    exact hsp.scanString

/-- Quotes are only closed by quotes. -/
theorem uncut_of_not_isOpening {m : Mode} (hm : m ≠ .plain) (hq : m.HasQuote)
    (hu : ∀ c ∈ u, isOpening c = false) : Uncut m u ∧ m.scan u ≠ .plain := by
  induction u generalizing m with
  | nil => exact ⟨uncut_nil m, hm⟩
  | cons c u ih =>
      obtain ⟨hc, hu⟩ := List.forall_mem_cons.1 hu
      have hstep : m.step c ≠ .plain := by
        cases m with
        | plain => exact absurd rfl hm
        | quoted q =>
            have hcq : c ≠ q := by
              rintro rfl
              rw [HasQuote, hc] at hq
              exact Bool.false_ne_true hq
            rw [step, if_neg hcq]
            split <;> simp
        | escaped q => simp [step]
      obtain ⟨huncut, hscan⟩ := ih hstep (hq.step c) hu
      exact ⟨uncut_cons (by simp [isCut, hm]) huncut, hscan⟩

/-- Quotes that are open at the end of a text are open where only blanks are left, and nothing is
cut before. -/
theorem uncut_of_open {r : List Char} (hr : ∀ y ∈ r, isBlank y = true) (hcuts : CutsAtEnd (x ++ r))
    (hopen : plain.scan (x ++ r) ≠ .plain) : Uncut .plain x ∧ plain.scan x ≠ .plain := by
  constructor
  · intro u v huv hm
    rw [huv, List.append_assoc, List.cons_append] at hcuts hopen
    have hblank := hcuts u (v ++ r) rfl hm
    rw [scan_append, hm, scan_cons] at hopen
    exact hopen (scan_plain_of_isBlank hblank)
  · intro hclosed
    rw [scan_append, hclosed] at hopen
    exact hopen (scan_plain_of_isBlank hr)

/-- In quotes that are open, nothing is cut up to the first character behind the semicolon that is
not blank. -/
theorem uncut_semicolon {b b' : List Char} (hx : Uncut .plain x) (hopen : plain.scan x ≠ .plain)
    (hb : ∀ y ∈ b, isBlank y = true) (hb' : ∀ y ∈ b', isBlank y = true) (c : Char) :
    Uncut .plain (x ++ (b ++ ';' :: (b' ++ [c]))) := by
  have hnone : ∀ y ∈ b ++ ';' :: b', isOpening y = false := by
    refine List.forall_mem_append.2 ⟨fun y hy => not_isOpening_of_isBlank (hb y hy), ?_⟩
    exact List.forall_mem_cons.2 ⟨by decide, fun y hy => not_isOpening_of_isBlank (hb' y hy)⟩
  obtain ⟨huncut, hscan⟩ :=
    uncut_of_not_isOpening hopen (HasQuote.scan (m := .plain) trivial x) hnone
  have hlast := uncut_append huncut (uncut_cons (c := c) (by simp [isCut, hscan]) (uncut_nil _))
  rw [List.append_assoc, List.cons_append] at hlast
  exact uncut_append hx hlast

/-- A statement whose quotes are not closed spoils a script in which anything comes next. -/
theorem spoils_of_open {r b b' : List Char} {c : Char}
    (hcreate : Sql.isCreateTable (x ++ r) = true) (hspelled : Statement.Spelled (x ++ r))
    (hx : Relaid Exactly .plain x x') (hr : ∀ y ∈ r, isBlank y = true)
    (hcuts : CutsAtEnd (x ++ r)) (hopen : plain.scan (x ++ r) ≠ .plain)
    (hb : ∀ y ∈ b, isBlank y = true) (hb' : ∀ y ∈ b', isBlank y = true) (hc : isBlank c = false)
    (more : List Char) : Spoils (x' ++ (b ++ ';' :: (b' ++ c :: more))) := by
  obtain ⟨huncut, hopenx⟩ := uncut_of_open hr hcuts hopen
  have hopenx' : plain.scan x' ≠ .plain := by rwa [← hx.scan_eq (M := .plain) trivial]
  have hfirst := uncut_semicolon (hx.uncut (M := .plain) trivial huncut) hopenx' hb hb' c
  obtain ⟨p, ps, -, hpieces⟩ := exists_pieces_append hfirst more
  have htext : x' ++ (b ++ ';' :: (b' ++ [c])) ++ more =
      x' ++ (b ++ ';' :: (b' ++ c :: more)) := by simp
  rw [htext, List.append_assoc] at hpieces
  refine spoils_of_pieces hcreate hx (exists_isMark_of_scan hopenx) hpieces fun hsp => ?_
  -- outside of strings the semicolon would end the statement
  have hm := hspelled.scanString
  rw [scanString_append] at hm
  have hm := (scanString_of_isBlank hr (HasQuote.scanString (m := .plain) trivial x)).1 hm
  have hclosed : plain.scanString (x' ++ b) = .plain := by
    rw [scanString_append, ← hx.scanString_eq, hm, scanString_plain_of_isBlank hb]
  have hpiece : x' ++ (b ++ ';' :: (b' ++ [c]) ++ p) = x' ++ b ++ ';' :: (b' ++ c :: p) := by simp
  rw [hpiece] at hsp
  have hblank := hsp.of_semicolon hclosed c (by simp)
  rw [hc] at hblank
  exact Bool.false_ne_true hblank

/-! ## Cleaning and cutting -/

/-- The second text ends where the first one has only blanks left. -/
def Trails : Mode → List Char → List Char → Prop :=
  fun m r r' => m = .plain ∧ (∀ c ∈ r, isBlank c = true) ∧ r' = []

/-- Of a clear text, cleaning takes blanks behind it and lays out anew what stands before them. -/
theorem exists_relaid_cleanLines (hclear : Clear .plain s) (hm : plain.scanString s = .plain) :
    ∃ x r, trimStart s = x ++ r ∧ (∀ c ∈ r, isBlank c = true) ∧
      Relaid Exactly .plain x (trimStart (cleanLines s)) := by
  have htrails : ∀ b r, (∀ c ∈ b, isBlank c = true) → Trails .plain r [] →
      Trails .plain (b ++ r) [] :=
    fun b r hb ⟨_, hr, _⟩ => ⟨rfl, List.forall_mem_append.2 ⟨hb, hr⟩, rfl⟩
  obtain ⟨x, x', r, r', hs, hs', hx, -, hr, rfl⟩ :=
    (relaid_cleanLines_self htrails ⟨rfl, by simp, rfl⟩ hclear hm).split
  rw [List.append_nil] at hs'
  exact ⟨x, r, hs, hr, hs' ▸ hx⟩

theorem cutsAtEnd_trimStart : CutsAtEnd (trimStart s) ↔ CutsAtEnd s := by
  have hb := isBlank_of_mem_takeWhile s
  have hscan (u : List Char) : plain.scan (s.takeWhile isBlank ++ u) = plain.scan u := by
    rw [scan_append, scan_plain_of_isBlank hb]
  constructor
  · intro h u v huv hm
    rw [← takeWhile_append_trimStart s] at huv
    rcases Statement.append_eq_append_cons huv with ⟨w, hw, -⟩ | ⟨u', rfl, htail⟩
    · exact absurd (by rw [hw]; simp) (not_mem_of_isBlank hb)
    · rw [hscan] at hm
      exact h u' v htail hm
  · intro h u v huv hm
    refine h (s.takeWhile isBlank ++ u) v ?_ (by rwa [hscan])
    rw [List.append_assoc, ← huv, takeWhile_append_trimStart]

theorem scan_trimStart (s : List Char) : plain.scan (trimStart s) = plain.scan s := by
  have hb := isBlank_of_mem_takeWhile s
  have hall := scan_append .plain (s.takeWhile isBlank) (trimStart s)
  rw [takeWhile_append_trimStart, scan_plain_of_isBlank hb] at hall
  exact hall.symm

theorem statements_trimStart (text : List Char) :
    statements (trimStart text) = statements text := by
  have hb := isBlank_of_mem_takeWhile text
  have hall := statements_blanks_append hb (trimStart text)
  rw [takeWhile_append_trimStart] at hall
  exact hall.symm

/-- Blanks in front of a statement do not count. -/
theorem read_of_trimStart_eq {s' : List Char} (hs : trimStart s' = trimStart s)
    (h : (Statement.read d s).result = .ok t) : (Statement.read d s').result = .ok t := by
  have hm := (Statement.spelled_of_read h).scanString
  rw [← scanString_trimStart] at hm
  have hend : Relaid Statement.Drops (plain.scanString (trimStart s)) [] [] :=
    .ended ⟨hm, by decide, rfl⟩
  have happ := hend.append
  rw [List.append_nil] at happ
  exact Statement.read_of_relaid (by rwa [hs]) h

/-- Blanks in front of a statement do not count. -/
theorem read_trimStart (h : (Statement.read d s).result = .ok t) :
    (Statement.read d (trimStart s)).result = .ok t :=
  read_of_trimStart_eq (trimStart_eq_self (headNot_trimStart s)) h

/-- **One statement**: cleaned and cut, a text whose line breaks stand outside of strings and whose
cuts stand at its end has the same table. -/
theorem statements_cleanLines (h : (Statement.read d s).result = .ok t)
    (hbreaks : BreaksOutside s) (hcuts : CutsAtEnd s) :
    ∃ piece, statements (cleanLines s) = [piece] ∧ HeadNot isBlank piece ∧
      (Statement.read d piece).result = .ok t := by
  have hspelled := Statement.spelled_of_read h
  obtain ⟨x, r, hs, hr, hx⟩ :=
    exists_relaid_cleanLines (clear_of_spelled hspelled hbreaks) hspelled.scanString
  rw [← statements_trimStart]
  exact statements_of_front (hs ▸ read_trimStart h) hx hr (hs ▸ cutsAtEnd_trimStart.2 hcuts)

end TableDdl.Script
