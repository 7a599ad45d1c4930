import TableDdl.Proofs.Script.Single

/-!
# What stands around a statement

Blanks around a statement do not count, and one semicolon may end it, but not two
(`Statement.read_surrounded`).

The text with something behind it and the text alone are read side by side: they are the same up to
where the text ends (`Longer`), no grammar goes on there, and what is left of the longer text is
what is left of the shorter one and what stands behind it.  Since both are matched or neither is,
the argument runs in both directions.
-/

namespace TableDdl.Statement

open Grammar Script Text

variable {d : Dialect} {s text more w x y : List Char} {t : Table} {next : Cursor}

/-- Behind blanks the first text goes on with `s`, and the second one ends. -/
def Longer (s : List Char) : Mode → List Char → List Char → Prop :=
  fun m r r' => m = .plain ∧ trimStart r = s ∧ r' = []

/-- More text behind both sides is an ending, where neither side can go on with it. -/
theorem ending_longer (hs : Stops s) : Ending (Longer s) where
  stops := fun _ _ ⟨_, hr, hr'⟩ => by
    subst hr hr'
    exact ⟨hs, fun c hc => absurd hc (by simp [Text.trimStart])⟩
  trimStart := fun ⟨hm, hr, hr'⟩ => by
    subst hr'
    exact ⟨hm, by rw [trimStart_eq_self (headNot_trimStart _), hr], rfl⟩
  blank := fun ⟨_, _, hr'⟩ _ => by
    subst hr'
    exact headNot_nil _

/-! ## Where two texts end -/

/-- Where the second text has only blanks left, the first one has what stands behind them. -/
theorem trimStart_of_longer (hs : Stops s) (h : Relaid (Longer s) .plain x y)
    (hy : ∀ c ∈ y, isBlank c = true) : trimStart x = s := by
  have htrim := h.trimStart (ending_longer hs)
  rw [trimStart_eq_nil_iff.2 hy] at htrim
  rcases htrim.plain_cases with ⟨-, hx, -⟩ | ⟨c, u, u', -, hu', -⟩ | ⟨z, z', u, u', -, hu', -, -⟩
  · rwa [trimStart_eq_self (headNot_trimStart x)] at hx
  · simp at hu'
  · simp at hu'

/-- With only blanks behind it, the first text ends where the second one does. -/
theorem ends_of_longer (h : Relaid (Longer []) .plain x y) (hy : Ends y) : Ends x := by
  have hs : Stops [] := fun c hc => absurd hc (by simp)
  rw [ends_iff_trimStart]
  rcases ends_iff_trimStart.1 hy with hnil | ⟨b, hb, hsemi⟩
  · exact .inl (trimStart_of_longer hs h (trimStart_eq_nil_iff.1 hnil))
  · have htrim := h.trimStart (ending_longer hs)
    rw [hsemi] at htrim
    rcases htrim.plain_cases with ⟨-, -, hend⟩ | ⟨c, u, u', hu, hu', hrest⟩ |
      ⟨z, z', u, u', -, hu', -, hz'⟩
    · simp at hend
    · obtain ⟨rfl, rfl⟩ := List.cons.inj hu'
      rw [Mode.stepString_plain (by decide)] at hrest
      exact .inr ⟨u, trimStart_eq_nil_iff.1 (trimStart_of_longer hs hrest hb), hu⟩
    · obtain ⟨rfl, -⟩ := List.cons.inj hu'
      exact absurd hz' (by decide)

/-- A text that does not end in a semicolon is a statement with blanks behind it. -/
theorem isBlank_of_ends (hnext : ∃ u, text = u ++ y) (hlast : (trimEnd text).getLast? ≠ some ';')
    (hy : Ends y) : ∀ c ∈ y, isBlank c = true := by
  obtain ⟨u, rfl⟩ := hnext
  refine hy.cases.resolve_right ?_
  rintro ⟨b, b', rfl, -, hb'⟩
  refine hlast ?_
  have htext : u ++ (b ++ ';' :: b') = ((u ++ b) ++ [';']) ++ b' := by simp
  rw [htext, trimEnd_append hb', trimEnd_concat (by decide), List.getLast?_concat]

/-! ## Longer texts -/

/-- **Longer texts**: a statement is matched with the same table when it is padded and something
stands behind it that no grammar reads. -/
theorem matched_of_append (hw : ∀ c ∈ w, isBlank c = true) (hmore : Stops (trimStart more))
    (hread : (read d text).result = .ok t)
    (hm : (Sql.tableSchema d).run (.start text) = .matched next t) :
    ∃ next', (Sql.tableSchema d).run (.start (w ++ (text ++ more))) = .matched next' t ∧
      Relaid (Longer (trimStart more)) .plain next'.rest next.rest := by
  have hscan := (spelled_of_read hread).scanString
  have hend : Relaid (Longer (trimStart more)) (Mode.plain.scanString text) more [] :=
    .ended ⟨hscan, rfl, rfl⟩
  have happ := hend.append
  rw [List.append_nil] at happ
  have hstart : Relaid (Longer (trimStart more)) .plain
      (trimStart (Cursor.start (w ++ (text ++ more))).rest)
      (trimStart (Cursor.start text).rest) := by
    rw [Cursor.rest_start, Cursor.rest_start, trimStart_append hw]
    exact happ.trimStart (ending_longer hmore)
  have halike := Sql.tableSchema_alike (ending_longer hmore) (fun _ _ _ h => h.1) d hstart
  rw [hm] at halike
  obtain ⟨next', t', hm', hrest, rfl⟩ := halike.exists_matched_left
  exact ⟨next', hm', hrest⟩

/-- A padded statement has the table of the statement. -/
theorem read_pad {w' : List Char} (hw : ∀ c ∈ w, isBlank c = true)
    (hw' : ∀ c ∈ w', isBlank c = true) (h : (read d text).result = .ok t) :
    (read d (w ++ text ++ w')).result = .ok t := by
  obtain ⟨next, hm, hends⟩ := result_read_eq_ok_iff.1 h
  have hnil := trimStart_eq_nil_iff.2 hw'
  have hstops : Stops (trimStart w') := by
    rw [hnil]
    exact fun c hc => absurd hc (by simp)
  obtain ⟨next', hm', hrest⟩ := matched_of_append hw hstops h hm
  rw [hnil] at hrest
  rw [List.append_assoc]
  exact result_read_eq_ok_iff.2 ⟨next', hm', ends_of_longer hrest hends⟩

/-- Blanks around a statement do not count. -/
theorem read_pad_iff {w' : List Char} (hw : ∀ c ∈ w, isBlank c = true)
    (hw' : ∀ c ∈ w', isBlank c = true) :
    (read d (w ++ text ++ w')).result = .ok t ↔ (read d text).result = .ok t := by
  refine ⟨fun h => ?_, read_pad hw hw'⟩
  have htrim := (read_trim h).1
  rw [List.append_assoc, trim_blanks_append hw, trim_append_blanks hw'] at htrim
  obtain ⟨b, b', hb, hb', htext⟩ := exists_trim text
  rw [htext]
  exact read_pad hb hb' htrim

/-- What is left of a statement that does not end in a semicolon, with something behind it. -/
theorem matched_of_semicolon (hw : ∀ c ∈ w, isBlank c = true)
    (hlast : (trimEnd text).getLast? ≠ some ';') {w' : List Char}
    (hw' : ∀ c ∈ w', isBlank c = true) (h : (read d text).result = .ok t) (s : List Char) :
    ∃ next, (Sql.tableSchema d).run (.start (w ++ (text ++ (w' ++ ';' :: s)))) = .matched next t ∧
      trimStart next.rest = ';' :: s := by
  obtain ⟨next, hm, hends⟩ := result_read_eq_ok_iff.1 h
  have hsemi : trimStart (w' ++ ';' :: s) = ';' :: s := by
    rw [trimStart_append hw', trimStart_eq_self (headNot_cons.2 (by decide))]
  have hstops : Stops (trimStart (w' ++ ';' :: s)) := by
    rw [hsemi]
    exact fun c hc => (Option.some.inj hc).symm
  obtain ⟨next', hm', hrest⟩ := matched_of_append hw hstops h hm
  obtain ⟨u, hu⟩ := took_of_run hm
  have hblank := isBlank_of_ends ⟨u, hu.1⟩ hlast hends
  exact ⟨next', hm', (trimStart_of_longer hstops hrest hblank).trans hsemi⟩

/-- **What stands around a statement**: blanks around it do not count, and it may be ended by one
semicolon, but not by two. -/
theorem read_surrounded {w₁ w₂ w₃ : List Char} (hw₁ : ∀ c ∈ w₁, isBlank c = true)
    (hw₂ : ∀ c ∈ w₂, isBlank c = true) (hw₃ : ∀ c ∈ w₃, isBlank c = true) (d : Dialect)
    (text : List Char) (t : Table) :
    ((read d (w₁ ++ text ++ w₂)).result = .ok t ↔ (read d text).result = .ok t) ∧
      ((read d text).result = .ok t → (trimEnd text).getLast? ≠ some ';' →
        (read d (w₁ ++ text ++ w₂ ++ ';' :: w₃)).result = .ok t ∧
          (read d (w₁ ++ text ++ w₂ ++ ';' :: w₃ ++ [';'])).result =
            .error (.unparsed ";")) := by
  refine ⟨?_, fun h hlast => ⟨?_, ?_⟩⟩
  · exact read_pad_iff hw₁ hw₂
  · obtain ⟨next, hm, hrest⟩ := matched_of_semicolon hw₁ hlast hw₂ h w₃
    have htext : w₁ ++ text ++ w₂ ++ ';' :: w₃ = w₁ ++ (text ++ (w₂ ++ ';' :: w₃)) := by simp
    rw [htext]
    exact result_read_eq_ok_iff.2 ⟨next, hm, ends_iff_trimStart.2 (.inr ⟨w₃, hw₃, hrest⟩)⟩
  · obtain ⟨next, hm, hrest⟩ := matched_of_semicolon hw₁ hlast hw₂ h (w₃ ++ [';'])
    have htext : w₁ ++ text ++ w₂ ++ ';' :: w₃ ++ [';'] =
        w₁ ++ (text ++ (w₂ ++ ';' :: (w₃ ++ [';']))) := by simp
    have hafter : afterStatement next.rest = [';'] := by
      have hend : trimEnd ((';' :: w₃) ++ [';']) = (';' :: w₃) ++ [';'] :=
        trimEnd_concat (by decide)
      rw [afterStatement, trim, hrest, ← List.cons_append, hend, List.cons_append]
      exact trim_blanks_append (v := [';']) hw₃
    rw [htext, read, hm]
    dsimp only
    rw [hafter]
    rfl

/-- A relaxed statement that ends in a name, which any word character behind it would change. -/
def openEnd : List Char := "CREATE TABLE t (a INT) ENGINE = e".toList

/-- What `openEnd` creates. -/
def openEndTable : Table := ⟨"t", [⟨"a", ⟨.int, 0⟩, ""⟩], ⟨"e", "", "", ""⟩⟩

theorem read_surrounded_openEnd :
    (read ⟨true, false⟩ (['\n'] ++ openEnd ++ ['\t'])).result = .ok openEndTable ∧
      (read ⟨true, false⟩ (['\n'] ++ openEnd ++ ['\t'] ++ ';' :: [' '])).result =
        .ok openEndTable ∧
      (read ⟨true, false⟩ (['\n'] ++ openEnd ++ ['\t'] ++ ';' :: [' '] ++ [';'])).result =
        .error (.unparsed ";") := by
  have hread : (read ⟨true, false⟩ openEnd).result = .ok openEndTable := by decide +kernel
  have hlast : (trimEnd openEnd).getLast? ≠ some ';' := by decide +kernel
  have hfeed : ∀ c ∈ ['\n'], isBlank c = true := List.forall_mem_singleton.2 (by decide)
  have htab : ∀ c ∈ ['\t'], isBlank c = true := List.forall_mem_singleton.2 (by decide)
  have hspace : ∀ c ∈ [' '], isBlank c = true := List.forall_mem_singleton.2 (by decide)
  have hall := read_surrounded hfeed htab hspace ⟨true, false⟩ openEnd openEndTable
  exact ⟨hall.1.2 hread, hall.2 hread hlast⟩

end TableDdl.Statement
