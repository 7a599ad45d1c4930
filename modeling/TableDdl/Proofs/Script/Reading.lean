import TableDdl.Proofs.Script.Cleaning
import TableDdl.Proofs.Sql.Heads
import TableDdl.Proofs.Sql.Lexemes
import TableDdl.Script.Basic

/-!
# What a script comes to

A script has a table for each of its statements that is taken for one that creates a table, if all
of these are read (`result_readTables_cons`).  In particular a first piece that is taken for such a
statement and is not spelled like one ends the reading (`readTables_ne_ok`).
-/

namespace TableDdl.Script

open Text Mode

variable {d : Dialect} {piece script : List Char} {rest : List (List Char)} {ts : List Table}

/-! ## One statement after the other -/

/-- A statement that creates no table is skipped, and the rest decides. -/
theorem result_readTables_skip (h : Sql.isCreateTable (stripComments piece) = false) :
    (readTables d (piece :: rest)).result = .ok ts ↔ (readTables d rest).result = .ok ts := by
  rw [readTables]
  rw [h, if_neg Bool.false_ne_true, Logged.result_bind_eq_ok_iff]
  constructor
  · rintro ⟨_, -, hts⟩
    exact hts
  · intro hts
    exact ⟨(), rfl, hts⟩

/-- A statement that creates a table gives the first table, and the rest the others. -/
theorem result_readTables_cons (h : Sql.isCreateTable (stripComments piece) = true) :
    (readTables d (piece :: rest)).result = .ok ts ↔
      ∃ t us, (Statement.read d (stripComments piece)).result = .ok t ∧
        (readTables d rest).result = .ok us ∧ ts = t :: us := by
  rw [readTables]
  rw [h, if_pos rfl, Logged.result_bind_eq_ok_iff]
  constructor
  · rintro ⟨t, ht, h⟩
    obtain ⟨us, hus, hts⟩ := Logged.result_bind_eq_ok_iff.1 h
    exact ⟨t, us, ht, hus, (Except.ok.inj hts).symm⟩
  · rintro ⟨t, us, ht, hus, rfl⟩
    exact ⟨t, ht, Logged.result_bind_eq_ok_iff.2 ⟨us, hus, rfl⟩⟩

/-- Statements without tables are skipped. -/
theorem not_isCreateTable_of_readTables {xs : List (List Char)}
    (h : (readTables d xs).result = .ok []) :
    ∀ s ∈ xs, Sql.isCreateTable (stripComments s) = false := by
  induction xs with
  | nil => simp
  | cons x xs ih =>
      by_cases hx : Sql.isCreateTable (stripComments x) = true
      · obtain ⟨t, us, -, -, hnil⟩ := (result_readTables_cons hx).1 h
        exact absurd hnil (by simp)
      · have hx := Bool.of_not_eq_true hx
        exact List.forall_mem_cons.2 ⟨hx, ih ((result_readTables_skip hx).1 h)⟩

/-- A table is that of the one statement there is. -/
theorem read_of_readTables_singleton {t : Table} (h : (readTables d [piece]).result = .ok [t]) :
    (Statement.read d (stripComments piece)).result = .ok t := by
  by_cases hcreate : Sql.isCreateTable (stripComments piece) = true
  · obtain ⟨u, us, hu, -, heq⟩ := (result_readTables_cons hcreate).1 h
    obtain ⟨rfl, -⟩ := List.cons.inj heq
    exact hu
  · have hnil := (result_readTables_skip (Bool.of_not_eq_true hcreate)).1 h
    exact absurd (Except.ok.inj hnil) (by simp)

/-- The result of a script is that of its statements. -/
theorem result_read_eq_ok_iff {name : String} {db : Database} :
    (read d name script).result = .ok db ↔
      ∃ ts, (readTables d (statements (clean script))).result = .ok ts ∧ db = ⟨name, ts⟩ := by
  rw [read, Logged.result_bind_eq_ok_iff]
  constructor
  · rintro ⟨ts, hts, h⟩
    obtain ⟨_, -, hdb⟩ := Logged.result_bind_eq_ok_iff.1 h
    exact ⟨ts, hts, (Except.ok.inj hdb).symm⟩
  · rintro ⟨ts, hts, rfl⟩
    exact ⟨ts, hts, Logged.result_bind_eq_ok_iff.2 ⟨(), rfl, rfl⟩⟩

/-- The tables of a script are those of its statements. -/
theorem result_read_mk_iff {name : String} :
    (read d name script).result = .ok ⟨name, ts⟩ ↔
      (readTables d (statements (clean script))).result = .ok ts := by
  rw [result_read_eq_ok_iff]
  constructor
  · rintro ⟨us, hus, heq⟩
    obtain rfl : ts = us := congrArg Database.tables heq
    exact hus
  · exact fun hts => ⟨ts, hts, rfl⟩

/-! ## Single statements -/

/-- A statement that is read, alone in its piece, adds its table. -/
theorem result_readTables_read {t : Table} (hread : (Statement.read d piece).result = .ok t)
    (hhead : HeadNot isBlank piece) :
    (readTables d (piece :: rest)).result = .ok ts ↔
      ∃ us, (readTables d rest).result = .ok us ∧ ts = t :: us := by
  have hcreate := Sql.isCreateTable_of_read hread
  have hstrip : stripComments piece = piece := by
    rw [Sql.stripComments_of_isCreateTable hcreate, trimStart_eq_self hhead]
  rw [result_readTables_cons (by rwa [hstrip]), hstrip]
  constructor
  · rintro ⟨u, us, hu, hus, rfl⟩
    rw [hread] at hu
    obtain rfl := Except.ok.inj hu
    exact ⟨us, hus, rfl⟩
  · rintro ⟨us, hus, rfl⟩
    exact ⟨t, us, hread, hus, rfl⟩

theorem statementOf_of_isCreateTable (h : Sql.isCreateTable piece = true) :
    statementOf piece = [trim piece] := by
  obtain ⟨c, more, htrim, -⟩ := Sql.exists_trimStart_of_isCreateTable h
  rw [statementOf, if_neg]
  intro hall
  rw [trimStart_eq_nil_iff.2 (isAllBlank_iff.1 hall)] at htrim
  simp at htrim

/-- Blanks behind a mark do not matter for whether a text is taken for a statement. -/
theorem isCreateTable_trim (hmark : ∃ c ∈ piece, Sql.isMark c = true)
    (h : Sql.isCreateTable piece = true) : Sql.isCreateTable (trim piece) = true := by
  obtain ⟨b, hb, htext⟩ := exists_trimEnd (trimStart piece)
  rw [← Sql.isCreateTable_trimStart, htext] at h
  refine (Sql.isCreateTable_append_iff ?_ b).1 h
  obtain ⟨c, hc, hcm⟩ := hmark
  have hblank : isBlank c = false := by
    rw [Sql.isMark, Bool.and_eq_true, Bool.not_eq_true'] at hcm
    exact hcm.1
  refine ⟨c, ?_, hcm⟩
  rw [← takeWhile_append_trimStart piece, htext] at hc
  rcases List.mem_append.1 hc with hc | hc
  · rw [List.mem_takeWhile_imp hc] at hblank
    exact absurd hblank.symm Bool.false_ne_true
  · rcases List.mem_append.1 hc with hc | hc
    · exact hc
    · rw [hb c hc] at hblank
      exact absurd hblank.symm Bool.false_ne_true

/-- **Errors**: a script whose first piece is taken for a statement and is not spelled like one has
no tables. -/
theorem readTables_ne_ok {text : List Char} {pieces' : List (List Char)}
    (hpieces : pieces text = piece :: pieces') (hmark : ∃ c ∈ piece, Sql.isMark c = true)
    (hcreate : Sql.isCreateTable piece = true) (hspelled : ¬Statement.Spelled piece) :
    (readTables d (statements text)).result ≠ .ok ts := by
  intro hts
  have htrim := isCreateTable_trim hmark hcreate
  have hhead : HeadNot isBlank (trim piece) := by
    obtain ⟨c, more, hc, hword⟩ := Sql.exists_trimStart_of_isCreateTable hcreate
    obtain ⟨more', hmore⟩ := exists_trim_eq_cons hc
    rw [hmore]
    exact headNot_cons.2 (not_isBlank_of_isWord hword)
  have hstrip : stripComments (trim piece) = trim piece := by
    rw [Sql.stripComments_of_isCreateTable htrim, trimStart_eq_self hhead]
  rw [statements_eq, hpieces, List.flatMap_cons, statementOf_of_isCreateTable hcreate,
    List.singleton_append, result_readTables_cons (by rwa [hstrip]), hstrip] at hts
  obtain ⟨t, -, ht, -, -⟩ := hts
  exact hspelled (Statement.spelled_of_read ht).of_trim

end TableDdl.Script
