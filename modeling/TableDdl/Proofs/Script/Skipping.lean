import Mathlib.Data.List.Forall2
import TableDdl.Proofs.Script.Joining

/-!
# What a script skips

Each statement of a script that begins like one that creates a table is read, in order, and all
others are skipped with a warning.  The script has all the tables or none: the first such statement
that is not accepted ends the reading with its error (`read_cases`).  A statement that any dialect
accepts begins like one that creates a table, so none is lost with a warning.
-/

namespace TableDdl.Script

open Text

variable {d : Dialect} {s : List Char} {e : Error} {xs : List (List Char)}

/-- The statements of a script, without the comments in front of them. -/
def strippedStatements (script : List Char) : List (List Char) :=
  (statements (clean script)).map stripComments

/-- The statement has a table. -/
def Accepted (d : Dialect) (s : List Char) : Prop := ∃ t, (Statement.read d s).result = .ok t

/-- The record for a statement that is skipped. -/
def skipNotice (s : List Char) : Log.Record :=
  ⟨.warning, "Skipping statement " ++ quoteStart (String.ofList s)⟩

/-- The records for the statements that are skipped, in order. -/
def skipNotices (ss : List (List Char)) : List Log.Record :=
  (ss.filter fun s => !Sql.isCreateTable s).map skipNotice

/-- The record for a script with `n` tables. -/
def countNotice (n : Nat) : Log.Record := ⟨.info, "Parsed " ++ toString n ++ " tables"⟩

/-! ## One statement after the other -/

theorem skipNotices_cons_of_skipped (h : Sql.isCreateTable s = false) (ss : List (List Char)) :
    skipNotices (s :: ss) = skipNotice s :: skipNotices ss := by
  simp [skipNotices, h]

theorem skipNotices_cons_of_create (h : Sql.isCreateTable s = true) (ss : List (List Char)) :
    skipNotices (s :: ss) = skipNotices ss := by
  simp [skipNotices, h]

/-- The notice of a skipped statement comes before the notices of the rest. -/
theorem readTables_cons_of_skipped (h : Sql.isCreateTable (stripComments s) = false) :
    readTables d (s :: xs) = (do
      Logged.log .warning ("Skipping statement " ++ quoteStart (String.ofList (stripComments s)))
      readTables d xs) := by
  rw [readTables]
  exact if_neg (by simp [h])

/-- A statement that creates a table is read before the rest, and leaves no notice of its own. -/
theorem readTables_cons_of_create (h : Sql.isCreateTable (stripComments s) = true) :
    readTables d (s :: xs) = (do
      let t ← Statement.read d (stripComments s)
      let ts ← readTables d xs
      return t :: ts) := by
  rw [readTables]
  exact if_pos h

/-- Statements that are all accepted have their tables in order, and the others leave a record
each. -/
theorem readTables_of_accepted
    (h : ∀ x ∈ xs.map stripComments, Sql.isCreateTable x = true → Accepted d x) :
    ∃ ts, List.Forall₂ (fun x t => (Statement.read d x).result = .ok t)
        ((xs.map stripComments).filter Sql.isCreateTable) ts ∧
      readTables d xs = ⟨skipNotices (xs.map stripComments), .ok ts⟩ := by
  induction xs with
  | nil => exact ⟨[], .nil, rfl⟩
  | cons x xs ih =>
      rw [List.map_cons] at h
      obtain ⟨hx, hxs⟩ := List.forall_mem_cons.1 h
      obtain ⟨ts, hts, hread⟩ := ih hxs
      rw [List.map_cons]
      cases hcreate : Sql.isCreateTable (stripComments x) with
      | false =>
          refine ⟨ts, by rwa [List.filter_cons_of_neg (by simp [hcreate])], ?_⟩
          rw [readTables_cons_of_skipped hcreate, hread, skipNotices_cons_of_skipped hcreate]
          rfl
      | true =>
          obtain ⟨t, ht⟩ := hx hcreate
          refine ⟨t :: ts, ?_, ?_⟩
          · rw [List.filter_cons_of_pos hcreate]
            exact .cons ht hts
          · rw [readTables_cons_of_create hcreate, hread, Statement.read_eq_pure ht, pure_bind,
              skipNotices_cons_of_create hcreate]
            exact congrArg (fun r => (⟨r, .ok (t :: ts)⟩ : Logged (List Table)))
              (List.append_nil _)

/-- The first statement that is not accepted ends the reading. -/
theorem readTables_of_rejected
    (hxs : ∀ x ∈ xs.map stripComments, Sql.isCreateTable x = true → Accepted d x)
    (hcreate : Sql.isCreateTable (stripComments s) = true)
    (herror : (Statement.read d (stripComments s)).result = .error e) (ys : List (List Char)) :
    readTables d (xs ++ s :: ys) =
      ⟨skipNotices (xs.map stripComments) ++ (Statement.read d (stripComments s)).records,
        .error e⟩ := by
  obtain ⟨ts, -, hread⟩ := readTables_of_accepted hxs
  rw [readTables_append, hread, readTables_cons_of_create hcreate, Logged.bind_of_error herror]
  rfl

/-- If not all statements are accepted, there is a first that is not. -/
theorem exists_rejected
    (h : ¬∀ x ∈ xs.map stripComments, Sql.isCreateTable x = true → Accepted d x) :
    ∃ before x after, xs = before ++ x :: after ∧
      (∀ y ∈ before.map stripComments, Sql.isCreateTable y = true → Accepted d y) ∧
      Sql.isCreateTable (stripComments x) = true ∧
      ∃ e, (Statement.read d (stripComments x)).result = .error e := by
  induction xs with
  | nil => exact absurd (by simp) h
  | cons x xs ih =>
      by_cases hx : Sql.isCreateTable (stripComments x) = true → Accepted d (stripComments x)
      · have hxs : ¬∀ y ∈ xs.map stripComments, Sql.isCreateTable y = true → Accepted d y :=
          fun hxs => h (List.forall_mem_cons.2 ⟨hx, hxs⟩)
        obtain ⟨before, y, after, rfl, hbefore, hy⟩ := ih hxs
        exact ⟨x :: before, y, after, rfl, List.forall_mem_cons.2 ⟨hx, hbefore⟩, hy⟩
      · obtain ⟨hcreate, hnot⟩ := Classical.not_imp.1 hx
        refine ⟨[], x, xs, rfl, by simp, hcreate, ?_⟩
        cases hread : (Statement.read d (stripComments x)).result with
        | ok t => exact absurd ⟨t, hread⟩ hnot
        | error e => exact ⟨e, rfl⟩

/-! ## Scripts -/

/-- The number of tables is noted at the end, when all of them are read. -/
theorem read_of_ok {records : List Log.Record} {ts : List Table} {script : List Char}
    (h : readTables d (statements (clean script)) = ⟨records, .ok ts⟩) (name : String) :
    read d name script = ⟨records ++ [countNotice ts.length], .ok ⟨name, ts⟩⟩ := by
  rw [read, h]
  rfl

/-- Nothing is noted behind a statement that fails. -/
theorem read_of_error {records : List Log.Record} {script : List Char}
    (h : readTables d (statements (clean script)) = ⟨records, .error e⟩) (name : String) :
    read d name script = ⟨records, .error e⟩ := by
  rw [read, h]
  rfl

/-- **All tables or none.**  If each statement that begins like one that creates a table is
accepted, the script has their tables in order, with a record for each other statement and the
count at the end; otherwise the script comes to the error of the first that is not accepted.  No
dialect accepts a statement that is skipped. -/
theorem read_cases (d : Dialect) (name : String) (script : List Char) :
    ((∀ s ∈ strippedStatements script, Sql.isCreateTable s = true → Accepted d s) →
      ∃ ts, List.Forall₂ (fun s t => (Statement.read d s).result = .ok t)
          ((strippedStatements script).filter Sql.isCreateTable) ts ∧
        read d name script =
          ⟨skipNotices (strippedStatements script) ++ [countNotice ts.length], .ok ⟨name, ts⟩⟩) ∧
      ((¬∀ s ∈ strippedStatements script, Sql.isCreateTable s = true → Accepted d s) →
        ∃ before s after e, strippedStatements script = before ++ s :: after ∧
          (∀ x ∈ before, Sql.isCreateTable x = true → Accepted d x) ∧
          Sql.isCreateTable s = true ∧ (Statement.read d s).result = .error e ∧
          read d name script =
            ⟨skipNotices before ++ (Statement.read d s).records, .error e⟩) ∧
      ∀ d' s, Accepted d' s → Sql.isCreateTable s = true := by
  refine ⟨fun h => ?_, fun h => ?_, fun d' s ⟨t, ht⟩ => Sql.isCreateTable_of_read ht⟩
  · obtain ⟨ts, hts, hread⟩ := readTables_of_accepted h
    exact ⟨ts, hts, read_of_ok hread name⟩
  · obtain ⟨before, s, after, hsplit, hbefore, hcreate, e, herror⟩ := exists_rejected h
    have hread := readTables_of_rejected hbefore hcreate herror after
    rw [← hsplit] at hread
    refine ⟨before.map stripComments, stripComments s, after.map stripComments, e, ?_, hbefore,
      hcreate, herror, read_of_error hread name⟩
    rw [strippedStatements, hsplit, List.map_append, List.map_cons]

/-- A script whose first and last statement are skipped. -/
def mixedScript : List Char :=
  "DROP TABLE t;/* t */CREATE TABLE t (a INT) ENGINE=e CHARSET=c COLLATE=l COMMENT=''; USE d".toList

theorem read_cases_mixedScript :
    (∀ s ∈ strippedStatements mixedScript, Sql.isCreateTable s = true → Accepted {} s) ∧
      ∃ ts, List.Forall₂ (fun s t => (Statement.read {} s).result = .ok t)
          ((strippedStatements mixedScript).filter Sql.isCreateTable) ts ∧
        read {} "d" mixedScript =
          ⟨skipNotices (strippedStatements mixedScript) ++ [countNotice ts.length],
            .ok ⟨"d", ts⟩⟩ := by
  have hstatements : strippedStatements mixedScript =
      ["DROP TABLE t".toList,
        "CREATE TABLE t (a INT) ENGINE=e CHARSET=c COLLATE=l COMMENT=''".toList,
        "USE d".toList] := by decide +kernel
  have haccepted : ∀ s ∈ strippedStatements mixedScript,
      Sql.isCreateTable s = true → Accepted {} s := by
    rw [hstatements]
    intro s hs hcreate
    simp only [List.mem_cons, List.not_mem_nil, or_false] at hs
    rcases hs with rfl | rfl | rfl
    · exact absurd hcreate (by decide +kernel)
    · exact ⟨⟨"t", [⟨"a", ⟨.int, 0⟩, ""⟩], ⟨"e", "c", "l", ""⟩⟩, by decide +kernel⟩
    · exact absurd hcreate (by decide +kernel)
  exact ⟨haccepted, (read_cases {} "d" mixedScript).1 haccepted⟩

end TableDdl.Script
