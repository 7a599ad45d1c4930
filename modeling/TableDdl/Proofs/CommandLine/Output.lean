import Mathlib.Algebra.GroupWithZero.Nat
import TableDdl.Proofs.CommandLine.Run
import TableDdl.Proofs.Sql.WellFormed
import TableDdl.Proofs.Text.Numbers

/-!
# Printed lines

A run that shows the tables of a script prints one line for each table and each column
(`lines_output`).  Names, and options but for the comment, are words wherever tables are read, and
no word holds a line break; a comment may hold any character, but is displayed.  So nothing in a
script begins a line of its own.
-/

namespace TableDdl

open Text

/-! ## Shown tables are one line each -/

theorem IsName.unbroken {name : String} (h : IsName name) : Unbroken name.toList :=
  unbroken_of_isWord h.word

theorem IsOptionValue.unbroken {relaxed : Bool} {value : String} (h : IsOptionValue relaxed value) :
    Unbroken value.toList := by
  rcases h with h | ⟨-, rfl⟩
  · exact h.unbroken
  · exact unbroken_nil

/-- A break inside of quotes is shown as an escape. -/
theorem unbroken_quoteText (text : String) : Unbroken (quoteText text).toList := by
  rw [quoteText, String.toList_ofList]
  exact unbroken_display text.toList

theorem unbroken_toList_append {s t : String} :
    Unbroken (s ++ t).toList ↔ Unbroken s.toList ∧ Unbroken t.toList := by
  rw [String.toList_append]
  exact unbroken_append

/-- A text behind a label that has no break. -/
theorem unbroken_labelled (label : String) {text : String}
    (hlabel : label.toList.all (fun c => !isLineBreak c) = true) (h : Unbroken text.toList) :
    Unbroken (label ++ text).toList :=
  unbroken_toList_append.2 ⟨unbroken_of_all hlabel, h⟩

theorem DataType.unbroken_summary (t : DataType) : Unbroken t.summary.toList := by
  have hkeyword : Unbroken t.kind.keyword.toList := by
    cases t.kind <;> exact unbroken_of_all (by decide)
  rw [summary]
  split
  · have hsize : Unbroken (toString t.size ++ ")").toList :=
      unbroken_toList_append.2 ⟨unbroken_toString t.size, unbroken_of_all (by decide)⟩
    rw [String.append_assoc, String.append_assoc]
    exact unbroken_toList_append.2 ⟨hkeyword, unbroken_labelled _ (by decide) hsize⟩
  · exact hkeyword

/-- A column is shown with its comment quoted, so only its name could break the line. -/
theorem Column.WellFormed.unbroken_summary {extended : Bool} {c : Column}
    (h : c.WellFormed extended) : Unbroken c.summary.toList := by
  have hcomment : Unbroken
      (if c.comment.isEmpty then "" else " COMMENT " ++ quoteText c.comment).toList := by
    split
    · exact unbroken_nil
    · exact unbroken_labelled _ (by decide) (unbroken_quoteText c.comment)
  have htype := unbroken_toList_append.2 ⟨c.type.unbroken_summary, hcomment⟩
  have hrest := unbroken_labelled " " (by decide) htype
  rw [Column.summary, String.append_assoc, String.append_assoc]
  exact unbroken_toList_append.2 ⟨h.name.unbroken, hrest⟩

/-- Of the options only the comment may hold breaks, and it is quoted. -/
theorem TableOptions.WellFormed.unbroken_summary {relaxed : Bool} {o : TableOptions}
    (h : o.WellFormed relaxed) : Unbroken o.summary.toList := by
  have hengine : Unbroken ("ENGINE=" ++ o.engine).toList :=
    unbroken_labelled _ (by decide) h.engine.unbroken
  have hcharset : Unbroken (" CHARSET=" ++ o.charset).toList :=
    unbroken_labelled _ (by decide) h.charset.unbroken
  have hcollate : Unbroken (" COLLATE=" ++ o.collate).toList :=
    unbroken_labelled _ (by decide) h.collate.unbroken
  have hcomment : Unbroken (" COMMENT=" ++ quoteText o.comment).toList :=
    unbroken_labelled _ (by decide) (unbroken_quoteText o.comment)
  have hsummary : o.summary = ("ENGINE=" ++ o.engine) ++ ((" CHARSET=" ++ o.charset) ++
      ((" COLLATE=" ++ o.collate) ++ (" COMMENT=" ++ quoteText o.comment))) := by
    simp only [TableOptions.summary, String.append_assoc]
  have hlast := unbroken_toList_append.2 ⟨hcollate, hcomment⟩
  rw [hsummary]
  exact unbroken_toList_append.2 ⟨hengine, unbroken_toList_append.2 ⟨hcharset, hlast⟩⟩

/-- Names have no breaks and comments are quoted, so the summary of a table is one line. -/
theorem Table.WellFormed.unbroken_summary {d : Dialect} {t : Table} (h : t.WellFormed d) :
    Unbroken t.summary.toList := by
  have hoptions : Unbroken (" columns) " ++ t.options.summary).toList :=
    unbroken_labelled _ (by decide) h.options.unbroken_summary
  have hlength := unbroken_toList_append.2 ⟨unbroken_toString_nat t.columns.length, hoptions⟩
  have hrest := unbroken_labelled " (" (by decide) hlength
  rw [Table.summary, String.append_assoc, String.append_assoc, String.append_assoc]
  exact unbroken_toList_append.2 ⟨h.name.unbroken, hrest⟩

/-- The tables that are read from a file are well formed. -/
theorem Script.wellFormed_of_readPath {d : Dialect} {t : FileTree} {path : String} {db : Database}
    (h : (readPath d t path).result = .ok db) : ∀ table ∈ db.tables, table.WellFormed d := by
  rw [readPath] at h
  cases hfound : t.script path with
  | refused cause =>
      rw [hfound] at h
      cases h
  | missing =>
      rw [hfound] at h
      cases h
  | file name content =>
      rw [hfound] at h
      cases content with
      | error e => cases h
      | ok text =>
          rw [result_readFound, result_read_eq_ok_iff] at h
          obtain ⟨ts, hts, rfl⟩ := h
          exact wellFormed_of_readTables hts

namespace CommandLine

/-- The lines that show a table: its own, and behind a tab those of its columns. -/
theorem unbroken_of_mem_tableLines {d : Dialect} {t : Table} (h : t.WellFormed d) {line : String}
    (hline : line ∈ tableLines t) : Unbroken line.toList := by
  rcases List.mem_cons.1 hline with rfl | hline
  · exact h.unbroken_summary
  · obtain ⟨c, hc, rfl⟩ := List.mem_map.1 hline
    rw [String.toList_append]
    exact unbroken_append.2 ⟨unbroken_of_all (by decide), (h.columns c hc).unbroken_summary⟩

/-! ## Printing -/

/-- The output is that of the events, one after the other. -/
theorem Run.toList_output (r : Run) :
    r.output.toList = r.events.flatMap fun e => e.outputText.toList := by
  rw [output, String.toList_join, List.flatMap_map]

/-- Records are not printed: what a run prints is its lines, each with a line feed behind it. -/
theorem toList_output_run {r : Request} (hop : r.operation = .parseDdl) {found : Script.Found}
    {d : Database} (h : (Script.readFound r.settings.dialect r.ddlFile found).result = .ok d) :
    (run r found).output.toList =
      (("Parsing ddl...." :: d.tables.flatMap tableLines).map String.toList).flatMap
        (· ++ ['\n']) := by
  have hline (line : String) : (Event.output line).outputText.toList = line.toList ++ ['\n'] :=
    String.toList_append
  have hrecords (records : List Log.Record) :
      (records.map Event.logged).flatMap (fun e => e.outputText.toList) = [] := by
    rw [List.flatMap_map, List.flatMap_eq_nil_iff]
    exact fun _ _ => rfl
  rw [Run.toList_output, run, h]
  simp only [perform, hop, List.cons_append, List.flatMap_cons, List.flatMap_append, hrecords,
    List.nil_append, hline, List.map_cons, List.flatMap_map]

/-- **Output**: whatever the script and the settings are, a run that shows the tables of a script
that is read ends with code 0, and what it prints has as its lines, by any line break, the line that
tells of the reading, and for each table in order the line that shows it and those of its columns,
in order and behind a tab. -/
theorem lines_output {t : FileTree} {r : Request} {d : Database} (hop : r.operation = .parseDdl)
    (hread : (Script.readPath r.settings.dialect t r.ddlFile).result = .ok d) :
    (run r (t.script r.ddlFile)).ending = .exit 0 ∧
      lines (run r (t.script r.ddlFile)).output.toList =
        "Parsing ddl....".toList :: d.tables.flatMap (fun table =>
          table.summary.toList :: table.columns.map fun c => '\t' :: c.summary.toList) ∧
      (lines (run r (t.script r.ddlFile)).output.toList).length =
        1 + (d.tables.map fun table => 1 + table.columns.length).sum := by
  have hending : (run r (t.script r.ddlFile)).ending = .exit 0 := by
    rw [(run_of_result hread).1, conclude, perform, hop]
  have hwell := Script.wellFormed_of_readPath hread
  have hunbroken : ∀ l ∈ ("Parsing ddl...." :: d.tables.flatMap tableLines).map String.toList,
      Unbroken l := by
    rw [List.map_cons, List.forall_mem_cons, List.forall_mem_map]
    refine ⟨unbroken_of_all (by decide), fun line hline => ?_⟩
    obtain ⟨table, htable, hline⟩ := List.mem_flatMap.1 hline
    exact unbroken_of_mem_tableLines (hwell table htable) hline
  have hlines : lines (run r (t.script r.ddlFile)).output.toList =
      "Parsing ddl....".toList :: d.tables.flatMap (fun table =>
        table.summary.toList :: table.columns.map fun c => '\t' :: c.summary.toList) := by
    rw [toList_output_run hop hread, lines_flatMap_newline hunbroken, List.map_cons,
      List.map_flatMap]
    simp only [tableLines, List.map_cons, List.map_map, Function.comp_def, String.toList_append]
    rfl
  refine ⟨hending, hlines, ?_⟩
  rw [hlines, List.length_cons, List.length_flatMap]
  simp only [List.length_cons, List.length_map, Nat.add_comm _ 1]

/-- Comments with line breaks in them, and options that are missing. -/
def commentedTree : FileTree where
  entries := [(["t.sql"], .file (encodeFile
    ("USE d;\nCREATE TABLE t (a DECIMAL(5, 2) COMMENT 'x\\n\\tb INT',\n c INT)" ++
      " COMMENT='y\\r\\nu (0 columns)'").toList))]

def commentedRequest : Request :=
  ⟨"t.sql", none, Settings.ofText "relaxed-table-options=True", .parseDdl⟩

theorem lines_output_commentedTree :
    lines (run commentedRequest (commentedTree.script "t.sql")).output.toList =
      ["Parsing ddl....".toList,
        "t (2 columns) ENGINE= CHARSET= COLLATE= COMMENT='y\\r\\nu (0 columns)'".toList,
        "\ta DECIMAL(5) COMMENT 'x\\n\\tb INT'".toList, "\tc INT".toList] := by
  have hread : (Script.readPath commentedRequest.settings.dialect commentedTree "t.sql").result =
      .ok ⟨"t.sql", [⟨"t", [⟨"a", ⟨.decimal, 5⟩, "x\n\tb INT"⟩, ⟨"c", ⟨.int, 0⟩, ""⟩],
        ⟨"", "", "", "y\r\nu (0 columns)"⟩⟩]⟩ := by decide +kernel
  refine (lines_output (r := commentedRequest) rfl hread).2.1.trans ?_
  decide +kernel

end CommandLine

end TableDdl
