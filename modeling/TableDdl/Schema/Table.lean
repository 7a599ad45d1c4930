import TableDdl.Schema.Column
import TableDdl.Schema.Index

/-!
# Tables

A table has a name, columns in the order of their declaration, and options.  Indexes are declared
among the columns but are no part of the schema.
-/

namespace TableDdl

/-- The options of a table.  One that is not given is empty. -/
structure TableOptions where
  engine : String := ""
  charset : String := ""
  collate : String := ""
  comment : String := ""
  deriving DecidableEq

namespace TableOptions

/-- The options as a table shows them. -/
def summary (o : TableOptions) : String :=
  "ENGINE=" ++ o.engine ++ " CHARSET=" ++ o.charset ++ " COLLATE=" ++ o.collate ++ " COMMENT=" ++
    Text.quoteText o.comment

/-- The options as a term. -/
def term (o : TableOptions) : String :=
  "TableOption(" ++ Text.quoteText o.engine ++ ", " ++ Text.quoteText o.charset ++ ", " ++
    Text.quoteText o.collate ++ ", " ++ Text.quoteText o.comment ++ ")"

end TableOptions

/-- One line of a table body. -/
inductive BodyLine where
  | column (c : Column)
  | index (i : Index)
  deriving DecidableEq

/-- The column that a line declares, if it declares one. -/
def BodyLine.column? : BodyLine → Option Column
  | column c => some c
  | index _ => none

/-- The schema of a table. -/
structure Table where
  name : String := ""
  columns : List Column := []
  options : TableOptions := {}
  deriving DecidableEq

namespace Table

/-- The table whose body has these lines: its columns are the column lines, in order. -/
def ofBody (name : String) (body : List BodyLine) (options : TableOptions) : Table :=
  ⟨name, body.filterMap BodyLine.column?, options⟩

/-- The first column with this name, in any letter case. -/
def findColumn (t : Table) (name : String) : Except Error Column :=
  let lowered := Text.lowerText name
  match t.columns.find? fun c => Text.lowerText c.name == lowered with
  | some c => .ok c
  | none => .error (.unknownColumn name)

/-- The table as it is shown: name, number of columns, options. -/
def summary (t : Table) : String :=
  t.name ++ " (" ++ toString t.columns.length ++ " columns) " ++ t.options.summary

/-- The table as a term. -/
def term (t : Table) : String :=
  "TableSchema(" ++ Text.quoteText t.name ++ ", [" ++
    ", ".intercalate (t.columns.map Column.term) ++ "], " ++ t.options.term ++ ")"

end Table

end TableDdl
