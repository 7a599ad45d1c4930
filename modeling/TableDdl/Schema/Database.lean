import TableDdl.Schema.Table

/-!
# Databases

The tables of one script, in the order in which they are declared.
-/

namespace TableDdl

/-- A named list of tables. -/
structure Database where
  name : String := ""
  tables : List Table := []
  deriving DecidableEq

/-- The first table with this name, in any letter case. -/
def Database.table? (d : Database) (name : String) : Option Table :=
  let lowered := Text.lowerText name
  d.tables.find? fun t => Text.lowerText t.name == lowered

end TableDdl
