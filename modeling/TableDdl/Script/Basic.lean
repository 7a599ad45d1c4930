import TableDdl.Schema.Database
import TableDdl.Script.Comments
import TableDdl.Script.Pieces
import TableDdl.Statement

/-!
# Scripts

All tables that a script creates.  The script is cleaned of comment lines and cut into statements;
a statement that does not begin like one that creates a table is skipped with a warning.  The first
statement that cannot be read ends the reading with its error.
-/

namespace TableDdl.Script

/-- The tables that the statements create. -/
def readTables (d : Dialect) : List (List Char) → Logged (List Table)
  | [] => pure []
  | piece :: rest => do
      let statement := stripComments piece
      if Sql.isCreateTable statement then
        let table ← Statement.read d statement
        let tables ← readTables d rest
        return table :: tables
      else
        Logged.log .warning ("Skipping statement " ++ Text.quoteStart (String.ofList statement))
        readTables d rest

/-- The database that a script creates. -/
def read (d : Dialect) (name : String) (script : List Char) : Logged Database := do
  let tables ← readTables d (statements (clean script))
  Logged.log .info ("Parsed " ++ toString tables.length ++ " tables")
  return ⟨name, tables⟩

end TableDdl.Script
