import TableDdl.Schema.DataType

/-!
# Columns
-/

namespace TableDdl

/-- A column of a table.  Its default value is no part of it. -/
structure Column where
  name : String := ""
  type : DataType := {}
  comment : String := ""
  deriving DecidableEq

namespace Column

/-- The column as a table shows it: name, type, and the comment if there is one. -/
def summary (c : Column) : String :=
  c.name ++ " " ++ c.type.summary ++
    (if c.comment.isEmpty then "" else " COMMENT " ++ Text.quoteText c.comment)

/-- The column as a term. -/
def term (c : Column) : String :=
  "Column(" ++ Text.quoteText c.name ++ ", " ++ c.type.term ++ ", " ++
    Text.quoteText c.comment ++ ")"

end Column

end TableDdl
