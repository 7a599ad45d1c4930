import TableDdl.Text.Display

/-!
# Default values

What a column holds where a row gives nothing.  Only integer and string defaults carry a content.
-/

namespace TableDdl

/-- The kinds of default values. -/
inductive DefaultKind where
  | noDefault
  | null
  | int
  | str
  | currentTimestamp
  | currentTimestampOnUpdate
  | autoIncrement
  | unknown
  deriving DecidableEq

/-- The name of a kind of default value in terms. -/
def DefaultKind.name : DefaultKind → String
  | noDefault => "NoDefault"
  | null => "Null"
  | int => "Int"
  | str => "Str"
  | currentTimestamp => "CurrentTimestamp"
  | currentTimestampOnUpdate => "CurrentTimestampOnUpdate"
  | autoIncrement => "AutoIncrement"
  | unknown => "Unknown"

/-- The content of a default value. -/
inductive DefaultContent where
  | none
  | int (n : Int)
  | str (s : String)
  deriving DecidableEq

/-- A default value. -/
structure DefaultValue where
  kind : DefaultKind := .noDefault
  content : DefaultContent := .none
  deriving DecidableEq

namespace DefaultValue

/-- The default as it is shown: `Null`, `Int(5)`, `Str(a)`. -/
def summary (d : DefaultValue) : String :=
  match d.content with
  | .none => d.kind.name
  | .int n => d.kind.name ++ "(" ++ toString n ++ ")"
  | .str s => d.kind.name ++ "(" ++ s ++ ")"

/-- The content as a term. -/
def contentTerm : DefaultContent → String
  | .none => "None"
  | .int n => toString n
  | .str s => Text.quoteText s

/-- The default as a term: `DefaultValue(Int, 5)`. -/
def term (d : DefaultValue) : String :=
  "DefaultValue(" ++ d.kind.name ++ ", " ++ contentTerm d.content ++ ")"

end DefaultValue

end TableDdl
