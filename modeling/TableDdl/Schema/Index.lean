import TableDdl.Error
import TableDdl.Text.LowerCase

/-!
# Indexes

A key declared in the body of a table: the primary key, a unique key or a plain one.
-/

namespace TableDdl

/-- The kinds of indexes. -/
inductive IndexKind where
  | undefined
  | primary
  | unique
  | normal
  deriving DecidableEq

namespace IndexKind

/-- The number of a kind, from 0. -/
def number : IndexKind → Nat
  | undefined => 0
  | primary => 1
  | unique => 2
  | normal => 3

/-- The name of a kind. -/
def name : IndexKind → String
  | undefined => "Undefined"
  | primary => "Primary"
  | unique => "Unique"
  | normal => "Normal"

/-- The words that name a kind, in lower case. -/
def words : IndexKind → List String
  | undefined => ["undefined"]
  | primary => ["primary", "primary key"]
  | unique => ["unique", "unique key"]
  | normal => ["normal", "key", "index"]

/-- The kind with this name, in any letter case. -/
def ofName (value : String) : Except Error IndexKind :=
  let lowered := Text.lowerText value
  match [undefined, primary, unique, normal].find? fun kind => kind.words.contains lowered with
  | some kind => .ok kind
  | none => .error (.unknownIndexKind lowered)

/-- The kind as a term. -/
def term (kind : IndexKind) : String :=
  "<IndexKind." ++ kind.name ++ ": " ++ toString kind.number ++ ">"

end IndexKind

/-- An index of a table. -/
structure Index where
  name : String := ""
  kind : IndexKind := .undefined
  columnNames : List String := []
  usingType : Option String := none
  deriving DecidableEq

namespace Index

/-- The index as it is shown. -/
def summary (i : Index) : String :=
  i.kind.name ++ " " ++ i.name ++ " (" ++ ",".intercalate i.columnNames ++ ")" ++
    (match i.usingType with
      | some method => if method.isEmpty then "" else " USING " ++ method
      | none => "")

/-- An optional text as a term. -/
def optionTerm : Option String → String
  | some text => Text.quoteText text
  | none => "None"

/-- The index as a term. -/
def term (i : Index) : String :=
  "Index(" ++ Text.quoteText i.name ++ ", " ++ i.kind.name ++ ", [" ++
    ", ".intercalate (i.columnNames.map Text.quoteText) ++ "], " ++ optionTerm i.usingType ++ ")"

end Index

end TableDdl
