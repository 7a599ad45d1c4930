import TableDdl.Error
import TableDdl.Text.LowerCase

/-!
# Data types

The type of a column: a kind, and a size that counts characters for `VARCHAR`, digits after the
second for `DATETIME` and digits for `DECIMAL`.  The other kinds have no size, which is then 0.
-/

namespace TableDdl

/-- The kinds of data that a column holds. -/
inductive TypeKind where
  | tinyInt
  | smallInt
  | int
  | bigInt
  | varChar
  | dateTime
  | text
  | bigText
  | decimal
  | unknown
  deriving DecidableEq

namespace TypeKind

/-- The kinds in the order of their numbers. -/
def all : List TypeKind :=
  [tinyInt, smallInt, int, bigInt, varChar, dateTime, text, bigText, decimal, unknown]

/-- The number of a kind, from 1. -/
def number : TypeKind → Nat
  | tinyInt => 1
  | smallInt => 2
  | int => 3
  | bigInt => 4
  | varChar => 5
  | dateTime => 6
  | text => 7
  | bigText => 8
  | decimal => 9
  | unknown => 10

/-- The name of a kind in terms. -/
def name : TypeKind → String
  | tinyInt => "TinyInt"
  | smallInt => "SmallInt"
  | int => "Int"
  | bigInt => "BigInt"
  | varChar => "VarChar"
  | dateTime => "DateTime"
  | text => "Text"
  | bigText => "BigText"
  | decimal => "Decimal"
  | unknown => "Unknown"

/-- The keyword of a kind, in capitals. -/
def keyword : TypeKind → String
  | tinyInt => "TINYINT"
  | smallInt => "SMALLINT"
  | int => "INT"
  | bigInt => "BIGINT"
  | varChar => "VARCHAR"
  | dateTime => "DATETIME"
  | text => "TEXT"
  | bigText => "BIGTEXT"
  | decimal => "DECIMAL"
  | unknown => "UNKNOWN"

/-- The kind with this name or keyword, in any letter case. -/
def ofName (value : String) : Except Error TypeKind :=
  let lowered := Text.lowerText value
  match all.find? fun kind => Text.lowerText kind.name == lowered with
  | some kind => .ok kind
  | none => .error (.unknownDataType lowered)

/-- The kinds that are written with their size. -/
def isSized : TypeKind → Bool
  | varChar | dateTime | decimal => true
  | _ => false

end TypeKind

/-- The type of a column. -/
structure DataType where
  kind : TypeKind := .unknown
  size : Int := 0
  deriving DecidableEq

namespace DataType

/-- The type as a table shows it: `VARCHAR(20)`, `BIGINT`. -/
def summary (t : DataType) : String :=
  if t.kind.isSized then t.kind.keyword ++ "(" ++ toString t.size ++ ")" else t.kind.keyword

/-- The type as a term: `DataType(VarChar, 20)`. -/
def term (t : DataType) : String :=
  "DataType(" ++ t.kind.name ++ ", " ++ toString t.size ++ ")"

end DataType

end TableDdl
