import TableDdl.Schema.Database
import TableDdl.Value.Basic

/-!
# Equality of values

Two values are equal when they are of one kind and agree in every field.  Equal values have equal
fingerprints, so that a fingerprint can serve to look a value up.  A fingerprint may forget how a
value is built: that of a success holds its value as a term.
-/

namespace TableDdl

/-! ## Equality -/

namespace Value

mutual

/-- Values of one kind that agree in every field. -/
def equal : Value → Value → Bool
  | null, null => true
  | str a, str b => a == b
  | int a, int b => a == b
  | tuple a, tuple b => equalItems a b
  | list a, list b => equalItems a b
  | indexKind a, indexKind b => a == b
  | dataType a, dataType b => a.kind == b.kind && a.size == b.size
  | defaultValue a, defaultValue b => a.kind == b.kind && a.content == b.content
  | column a, column b => a.name == b.name && a.type == b.type && a.comment == b.comment
  | index a, index b =>
      a.name == b.name && a.kind == b.kind && a.columnNames == b.columnNames &&
        a.usingType == b.usingType
  | tableOptions a, tableOptions b =>
      a.engine == b.engine && a.charset == b.charset && a.collate == b.collate &&
        a.comment == b.comment
  | table a, table b => a.name == b.name && a.columns == b.columns && a.options == b.options
  | success a v, success b w => a == b && equal v w
  | failure a, failure b => a == b
  | _, _ => false

/-- Equally many values, equal one by one. -/
def equalItems : List Value → List Value → Bool
  | [], [] => true
  | a :: as, b :: bs => equal a b && equalItems as bs
  | _, _ => false

end

end Value

/-! ## Fingerprints -/

/-- What is left of a value for looking it up. -/
inductive Fingerprint where
  | none
  | str (s : String)
  | int (n : Int)
  | tag (name : String)
  | tuple (items : List Fingerprint)

namespace Fingerprint

mutual

/-- Fingerprints of one shape that agree in every place. -/
def equal : Fingerprint → Fingerprint → Bool
  | none, none => true
  | str a, str b => a == b
  | int a, int b => a == b
  | tag a, tag b => a == b
  | tuple a, tuple b => equalItems a b
  | _, _ => false

/-- Equally many fingerprints, equal one by one. -/
def equalItems : List Fingerprint → List Fingerprint → Bool
  | [], [] => true
  | a :: as, b :: bs => equal a b && equalItems as bs
  | _, _ => false

end

/-- The fingerprint of an optional text. -/
def ofText : Option String → Fingerprint
  | some s => str s
  | .none => none

/-- The fingerprint of the content of a default value. -/
def ofContent : DefaultContent → Fingerprint
  | .none => none
  | .int n => int n
  | .str s => str s

/-- The fingerprint of a data type: its kind and its size. -/
def ofDataType (t : DataType) : Fingerprint :=
  tuple [tag t.kind.name, int t.size]

/-- The fingerprint of a column: all its fields. -/
def ofColumn (c : Column) : Fingerprint :=
  tuple [str c.name, ofDataType c.type, str c.comment]

/-- The fingerprint of table options: all their fields. -/
def ofOptions (o : TableOptions) : Fingerprint :=
  tuple [str o.engine, str o.charset, str o.collate, str o.comment]

/-- The fingerprint of a table: all its fields. -/
def ofTable (t : Table) : Fingerprint :=
  tuple [str t.name, tuple (t.columns.map ofColumn), ofOptions t.options]

/-- The fingerprint of a database: all its fields. -/
def ofDatabase (d : Database) : Fingerprint :=
  tuple [str d.name, tuple (d.tables.map ofTable)]

mutual

/-- The fingerprint of a value. -/
def ofValue : Value → Fingerprint
  | .null => none
  | .str s => str s
  | .int n => int n
  | .tuple items => tuple (ofValues items)
  | .list items => tuple (ofValues items)
  | .indexKind kind => tag kind.name
  | .dataType t => ofDataType t
  | .defaultValue d => tuple [tag d.kind.name, ofContent d.content]
  | .column c => ofColumn c
  | .index i =>
      tuple [str i.name, tag i.kind.name, tuple (i.columnNames.map str), ofText i.usingType]
  | .tableOptions o => ofOptions o
  | .table t => ofTable t
  | .success remaining value => tuple [str remaining, str value.term]
  | .failure remaining => str remaining

/-- The fingerprints of several values. -/
def ofValues : List Value → List Fingerprint
  | [] => []
  | value :: values => ofValue value :: ofValues values

end

end Fingerprint

end TableDdl
