import TableDdl.Export.Json
import TableDdl.Schema.Database

/-!
# Schemas as JSON

A database is exported as an object; the keys of every object are in alphabetical order.  A data
type is its keyword and its size.
-/

namespace TableDdl.Export

open Json

/-- A data type: keyword and size. -/
def ofDataType (t : DataType) : Json :=
  object [("kind", string t.kind.keyword), ("size", number t.size)]

/-- A column: comment, name and type. -/
def ofColumn (c : Column) : Json :=
  object [("comment", string c.comment), ("name", string c.name), ("type", ofDataType c.type)]

/-- Table options, all four of them. -/
def ofOptions (o : TableOptions) : Json :=
  object [("charset", string o.charset), ("collate", string o.collate),
    ("comment", string o.comment), ("engine", string o.engine)]

/-- A table: columns, options and name. -/
def ofTable (t : Table) : Json :=
  object [("columns", array (t.columns.map ofColumn)), ("options", ofOptions t.options),
    ("table_name", string t.name)]

/-- A database: name and tables. -/
def ofDatabase (d : Database) : Json :=
  object [("name", string d.name), ("tables", array (d.tables.map ofTable))]

/-- The exported text of a database. -/
def schemaText (d : Database) : String :=
  (ofDatabase d).text

end TableDdl.Export
