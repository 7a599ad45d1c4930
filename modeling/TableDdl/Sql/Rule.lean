import TableDdl.Sql.CreateTable
import TableDdl.Value.Basic

/-!
# Rules

Every rule of the statement grammar by name, with a value that shows what the rule found.  The
value of a bare sequence is the tuple of all its parts, the blanks between them included.
-/

namespace TableDdl.Sql

open Grammar

/-- The rules of the statement grammar. -/
inductive Rule where
  | whitespace0
  | whitespace1
  | unsignedInteger
  | identifier
  | quotedString
  | typeSize
  | typeModifier
  | typeCharset
  | typeCollate
  | someInt
  | varchar
  | datetime
  | decimal
  | textType
  | dataType
  | nullClause
  | currentTimestamp
  | onUpdateClause
  | defaultInt
  | defaultStr
  | defaultNull
  | defaultCurrentTimestamp
  | autoIncrement
  | defaultLiteral
  | defaultClause
  | commentClause
  | lineEnd
  | columnLine
  | indexPrefix
  | indexColumn
  | indexColumns
  | indexUsing
  | indexLine
  | bodyLine
  | engineOption
  | charsetOption
  | collateOption
  | commentOption
  | autoIncrementOption
  | rowFormatOption
  | strictOptions
  | relaxedOptions
  | createTable
  | tableSchema
  deriving DecidableEq

/-! ## Values of bare sequences -/

/-- The current time: the keyword and the precision. -/
def timestampValue (parts : String × Option Nat) : Value :=
  .tuple [.str parts.1, .ofNumber parts.2]

/-- The update clause: blanks, keywords, blanks, and the current time. -/
def onUpdateValue (parts : String × String × String × String × Option Nat) : Value :=
  .tuple [.str parts.1, .str parts.2.1, .str parts.2.2.1, timestampValue parts.2.2.2]

/-- A column of an index: blanks, name, size, order, blanks, comma. -/
def indexColumnValue
    (parts : String × String × Option Nat × Option String × String × Option String) : Value :=
  .tuple [.str parts.1, .str parts.2.1, .ofNumber parts.2.2.1, .ofText parts.2.2.2.1,
    .str parts.2.2.2.2.1, .ofText parts.2.2.2.2.2]

/-- A statement: name, lines, options. -/
def createTableValue (s : CreateTable) : Value :=
  .tuple [.str s.name, .list (s.body.map Value.ofLine), .tableOptions s.options]

/-! ## Grammars of rules -/

/-- The grammar of a rule. -/
def Rule.grammar (d : Dialect) : Rule → Grammar Value
  | whitespace0 => map .str Grammar.whitespace0
  | whitespace1 => map .str Grammar.whitespace1
  | unsignedInteger => map (fun n : Nat => .int n) Grammar.unsignedInteger
  | identifier => map .str Grammar.identifier
  | quotedString => map .str Grammar.quotedString
  | typeSize => map (fun n : Nat => .int n) Sql.typeSize
  | typeModifier => map .str Sql.typeModifier
  | typeCharset => map .str Sql.typeCharset
  | typeCollate => map .str Sql.typeCollate
  | someInt => map .dataType Sql.someInt
  | varchar => map .dataType Sql.varchar
  | datetime => map .dataType Sql.datetime
  | decimal => map .dataType Sql.decimal
  | textType => map .dataType Sql.textType
  | dataType => map .dataType (Sql.dataType d.extendedTypes)
  | nullClause => map .str Sql.nullClause
  | currentTimestamp => map timestampValue Sql.currentTimestamp
  | onUpdateClause => map onUpdateValue Sql.onUpdateClause
  | defaultInt => map .defaultValue Sql.defaultInt
  | defaultStr => map .defaultValue Sql.defaultStr
  | defaultNull => map .defaultValue Sql.defaultNull
  | defaultCurrentTimestamp => map .defaultValue Sql.defaultCurrentTimestamp
  | autoIncrement => map .defaultValue Sql.autoIncrement
  | defaultLiteral => map .defaultValue Sql.defaultLiteral
  | defaultClause => map .defaultValue Sql.defaultClause
  | commentClause => map .str Sql.commentClause
  | lineEnd => map .ofText Sql.lineEnd
  | columnLine => map .column (Sql.columnLine d.extendedTypes)
  | indexPrefix => map .indexKind Sql.indexPrefix
  | indexColumn => map indexColumnValue Sql.indexColumn
  | indexColumns => map (fun names => .list (names.map .str)) Sql.indexColumns
  | indexUsing => map .str Sql.indexUsing
  | indexLine => map .index Sql.indexLine
  | bodyLine => map Value.ofLine (Sql.bodyLine d.extendedTypes)
  | engineOption => map .str Sql.engineOption
  | charsetOption => map .str Sql.charsetOption
  | collateOption => map .str Sql.collateOption
  | commentOption => map .str Sql.commentOption
  | autoIncrementOption => map (fun n : Nat => .int n) Sql.autoIncrementOption
  | rowFormatOption => map .str Sql.rowFormatOption
  | strictOptions => map .tableOptions Sql.strictOptions
  | relaxedOptions => map .tableOptions Sql.relaxedOptions
  | createTable => map createTableValue (Sql.createTable d)
  | tableSchema => map .table (Sql.tableSchema d)

end TableDdl.Sql
