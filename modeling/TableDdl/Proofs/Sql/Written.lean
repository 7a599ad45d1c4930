import Mathlib.Computability.Language
import TableDdl.Proofs.Text.Quoted
import TableDdl.Schema.Table
import TableDdl.Sql.DataType
import TableDdl.Text.Blank
import TableDdl.Text.Word

/-!
# Statements as they are meant, and how they are written

A `TableDecl` is a statement that creates a table, as its author means it: every clause that the
grammar knows, whether or not the schema keeps it.  `TableDecl.table` is the schema, in which the
indexes, the defaults, the modifiers, the scale, and the character sets and collations of columns
are lost.  `TableDecl.written` is the language of all the texts that mean the statement:

```
statement ::= CREATE [TEMPORARY] TABLE [IF NOT EXISTS] name '(' line (',' line)* ')' options [';']
column    ::= name type [NOT NULL | NULL] [default] [COMMENT string]
index     ::= [PRIMARY | UNIQUE] (KEY | INDEX) [name] '(' part (',' part)* ')' [USING method]
options   ::= ENGINE ['='] name  [DEFAULT] charset ['='] name  [DEFAULT] COLLATE ['='] name
              COMMENT ['='] string
```

Keywords are in any letter case, names with or without a backtick on either side, and between two
words stands at least one blank, any elsewhere.  Two words that would run into one need a blank or
a backtick between them (`apart`).

One text means two things: `KEY VARCHAR(20)` is an index on a column called `20`, so a column that
is called `KEY` or `INDEX` and has a type with a size needs a backtick (`ColumnDecl.heading`).
-/

namespace TableDdl.Written

open Text

/-! ## Tokens -/

/-- Blanks, perhaps none. -/
def blanks0 : Language Char := {w | ∀ c ∈ w, isBlank c = true}

/-- At least one blank. -/
def blanks1 : Language Char := {w | w ≠ [] ∧ ∀ c ∈ w, isBlank c = true}

/-- One character. -/
def mark (c : Char) : Language Char := {[c]}

/-- A keyword in any letter case. -/
def word (k : String) : Language Char := {w | w.map asciiLower = k.toList}

/-- Keywords with blanks between them. -/
def words : List String → Language Char
  | [] => 1
  | [k] => word k
  | k :: ks => word k * (blanks1 * words ks)

/-- The decimal forms of a number, leading zeros included, as far as numbers are read. -/
def numeral (n : Nat) : Language Char :=
  {w | w ≠ [] ∧ (∀ c ∈ w, isDigit c = true) ∧ w.length ≤ maxDigits ∧
    Nat.ofDigitChars 10 w 0 = n}

/-- A number between parentheses, and the blanks in front of it. -/
def size (n : Nat) : Language Char :=
  blanks0 * (mark '(' * (blanks0 * (numeral n * (blanks0 * mark ')'))))

/-- A string between quotes of either kind. -/
def quotedText (content : List Char) : Language Char :=
  {w | ∃ q body, Quoted.isQuote q = true ∧ Quoted.Spells content body ∧ w = q :: body ++ [q]}

/-- The texts of `L` that do not go on a word. -/
def apart (L : Language Char) : Language Char := {w ∈ L | ∀ c ∈ w.head?, isWord c = false}

/-- The name of a table, a column, an index, a character set and so on: word characters, at least
one. -/
structure Name where
  text : List Char
  ne_nil : text ≠ []
  isWord_of_mem : ∀ c ∈ text, isWord c = true

namespace Name

/-- The name itself. -/
def value (n : Name) : String := String.ofList n.text

/-- The name with or without a backtick on either side. -/
def written (n : Name) : Language Char := (1 + mark '`') * ({n.text} * (1 + mark '`'))

/-- The name with a backtick on at least one side. -/
def ticked (n : Name) : Language Char :=
  mark '`' * ({n.text} * (1 + mark '`')) + {n.text} * mark '`'

/-- The name is `KEY` or `INDEX` in some letter case. -/
def isIndexWord (n : Name) : Bool :=
  n.text.map asciiLower == "key".toList || n.text.map asciiLower == "index".toList

end Name

/-! ## Types -/

/-- The integer types. -/
inductive IntType where
  | bigint
  | smallint
  | tinyint
  | int
  deriving DecidableEq

namespace IntType

/-- The keyword of an integer type. -/
def keyword : IntType → String
  | bigint => "bigint"
  | smallint => "smallint"
  | tinyint => "tinyint"
  | int => "int"

/-- The kind of an integer type. -/
def kind : IntType → TypeKind
  | bigint => .bigInt
  | smallint => .smallInt
  | tinyint => .tinyInt
  | int => .int

end IntType

/-- The text types. -/
inductive TextType where
  | text
  | bigtext
  deriving DecidableEq

namespace TextType

/-- The keyword of a text type. -/
def keyword : TextType → String
  | text => "text"
  | bigtext => "bigtext"

/-- The kind of a text type. -/
def kind : TextType → TypeKind
  | text => .text
  | bigtext => .bigText

end TextType

/-- The type of a column with all that can be said of it. -/
inductive TypeDecl where
  | integer (type : IntType) (width : Option Nat) (unsigned zerofill : Bool)
  | varchar (width : Nat) (hwidth : width ≤ Sql.maxTypeWidth) (charset collate : Option Name)
  | datetime (precision : Option Nat) (hprecision : precision.getD 0 ≤ Sql.maxTypeWidth)
  | decimal (precision : Nat) (hprecision : precision ≤ Sql.maxDecimalPrecision)
      (scale : Option Nat)
  | text (type : TextType) (charset collate : Option Name)

/-- The clause for what is there, and nothing where it is not there. -/
def clause {ι : Type} (o : Option ι) (L : ι → Language Char) : Language Char := o.elim 1 L

/-- A clause that says no more than that it is there. -/
def flag (present : Bool) (L : Language Char) : Language Char :=
  clause (if present then some () else none) fun _ => L

/-- The words that introduce a character set. -/
def charsetWord : Language Char := words ["character", "set"] + word "charset"

/-- The character set of a type. -/
def typeCharset (n : Name) : Language Char := blanks1 * (charsetWord * (blanks1 * n.written))

/-- The collation of a type. -/
def typeCollate (n : Name) : Language Char := blanks1 * (word "collate" * (blanks1 * n.written))

namespace TypeDecl

/-- What a table keeps of a type. -/
def dataType : TypeDecl → DataType
  | integer type _ _ _ => ⟨type.kind, 0⟩
  | varchar width _ _ _ => ⟨.varChar, width⟩
  | datetime precision _ => ⟨.dateTime, precision.getD 0⟩
  | decimal precision _ _ => ⟨.decimal, precision⟩
  | text type _ _ => ⟨type.kind, 0⟩

/-- The type is one of the extended types. -/
def isExtended : TypeDecl → Bool
  | text .. => true
  | _ => false

/-- A size stands right behind the keyword of the type. -/
def isSized : TypeDecl → Bool
  | integer _ width _ _ => width.isSome
  | varchar .. => true
  | datetime precision _ => precision.isSome
  | decimal .. => true
  | text .. => false

/-- How a type is written. -/
def written : TypeDecl → Language Char
  | integer type width unsigned zerofill =>
      word type.keyword * (clause width size *
        (flag unsigned (blanks1 * word "unsigned") * flag zerofill (blanks1 * word "zerofill")))
  | varchar width _ charset collate =>
      word "varchar" * (size width * (clause charset typeCharset * clause collate typeCollate))
  | datetime precision _ => word "datetime" * clause precision size
  | decimal precision _ scale =>
      (word "decimal" * (blanks0 * (mark '(' * blanks0))) * (numeral precision *
        (clause scale (fun s => blanks0 * (mark ',' * (blanks0 * numeral s))) *
          (blanks0 * mark ')')))
  | text type charset collate =>
      word type.keyword * (clause charset typeCharset * clause collate typeCollate)

end TypeDecl

/-! ## Columns -/

/-- Whether a column may be null, where that is said. -/
inductive Nullability where
  | notNull
  | null
  deriving DecidableEq

/-- How that is written. -/
def Nullability.written : Nullability → Language Char
  | notNull => blanks1 * words ["not", "null"]
  | null => blanks1 * word "null"

/-- The value that a column defaults to. -/
inductive DefaultDecl where
  | integer (n : Nat)
  | string (content : List Char)
  | null
  | currentTimestamp (precision : Option Nat) (onUpdate : Option (Option Nat))
  | autoIncrement

/-- The current time. -/
def currentTimestamp (precision : Option Nat) : Language Char :=
  word "current_timestamp" * clause precision size

/-- How a default is written. -/
def DefaultDecl.written : DefaultDecl → Language Char
  | integer n => blanks1 * (word "default" * (blanks1 * numeral n))
  | string content => blanks1 * (word "default" * (blanks1 * quotedText content))
  | null => blanks1 * words ["default", "null"]
  | currentTimestamp precision onUpdate =>
      blanks1 * ((word "default" * (blanks1 * Written.currentTimestamp precision)) *
        clause onUpdate fun updated =>
          blanks1 * (words ["on", "update"] * (blanks1 * Written.currentTimestamp updated)))
  | autoIncrement => blanks1 * word "auto_increment"

/-- The comment on a column. -/
def commentText (content : List Char) : Language Char :=
  blanks1 * (word "comment" * (blanks0 * quotedText content))

/-- A column with all that is said of it. -/
structure ColumnDecl where
  name : Name
  type : TypeDecl
  nullability : Option Nullability := none
  default : Option DefaultDecl := none
  comment : Option (List Char) := none

namespace ColumnDecl

/-- What a table keeps of a column. -/
def column (c : ColumnDecl) : Column :=
  ⟨c.name.value, c.type.dataType, (c.comment.map String.ofList).getD ""⟩

/-- The name of a column.  Without any backtick, `KEY` and `INDEX` in front of a size begin an
index. -/
def heading (c : ColumnDecl) : Language Char :=
  if c.name.isIndexWord && c.type.isSized then c.name.ticked else c.name.written

/-- How a column is written. -/
def written (c : ColumnDecl) : Language Char :=
  c.heading * ((blanks1 * c.type.written) *
    ((clause c.nullability Nullability.written * clause c.default DefaultDecl.written) *
      clause c.comment commentText))

end ColumnDecl

/-! ## Indexes -/

/-- The word in front of `KEY`. -/
inductive KeyPrefix where
  | primary
  | unique
  deriving DecidableEq

/-- The keyword of a prefix. -/
def KeyPrefix.keyword : KeyPrefix → String
  | primary => "primary"
  | unique => "unique"

/-- The order of a column in an index. -/
inductive SortDecl where
  | asc
  | desc
  deriving DecidableEq

/-- The keyword of an order. -/
def SortDecl.keyword : SortDecl → String
  | asc => "asc"
  | desc => "desc"

/-- The method of an index. -/
inductive MethodDecl where
  | btree
  | hash
  deriving DecidableEq

/-- The keyword of a method. -/
def MethodDecl.keyword : MethodDecl → String
  | btree => "btree"
  | hash => "hash"

/-- A column of an index. -/
structure IndexPart where
  name : Name
  length : Option Nat := none
  order : Option SortDecl := none

/-- How a column of an index is written, with the blanks around it. -/
def IndexPart.written (p : IndexPart) : Language Char :=
  blanks0 * (p.name.written * (clause p.length size *
    (clause p.order (fun order => blanks1 * word order.keyword) * blanks0)))

/-- The texts of `L` for each member of a list, with `separator` between them. -/
def joined {ι : Type} (separator : Language Char) (L : ι → Language Char) :
    List ι → Language Char
  | [] => 1
  | [i] => L i
  | i :: is => (L i * separator) * joined separator L is

/-- An index with all that is said of it. -/
structure IndexDecl where
  kind : Option KeyPrefix := none
  name : Option Name := none
  parts : List IndexPart
  parts_ne_nil : parts ≠ []
  method : Option MethodDecl := none

/-- How an index is written. -/
def IndexDecl.written (i : IndexDecl) : Language Char :=
  clause i.kind (fun kind => word kind.keyword * blanks1) *
    (((word "key" + word "index") * clause i.name (fun n => apart (blanks0 * n.written))) *
      ((blanks0 * (mark '(' * (joined (mark ',') IndexPart.written i.parts * mark ')'))) *
        clause i.method fun method => blanks1 * (word "using" * (blanks1 * word method.keyword))))

/-! ## Tables -/

/-- A line of a table body. -/
inductive LineDecl where
  | column (c : ColumnDecl)
  | index (i : IndexDecl)

namespace LineDecl

/-- The column that a line declares, if it declares one. -/
def column? : LineDecl → Option Column
  | column c => some c.column
  | index _ => none

/-- The line needs the extended types. -/
def isExtended : LineDecl → Bool
  | column c => c.type.isExtended
  | index _ => false

/-- How what a line declares is written. -/
def content : LineDecl → Language Char
  | column c => c.written
  | index i => i.written

/-- How a line is written, with the blanks behind it. -/
def written (l : LineDecl) : Language Char := l.content * blanks0

end LineDecl

/-- A statement that creates a table. -/
structure TableDecl where
  temporary : Bool := false
  ifNotExists : Bool := false
  name : Name
  lines : List LineDecl
  lines_ne_nil : lines ≠ []
  engine : Name
  charset : Name
  collate : Name
  comment : List Char

/-- The value of an option, perhaps behind an equals sign. -/
def given (L : Language Char) : Language Char :=
  apart (blanks0 * L + blanks0 * (mark '=' * (blanks0 * L)))

/-- `DEFAULT` or nothing. -/
def defaultWord : Language Char := 1 + word "default" * blanks1

namespace TableDecl

/-- The schema of the table. -/
def table (t : TableDecl) : Table :=
  ⟨t.name.value, t.lines.filterMap LineDecl.column?,
    ⟨t.engine.value, t.charset.value, t.collate.value, String.ofList t.comment⟩⟩

/-- The statement needs the extended types. -/
def isExtended (t : TableDecl) : Bool := t.lines.any LineDecl.isExtended

/-- How the options are written. -/
def options (t : TableDecl) : Language Char :=
  (blanks0 * (word "engine" * given t.engine.written)) *
    ((blanks1 * ((defaultWord * charsetWord) * given t.charset.written)) *
      ((blanks1 * ((defaultWord * word "collate") * given t.collate.written)) *
        (blanks1 * (word "comment" * given (quotedText t.comment)))))

/-- How the body is written, between its parentheses. -/
def body (t : TableDecl) : Language Char :=
  (blanks0 * (mark '(' * blanks0)) *
    (joined (mark ',' * blanks0) LineDecl.written t.lines * mark ')')

/-- How the head is written, up to the name. -/
def head (t : TableDecl) : Language Char :=
  word "create" * ((blanks1 * (flag t.temporary (word "temporary" * blanks1) *
    (word "table" * blanks1))) *
      (flag t.ifNotExists (words ["if", "not", "exists"] * blanks1) * t.name.written))

/-- How the statement is written, with blanks around it and perhaps a semicolon behind it. -/
def written (t : TableDecl) : Language Char :=
  blanks0 * (t.head * (t.body * t.options)) * (blanks0 * (1 + mark ';' * blanks0))

end TableDecl

end TableDdl.Written
