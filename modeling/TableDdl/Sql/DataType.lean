import TableDdl.Grammar.Tokens
import TableDdl.Schema.DataType

/-!
# Data types in a column line

```
data_type ::= some_int | varchar | datetime | decimal | text
some_int  ::= (BIGINT | SMALLINT | TINYINT | INT) [size] [modifier] [modifier]
varchar   ::= VARCHAR size [charset] [collate]
datetime  ::= DATETIME [size]
decimal   ::= DECIMAL '(' integer [',' integer] ')'
text      ::= (TEXT | BIGTEXT) [charset] [collate]
size      ::= '(' integer ')'
modifier  ::= UNSIGNED | ZEROFILL
charset   ::= (CHARACTER SET | CHARSET) identifier
collate   ::= COLLATE identifier
```

The width and the modifiers of an integer type, the scale of `DECIMAL`, the character set and the
collation are read and dropped.  `text` belongs to the extended types.
-/

namespace TableDdl.Sql

open Grammar

/-- A `VARCHAR` width or `DATETIME` precision is at most this, the largest number of 32 bits. -/
def maxTypeWidth : Nat := 0xFFFFFFFF

/-- A `DECIMAL` precision is at most this. -/
def maxDecimalPrecision : Nat := 255

/-- An integer between parentheses. -/
def typeSize : Grammar Nat :=
  preceded whitespace0 (preceded (exactly "(") (preceded whitespace0
    (followedBy unsignedInteger (seq whitespace0 (exactly ")")))))

/-- `UNSIGNED` or `ZEROFILL`. -/
def typeModifier : Grammar String :=
  preceded whitespace1 (alternatives [keyword "unsigned", keyword "zerofill"])

/-- The words that introduce a character set. -/
def charsetWords : Grammar String :=
  alternatives [keywords ["character", "set"], keyword "charset"]

/-- The character set of a type.  The value is its name. -/
def typeCharset : Grammar String :=
  preceded whitespace1 (preceded charsetWords (preceded whitespace1 identifier))

/-- The collation of a type.  The value is its name. -/
def typeCollate : Grammar String :=
  preceded whitespace1 (preceded (keyword "collate") (preceded whitespace1 identifier))

/-- The integer types and their keywords. -/
def intKeywords : List (String × TypeKind) :=
  [("bigint", .bigInt), ("smallint", .smallInt), ("tinyint", .tinyInt), ("int", .int)]

/-- One keyword of an integer type. -/
def intKind : Grammar TypeKind :=
  alternatives (intKeywords.map fun entry => map (fun _ => entry.2) (keyword entry.1))

/-- An integer type. -/
def someInt : Grammar DataType :=
  map (fun parts => ⟨parts.1, 0⟩)
    (seq intKind (seq (optional typeSize) (seq (optional typeModifier) (optional typeModifier))))

/-- A type of this kind and size, unless the size is above `limit`. -/
def sizedWithin (kind : TypeKind) (limit size : Nat) : Option DataType :=
  if limit < size then none else some ⟨kind, size⟩

/-- `VARCHAR` with its width. -/
def varchar : Grammar DataType :=
  refine (fun parts => sizedWithin .varChar maxTypeWidth parts.2.1)
    (seq (keyword "varchar") (seq typeSize (seq (optional typeCharset) (optional typeCollate))))

/-- `DATETIME` with its precision, 0 where none is given. -/
def datetime : Grammar DataType :=
  refine (fun parts => sizedWithin .dateTime maxTypeWidth (parts.2.getD 0))
    (seq (keyword "datetime") (optional typeSize))

/-- `DECIMAL` with its precision. -/
def decimal : Grammar DataType :=
  refine (fun parts => sizedWithin .decimal maxDecimalPrecision parts.2.1)
    (seq (seq (keyword "decimal") (seq whitespace0 (seq (exactly "(") whitespace0)))
      (seq unsignedInteger
        (seq (optional (preceded whitespace0 (preceded (exactly ",")
            (preceded whitespace0 unsignedInteger))))
          (seq whitespace0 (exactly ")")))))

/-- `TEXT` or `BIGTEXT`. -/
def textKind : Grammar TypeKind :=
  alternatives [map (fun _ => .text) (keyword "text"), map (fun _ => .bigText) (keyword "bigtext")]

/-- A type of the text family. -/
def textType : Grammar DataType :=
  map (fun parts => ⟨parts.1, 0⟩)
    (seq textKind (seq (optional typeCharset) (optional typeCollate)))

/-- The types that a column can have. -/
def dataTypes (extended : Bool) : List (Grammar DataType) :=
  [someInt, varchar, datetime, decimal] ++ if extended then [textType] else []

/-- The type of a column. -/
def dataType (extended : Bool) : Grammar DataType :=
  alternatives (dataTypes extended)

end TableDdl.Sql
