import TableDdl.Schema.Table
import TableDdl.Sql.DataType

/-!
# Table options

```
engine    ::= ENGINE ['='] identifier
charset   ::= [DEFAULT] (CHARACTER SET | CHARSET) ['='] identifier
collate   ::= [DEFAULT] COLLATE ['='] identifier
comment   ::= COMMENT ['='] quoted_string
increment ::= AUTO_INCREMENT ['='] integer
format    ::= ROW_FORMAT ['='] identifier
```

Strictly, a table has the first four, each once and in this order.  Relaxed, it has any of the six
in any order and number; the last of each kind counts, and `increment` and `format` are dropped.
-/

namespace TableDdl.Sql

open Grammar

/-- An option: what names it, perhaps an equals sign, and its value. -/
def optionOf {α β : Type} (name : Grammar α) (value : Grammar β) : Grammar β :=
  preceded name (preceded whitespace0
    (preceded (optional (exactly "=")) (preceded whitespace0 value)))

/-- `DEFAULT`, which may stand before two of the options. -/
def defaultPrefix : Grammar (Option (String × String)) :=
  optional (seq (keyword "default") whitespace1)

/-- The storage engine. -/
def engineOption : Grammar String :=
  optionOf (keyword "engine") identifier

/-- The character set. -/
def charsetOption : Grammar String :=
  optionOf (preceded defaultPrefix charsetWords) identifier

/-- The collation. -/
def collateOption : Grammar String :=
  optionOf (preceded defaultPrefix (keyword "collate")) identifier

/-- The comment on the table. -/
def commentOption : Grammar String :=
  optionOf (keyword "comment") quotedString

/-- The number that the next row counts from. -/
def autoIncrementOption : Grammar Nat :=
  optionOf (keyword "auto_increment") unsignedInteger

/-- The format of the rows. -/
def rowFormatOption : Grammar String :=
  optionOf (keyword "row_format") identifier

/-! ## Strict options -/

/-- All four options in order. -/
def strictOptions : Grammar TableOptions :=
  map (fun parts => ⟨parts.1, parts.2.1, parts.2.2.1, parts.2.2.2⟩)
    (seq (preceded whitespace0 engineOption)
      (seq (preceded whitespace1 charsetOption)
        (seq (preceded whitespace1 collateOption) (preceded whitespace1 commentOption))))

/-! ## Relaxed options -/

/-- One option as it is given. -/
inductive OptionSetting where
  | engine (value : String)
  | charset (value : String)
  | collate (value : String)
  | comment (value : String)
  | dropped
  deriving DecidableEq

/-- The options after one more is given. -/
def OptionSetting.apply (o : TableOptions) : OptionSetting → TableOptions
  | engine value => { o with engine := value }
  | charset value => { o with charset := value }
  | collate value => { o with collate := value }
  | comment value => { o with comment := value }
  | dropped => o

/-- The options that a table can have. -/
def optionSettings : List (Grammar OptionSetting) :=
  [map .engine engineOption, map .charset charsetOption, map .collate collateOption,
    map .comment commentOption, map (fun _ => .dropped) autoIncrementOption,
    map (fun _ => .dropped) rowFormatOption]

/-- One option. -/
def optionSetting : Grammar OptionSetting :=
  alternatives optionSettings

/-- Any options in any order. -/
def relaxedOptions : Grammar TableOptions :=
  map (fun settings => settings.foldl OptionSetting.apply {})
    (many (preceded whitespace0 optionSetting))

/-- The options of a table, strict or relaxed. -/
def tableOptions (relaxed : Bool) : Grammar TableOptions :=
  if relaxed then relaxedOptions else strictOptions

end TableDdl.Sql
