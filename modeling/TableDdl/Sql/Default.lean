import TableDdl.Schema.DefaultValue
import TableDdl.Sql.DataType

/-!
# Default values in a column line

```
default_clause    ::= [NOT NULL | NULL] [default_literal]
default_literal   ::= DEFAULT integer | DEFAULT quoted_string | DEFAULT NULL
                    | DEFAULT current_timestamp [ON UPDATE current_timestamp] | AUTO_INCREMENT
current_timestamp ::= CURRENT_TIMESTAMP [size]
```

The clause tells only whether there is a literal at all: whichever it is, the clause is `Null`.
-/

namespace TableDdl.Sql

open Grammar

/-- `NOT NULL` or `NULL`. -/
def nullClause : Grammar String :=
  preceded whitespace1 (alternatives [keywords ["not", "null"], keyword "null"])

/-- The current time, with its precision. -/
def currentTimestamp : Grammar (String × Option Nat) :=
  seq (keyword "current_timestamp") (optional typeSize)

/-- What a row's update sets. -/
def onUpdateClause : Grammar (String × String × String × String × Option Nat) :=
  seq whitespace1 (seq (keywords ["on", "update"]) (seq whitespace1 currentTimestamp))

/-- `DEFAULT` and `g`. -/
def defaulted {α : Type} (g : Grammar α) : Grammar α :=
  preceded (keyword "default") (preceded whitespace1 g)

/-- An integer default. -/
def defaultInt : Grammar DefaultValue :=
  map (fun n : Nat => ⟨.int, .int n⟩) (defaulted unsignedInteger)

/-- A string default. -/
def defaultStr : Grammar DefaultValue :=
  map (fun s => ⟨.str, .str s⟩) (defaulted quotedString)

/-- The default `NULL`. -/
def defaultNull : Grammar DefaultValue :=
  map (fun _ => ⟨.null, .none⟩) (keywords ["default", "null"])

/-- The current time as a default, perhaps renewed by each update. -/
def defaultCurrentTimestamp : Grammar DefaultValue :=
  map (fun parts =>
      ⟨if parts.2.isSome then .currentTimestampOnUpdate else .currentTimestamp, .none⟩)
    (seq (defaulted currentTimestamp) (optional onUpdateClause))

/-- A number that counts the rows. -/
def autoIncrement : Grammar DefaultValue :=
  map (fun _ => ⟨.autoIncrement, .none⟩) (keyword "auto_increment")

/-- The literals that a column can default to. -/
def defaultLiterals : List (Grammar DefaultValue) :=
  [defaultInt, defaultStr, defaultNull, defaultCurrentTimestamp, autoIncrement]

/-- The literal that a column defaults to. -/
def defaultLiteral : Grammar DefaultValue :=
  preceded whitespace1 (alternatives defaultLiterals)

/-- Whether a column has a default. -/
def defaultClause : Grammar DefaultValue :=
  map (fun parts => ⟨if parts.2.isSome then .null else .noDefault, .none⟩)
    (seq (optional nullClause) (optional defaultLiteral))

end TableDdl.Sql
