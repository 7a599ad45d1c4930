import TableDdl.Dialect
import TableDdl.Sql.Body
import TableDdl.Sql.TableOptions

/-!
# Statements that create a table

```
create_table ::= CREATE [TEMPORARY] TABLE [IF NOT EXISTS] identifier '(' body_line+ ')' options
```

The statement is read in steps: blanks, `CREATE`, the rest of the head, `IF NOT EXISTS`, the name,
the opening parenthesis, the body, the closing parenthesis, the options.  Where a step does not
match, the mismatch is reported at the start of that step and not of the statement, so that an
error shows how far reading came.
-/

namespace TableDdl.Sql

open Grammar

/-- `TEMPORARY` and the blanks behind it, if it is there. -/
def temporaryWord : Grammar (Option (String × String)) :=
  optional (seq (keyword "temporary") whitespace1)

/-- The head of a statement behind `CREATE`. -/
def tableHead : Grammar (String × Option (String × String) × String × String) :=
  seq whitespace1 (seq temporaryWord (seq (keyword "table") whitespace1))

/-- `IF NOT EXISTS` and the blanks behind it, if it is there. -/
def ifNotExists : Grammar (Option (String × String)) :=
  optional (seq (keywords ["if", "not", "exists"]) whitespace1)

/-- The parts of a statement that creates a table. -/
structure CreateTable where
  name : String
  body : List BodyLine
  options : TableOptions
  deriving DecidableEq

/-- The schema of the table that a statement creates. -/
def CreateTable.table (s : CreateTable) : Table :=
  Table.ofBody s.name s.body s.options

/-- Name, body and options of the statement, each a step of its own. -/
def tableParts (d : Dialect) : Grammar (String × List BodyLine × TableOptions) :=
  pair identifier
    (map Prod.snd (pair (seq whitespace0 (seq (exactly "(") whitespace0))
      (pair (many1 (bodyLine d.extendedTypes))
        (map Prod.snd (pair (seq whitespace0 (exactly ")")) (tableOptions d.relaxedOptions))))))

/-- A statement that creates a table. -/
def createTable (d : Dialect) : Grammar CreateTable :=
  map (fun parts => ⟨parts.2.2.2.2.1, parts.2.2.2.2.2.1, parts.2.2.2.2.2.2⟩)
    (pair whitespace0 (pair (keyword "create") (pair tableHead (pair ifNotExists (tableParts d)))))

/-- The schema of the table that a statement creates. -/
def tableSchema (d : Dialect) : Grammar Table :=
  map CreateTable.table (createTable d)

/-- How a statement that creates a table begins. -/
def createTableHead : Grammar Unit :=
  map (fun _ => ())
    (seq whitespace0 (seq (keyword "create")
      (seq whitespace1 (seq temporaryWord (keyword "table")))))

/-- The statement begins like one that creates a table. -/
def isCreateTable (statement : List Char) : Bool :=
  match createTableHead.run (.start statement) with
  | .matched _ _ => true
  | _ => false

end TableDdl.Sql
