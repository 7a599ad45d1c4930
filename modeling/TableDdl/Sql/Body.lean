import TableDdl.Schema.Table
import TableDdl.Sql.Default

/-!
# The lines of a table body

```
body_line    ::= index_line | column_line
column_line  ::= identifier data_type default_clause [COMMENT quoted_string] end
end          ::= ',' | the closing parenthesis, which stays
index_line   ::= [PRIMARY | UNIQUE] (KEY | INDEX) [identifier] '(' index_column+ ')'
                 [USING (BTREE | HASH)] [',']
index_column ::= identifier [size] [ASC | DESC] [',']
```

A line is tried as an index first, so a `KEY` line is never read as a column of that name.
-/

namespace TableDdl.Sql

open Grammar

/-! ## Columns -/

/-- The comment of a column. -/
def commentClause : Grammar String :=
  preceded whitespace1 (preceded (keyword "comment") (preceded whitespace0 quotedString))

/-- What ends a column line: a comma, or the parenthesis that closes the body and stays. -/
def lineEnd : Grammar (Option String) :=
  alternatives [map some (exactly ","), map (fun _ => none) (ahead fun next => next == some ')')]

/-- A column line. -/
def columnLine (extended : Bool) : Grammar Column :=
  map (fun parts => ⟨parts.1, parts.2.1, parts.2.2.getD ""⟩)
    (followedBy
      (seq (preceded whitespace0 identifier)
        (seq (preceded whitespace1 (dataType extended))
          (preceded defaultClause (optional commentClause))))
      (seq whitespace0 (seq lineEnd whitespace0)))

/-! ## Indexes -/

/-- The word that makes an index primary or unique. -/
def indexPrefix : Grammar IndexKind :=
  alternatives
    [map (fun _ => .primary) (keyword "primary"), map (fun _ => .unique) (keyword "unique")]

/-- The order of a column in an index. -/
def sortOrder : Grammar String :=
  preceded whitespace1 (alternatives [keyword "asc", keyword "desc"])

/-- A column of an index, with all that stands around it. -/
def indexColumn :
    Grammar (String × String × Option Nat × Option String × String × Option String) :=
  seq whitespace0 (seq identifier (seq (optional typeSize) (seq (optional sortOrder)
    (seq whitespace0 (optional (exactly ","))))))

/-- The columns of an index between parentheses.  The value is their names. -/
def indexColumns : Grammar (List String) :=
  map (fun columns => columns.map fun parts => parts.2.1)
    (preceded (exactly "(") (followedBy (many1 indexColumn) (seq whitespace0 (exactly ")"))))

/-- The method of an index, as it is written. -/
def indexUsing : Grammar String :=
  preceded whitespace1 (preceded (keyword "using") (preceded whitespace1
    (alternatives [keyword "btree", keyword "hash"])))

/-- The kind of an index, by what stands in front of it. -/
def indexKind : Grammar IndexKind :=
  map (fun found => found.getD .normal) (optional (followedBy indexPrefix whitespace1))

/-- An index line. -/
def indexLine : Grammar Index :=
  map (fun parts =>
      { name := parts.2.1.getD ""
        kind := parts.1
        columnNames := parts.2.2.1
        usingType := parts.2.2.2.map fun method => capitals [method] })
    (followedBy
      (seq (preceded whitespace0 indexKind)
        (seq (preceded (alternatives [keyword "key", keyword "index"])
            (preceded whitespace0 (optional identifier)))
          (seq (preceded whitespace0 indexColumns) (optional indexUsing))))
      (seq whitespace0 (seq (optional (exactly ",")) whitespace0)))

/-! ## Lines -/

/-- A line of a table body. -/
def bodyLine (extended : Bool) : Grammar BodyLine :=
  orElse (map .index indexLine) (map .column (columnLine extended))

end TableDdl.Sql
