import TableDdl.Log.Basic
import TableDdl.Sql.CreateTable
import TableDdl.Text.Blank

/-!
# Statements

One statement that creates a table, alone in its text.  Blanks and one semicolon may stand behind
it.  Where the text is no such statement, the error tells what remained unread: the text from the
step that did not match, or what stands behind the statement.
-/

namespace TableDdl.Statement

open Log

/-- What stands behind a statement, apart from blanks and one semicolon. -/
def afterStatement (rest : List Char) : List Char :=
  match Text.trim rest with
  | ';' :: more => Text.trim more
  | other => other

/-- The error for a text that is left, logged with the words `about`. -/
def unparsed {α : Type} (about : String) (remaining : List Char) : Logged α := do
  let text := String.ofList remaining
  Logged.log .debug (about ++ Text.quoteStart text)
  Logged.fail (.unparsed text)

/-- The table that a statement creates. -/
def read (d : Dialect) (text : List Char) : Logged Table :=
  match (Sql.tableSchema d).run (.start text) with
  | .matched next table =>
      let rest := afterStatement next.rest
      if rest.isEmpty then pure table else unparsed "Unexpected text after statement " rest
  | .mismatch place => unparsed "Statement failed near " place.rest
  | .overlong digits => Logged.fail (.overlongInteger digits)

end TableDdl.Statement
