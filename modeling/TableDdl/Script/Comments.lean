import TableDdl.Text.Blank
import TableDdl.Text.Lines
import TableDdl.Text.Utf8

/-!
# Comments in scripts

Two things are dropped from a script before its statements are read.

* Lines that are blank or a comment: `# …`, `-- …`, and a line from `/*` to `*/`, a semicolon
  perhaps behind it.  Only how a line begins and ends counts.
* Block comments in front of a statement.  The closing mark of a block comment may share its star
  with the opening one: `/*/` is a whole comment.
-/

namespace TableDdl.Script

/-! ## Comment lines -/

/-- The line is a comment. -/
def isCommentLine (line : List Char) : Bool :=
  let t := Text.trim line
  ['#'].isPrefixOf t || ['-', '-'].isPrefixOf t ||
    (['/', '*'].isPrefixOf t && (['*', '/', ';'].isSuffixOf t || ['*', '/'].isSuffixOf t))

/-- The line holds part of a statement. -/
def isKeptLine (line : List Char) : Bool :=
  !Text.isAllBlank line && !isCommentLine line

/-- The script without a byte order mark, blank lines and comment lines. -/
def clean (script : List Char) : List Char :=
  Text.joinLines ((Text.lines (Text.dropByteOrderMark script)).filter isKeptLine)

/-! ## Comments in front of a statement -/

/-- What stands behind the first `*/`. -/
def afterClose : List Char → Option (List Char)
  | [] => none
  | '*' :: '/' :: rest => some rest
  | _ :: rest => afterClose rest

theorem length_lt_of_afterClose {text rest : List Char} (h : afterClose text = some rest) :
    rest.length < text.length := by
  fun_induction afterClose text with
  | case1 => simp at h
  | case2 r => simp only [Option.some.injEq] at h; subst h; simp only [List.length_cons]; omega
  | case3 c r _ ih => have := ih h; simp only [List.length_cons]; omega

/-- The text behind the block comment that the statement begins with, if it begins with one. -/
def afterComment? : List Char → Option (List Char)
  | '/' :: '*' :: rest => afterClose ('*' :: rest)
  | _ => none

theorem length_lt_of_afterComment? {text rest : List Char} (h : afterComment? text = some rest) :
    rest.length < text.length := by
  unfold afterComment? at h
  split at h
  · have := length_lt_of_afterClose h
    simp only [List.length_cons] at this ⊢
    omega
  · simp at h

theorem length_trimStart_le (text : List Char) : (Text.trimStart text).length ≤ text.length :=
  (List.dropWhile_suffix _).length_le

/-- The statement without the blanks and block comments in front of it. -/
def stripComments (statement : List Char) : List Char :=
  match _ : afterComment? (Text.trimStart statement) with
  | some rest => stripComments rest
  | none => Text.trimStart statement
termination_by statement.length
decreasing_by
  rename_i h
  exact Nat.lt_of_lt_of_le (length_lt_of_afterComment? h) (length_trimStart_le statement)

end TableDdl.Script
