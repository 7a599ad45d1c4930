import TableDdl.Schema.DefaultValue
import TableDdl.Schema.Table

/-!
# Values

What a grammar can find in a text: nothing, a text, a number, a part of a schema, or several values
together.  A tuple keeps the parts of a sequence; a list keeps what a repetition found.  A success
or a failure is a whole result of reading, with the text that remains.
-/

namespace TableDdl

/-- A value found in a text. -/
inductive Value where
  | null
  | str (s : String)
  | int (n : Int)
  | tuple (items : List Value)
  | list (items : List Value)
  | indexKind (kind : IndexKind)
  | dataType (t : DataType)
  | defaultValue (d : DefaultValue)
  | column (c : Column)
  | index (i : Index)
  | tableOptions (o : TableOptions)
  | table (t : Table)
  | success (remaining : String) (value : Value)
  | failure (remaining : String)

namespace Value

/-- A text, or nothing. -/
def ofText : Option String → Value
  | some s => str s
  | none => null

/-- A natural number, or nothing. -/
def ofNumber : Option Nat → Value
  | some n => int n
  | none => null

/-- A line of a table body. -/
def ofLine : BodyLine → Value
  | .column c => column c
  | .index i => index i

/-! ## Terms -/

/-- The items of a tuple between brackets.  A single item keeps a comma behind it. -/
def tupleTerm (items : List String) : String :=
  match items with
  | [item] => "(" ++ item ++ ",)"
  | _ => "(" ++ ", ".intercalate items ++ ")"

/-- The items of a list between brackets. -/
def listTerm (items : List String) : String :=
  "[" ++ ", ".intercalate items ++ "]"

mutual

/-- A value as a term: constructors applied to their fields, texts between quotes. -/
def term : Value → String
  | null => "None"
  | str s => Text.quoteText s
  | int n => toString n
  | tuple items => tupleTerm (terms items)
  | list items => listTerm (terms items)
  | indexKind kind => kind.term
  | dataType t => t.term
  | defaultValue d => d.term
  | column c => c.term
  | index i => i.term
  | tableOptions o => o.term
  | table t => t.term
  | success remaining value =>
      "Success(" ++ Text.quoteText remaining ++ ", " ++ term value ++ ")"
  | failure remaining => "Failure(" ++ Text.quoteText remaining ++ ")"

/-- The terms of several values. -/
def terms : List Value → List String
  | [] => []
  | value :: values => term value :: terms values

end

/-- A value as it is shown: the parts of a schema have a form of their own, a text stands bare, and
any other value is shown as a term. -/
def summary : Value → String
  | str s => s
  | indexKind kind => kind.name
  | dataType t => t.summary
  | defaultValue d => d.summary
  | column c => c.summary
  | index i => i.summary
  | tableOptions o => o.summary
  | table t => t.summary
  | value => value.term

/-- The value tells of a match. -/
def isSuccess : Value → Bool
  | success _ _ => true
  | _ => false

end Value

/-- The table whose body has these values as its lines.  A value that is no line of a table body
is refused. -/
def Table.ofValues (name : String) (lines : List Value) (options : TableOptions) :
    Except Error Table := do
  let columns ← lines.filterMapM fun line =>
    match line with
    | .column c => .ok (some c)
    | .index _ => .ok none
    | other => .error (.unknownBodyLine other.term)
  return ⟨name, columns, options⟩

end TableDdl
