import TableDdl.Sql.Rule

/-!
# Grammar expressions

Grammars that are put together from keywords, single texts and the rules of the statement grammar.
A keyword without characters has no last character that could decide about its end, so an
expression with one has no grammar.
-/

namespace TableDdl.Sql

/-- A grammar put together from parts. -/
inductive Expr where
  | keyword (text : String)
  | keywords (texts : List String)
  | exactly (text : String)
  | rule (name : Rule)
  | optional (part : Expr)
  | alternatives (parts : List Expr)
  | sequence (parts : List Expr)
  | preceded (first part : Expr)
  | many1 (part : Expr)
  | singleton (part : Expr)

namespace Expr

/-- The keyword, unless it is empty. -/
def keyword? (text : String) : Except Error (Grammar String) :=
  if text.isEmpty then .error .emptyKeyword else .ok (Grammar.keyword text)

mutual

/-- The grammar of an expression.  Its rules are those of the plain dialect. -/
def grammar : Expr → Except Error (Grammar Value)
  | keyword text => (keyword? text).map fun g => g.map .str
  | keywords texts =>
      if texts.any String.isEmpty then .error .emptyKeyword
      else .ok ((Grammar.keywords texts).map .str)
  | exactly text => .ok ((Grammar.exactly text).map .str)
  | rule name => .ok (name.grammar {})
  | optional part => part.grammar.map fun g => g.optional.map fun found => found.getD .null
  | alternatives parts => (grammars parts).map Grammar.alternatives
  | sequence parts => (grammars parts).map fun gs => (Grammar.sequence gs).map .tuple
  | preceded first part =>
      first.grammar.bind fun f => part.grammar.map fun g => Grammar.preceded f g
  | many1 part => part.grammar.map fun g => g.many1.map .list
  | singleton part => part.grammar.map fun g => g.map fun value => .tuple [value]

/-- The grammars of several expressions. -/
def grammars : List Expr → Except Error (List (Grammar Value))
  | [] => .ok []
  | part :: parts => part.grammar.bind fun g => (grammars parts).map fun gs => g :: gs

end

end Expr

end TableDdl.Sql
