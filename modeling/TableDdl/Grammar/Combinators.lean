import TableDdl.Grammar.Basic

/-!
# Putting grammars together

The usual ways to combine grammars, each made of the primitives.  A sequence that does not match
reports its own start, whichever of its parts failed, so that a caller who tries something else
goes on from there.
-/

namespace TableDdl.Grammar

/-- `g` and then `h`, or a mismatch at the start. -/
def seq {α β : Type} (g : Grammar α) (h : Grammar β) : Grammar (α × β) :=
  attempt (pair g h)

/-- `g`, or nothing at all. -/
def optional {α : Type} (g : Grammar α) : Grammar (Option α) :=
  orElse (map some g) (pure none)

/-- `g` behind `first`.  The value is that of `g` alone. -/
def preceded {α β : Type} (first : Grammar α) (g : Grammar β) : Grammar β :=
  map Prod.snd (seq first g)

/-- `g` with `last` behind it.  The value is that of `g` alone. -/
def followedBy {α β : Type} (g : Grammar α) (last : Grammar β) : Grammar α :=
  map Prod.fst (seq g last)

/-- The first of the grammars that matches. -/
def alternatives {α : Type} : List (Grammar α) → Grammar α
  | [] => fail
  | g :: gs => orElse g (alternatives gs)

/-- All the grammars in order.  The value is the list of their values. -/
def sequence {α : Type} : List (Grammar α) → Grammar (List α)
  | [] => pure []
  | g :: gs => map (fun parts => parts.1 :: parts.2) (seq g (sequence gs))

/-- The list, unless it is empty. -/
def nonempty? {α : Type} (xs : List α) : Option (List α) :=
  if xs.isEmpty then none else some xs

/-- `g` at least once. -/
def many1 {α : Type} (g : Grammar α) : Grammar (List α) :=
  refine nonempty? (many g)

end TableDdl.Grammar
