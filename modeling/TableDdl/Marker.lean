import TableDdl.Text.Display

/-!
# Markers

A marker is a place in a text that is given by a signed number.  It may stand beyond the end of its
text, or before the beginning.  Places are then taken in two ways:

* a single character before the beginning is counted from the end, and before the whole text there
  is none;
* a stretch of text has limits that count from the end where they are negative, and that are moved
  into the text where they lie outside of it.
-/

namespace TableDdl

/-- A place in a text, perhaps outside of it. -/
structure Marker where
  text : List Char
  pos : Int := 0
  deriving DecidableEq

namespace Marker

/-- What a marker cannot tell. -/
inductive Fault where
  /-- The place lies before the whole text. -/
  | outOfRange
  /-- Less than nothing is left beyond the end. -/
  | negativeLength
  deriving DecidableEq

/-- The wording of a fault. -/
def Fault.message : Fault → String
  | outOfRange => "string index out of range"
  | negativeLength => "__len__() should return >= 0"

/-- A limit of a stretch of text, counted from the end where it is negative, and moved to the
beginning where it lies before that. -/
def limit (m : Marker) (place : Int) : Nat :=
  (if place < 0 then place + m.text.length else place).toNat

/-- The characters between two limits. -/
def stretch (m : Marker) (first last : Int) : List Char :=
  (m.text.take (m.limit last)).drop (m.limit first)

/-- The character `offset` places further on, if the text reaches so far. -/
def peek (m : Marker) (offset : Int) : Except Fault (Option Char) :=
  let place := m.pos + offset
  if m.text.length ≤ place then .ok none
  else
    let place := if place < 0 then place + m.text.length else place
    if place < 0 then .error .outOfRange else .ok m.text[place.toNat]?

/-- The next `length` characters. -/
def take (m : Marker) (length : Int) : List Char :=
  m.stretch m.pos (m.pos + length)

/-- The text goes on with `s`.  Beyond the end it goes on with nothing, the empty text included. -/
def startsWith (m : Marker) (s : List Char) : Bool :=
  decide (m.limit m.pos ≤ m.text.length) && s.isPrefixOf (m.text.drop (m.limit m.pos))

/-- The marker `length` places further on. -/
def advance (m : Marker) (length : Int) : Marker :=
  ⟨m.text, m.pos + length⟩

/-- What is left of the text. -/
def rest (m : Marker) : List Char :=
  m.text.drop (m.limit m.pos)

/-- How much is left of the text. -/
def length (m : Marker) : Except Fault Int :=
  let left := m.text.length - m.pos
  if left < 0 then .error .negativeLength else .ok left

/-- The marker as a term. -/
def term (m : Marker) : String :=
  "Cursor(" ++ Text.quoteStart (String.ofList m.rest) ++ ")"

end Marker

end TableDdl
