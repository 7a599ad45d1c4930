/-!
# Cursors

A cursor is a place in a text.  The text itself is never cut: a cursor keeps the whole text, the
number of characters in front of it, and what is left from there, so that a grammar can look at the
characters ahead without counting from the start.

A cursor may stand beyond the end of its text.  Nothing is left there, and not even the empty text
stands there.
-/

namespace TableDdl

/-- A place in a text, with what is left of the text from there. -/
structure Cursor where
  text : List Char
  pos : Nat
  rest : List Char
  rest_eq : rest = text.drop pos
  deriving DecidableEq

namespace Cursor

/-- The cursor before the first character of `text`. -/
def start (text : List Char) : Cursor := ⟨text, 0, text, rfl⟩

/-- The cursor behind the first `pos` characters of `text`, or beyond its end. -/
def atPosition (text : List Char) (pos : Nat) : Cursor := ⟨text, pos, text.drop pos, rfl⟩

/-- The cursor `n` characters further on. -/
def advance (c : Cursor) (n : Nat) : Cursor :=
  ⟨c.text, c.pos + n, c.rest.drop n, by rw [c.rest_eq, List.drop_drop]⟩

/-- The cursor does not stand beyond the end of its text. -/
def isWithin (c : Cursor) : Bool := decide (c.pos ≤ c.text.length)

/-- The text goes on with `s`.  Beyond the end it goes on with nothing, the empty text included. -/
def startsWith (c : Cursor) (s : List Char) : Bool :=
  s.isPrefixOf c.rest && (!s.isEmpty || c.isWithin)

/-- A cursor is its text and its position. -/
theorem eq_of_text_of_pos {c d : Cursor} (ht : c.text = d.text) (hp : c.pos = d.pos) : c = d := by
  obtain ⟨ct, cp, cr, hc⟩ := c
  obtain ⟨dt, dp, dr, hd⟩ := d
  subst hc hd
  simp_all

@[simp]
theorem advance_zero (c : Cursor) : c.advance 0 = c :=
  eq_of_text_of_pos rfl rfl

theorem advance_advance (c : Cursor) (m n : Nat) : (c.advance m).advance n = c.advance (m + n) :=
  eq_of_text_of_pos rfl (Nat.add_assoc ..)

/-- What is left is what lies between the position and the end. -/
theorem length_rest (c : Cursor) : c.rest.length = c.text.length - c.pos := by
  rw [c.rest_eq, List.length_drop]

end Cursor

end TableDdl
