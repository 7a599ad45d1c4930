/-!
# Blank characters

The characters that separate words, and trimming.  Zero-width characters, the byte order mark
among them, are not blank.
-/

namespace TableDdl.Text

/-- Blank beyond ASCII: next line, the no-break spaces, the typographic spaces and the line and
paragraph separators. -/
def isWideBlank (n : Nat) : Bool :=
  n == 0x85 || n == 0xA0 || n == 0x1680 || (decide (0x2000 ≤ n) && decide (n ≤ 0x200A)) ||
    n == 0x2028 || n == 0x2029 || n == 0x202F || n == 0x205F || n == 0x3000

/-- Space, tab, line breaks, the four information separators, and the wide blanks. -/
def isBlank (c : Char) : Bool :=
  let n := c.toNat
  if n < 0x80 then
    n == 0x20 || (decide (0x09 ≤ n) && decide (n ≤ 0x0D)) ||
      (decide (0x1C ≤ n) && decide (n ≤ 0x1F))
  else isWideBlank n

/-- `text` without the blanks in front. -/
def trimStart (text : List Char) : List Char :=
  text.dropWhile isBlank

/-- `text` without the blanks at the end. -/
def trimEnd (text : List Char) : List Char :=
  (text.reverse.dropWhile isBlank).reverse

/-- `text` without the blanks at either end. -/
def trim (text : List Char) : List Char :=
  trimEnd (trimStart text)

/-- Nothing but blanks. -/
def isAllBlank (text : List Char) : Bool :=
  text.all isBlank

end TableDdl.Text
