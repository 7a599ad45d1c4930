/-!
# Lines

A text falls into lines at its line breaks: line feed, carriage return (the two together are one
break), vertical tab, form feed, the file, group and record separators, next line, and the line
and paragraph separators.  A break ends a line, so a break at the very end opens no further line.
-/

namespace TableDdl.Text

/-- Character that ends a line. -/
def isLineBreak (c : Char) : Bool :=
  let n := c.toNat
  (decide (0x0A ≤ n) && decide (n ≤ 0x0D)) || (decide (0x1C ≤ n) && decide (n ≤ 0x1E)) ||
    n == 0x85 || n == 0x2028 || n == 0x2029

/-- The lines of a text whose first line has begun with `current`, last character first. -/
def linesFrom (current : List Char) : List Char → List (List Char)
  | [] => if current.isEmpty then [] else [current.reverse]
  | '\r' :: '\n' :: rest => current.reverse :: linesFrom [] rest
  | c :: rest =>
      if isLineBreak c then current.reverse :: linesFrom [] rest else linesFrom (c :: current) rest

/-- The lines of a text, without their breaks. -/
def lines (text : List Char) : List (List Char) :=
  linesFrom [] text

/-- Lines joined by line feeds. -/
def joinLines (ls : List (List Char)) : List Char :=
  List.intercalate ['\n'] ls

/-- The characters of `text` before `done`, last first, with every carriage return, alone or before
a line feed, read as one line feed. -/
def unifyFrom (done : List Char) : List Char → List Char
  | [] => done.reverse
  | '\r' :: '\n' :: rest => unifyFrom ('\n' :: done) rest
  | c :: rest => unifyFrom ((if c = '\r' then '\n' else c) :: done) rest

/-- A text file's breaks `\r\n` and `\r` read as `\n`. -/
def unifyBreaks (text : List Char) : List Char :=
  unifyFrom [] text

end TableDdl.Text
