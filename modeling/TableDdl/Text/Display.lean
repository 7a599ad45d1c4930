import TableDdl.Text.Hex
import TableDdl.Text.Printable

/-!
# Displayed text

Messages show a text between quotes so that its limits and its special characters can be seen:

* the quote is `'`, or `"` where the text holds a `'` and no `"`;
* a backslash and the quote in use are written after a backslash;
* tab, line feed and carriage return are `\t`, `\n` and `\r`;
* any other character that is not printable is `\xhh`, `\uhhhh` or `\Uhhhhhhhh`, the shortest that
  holds its code point;
* all else stands for itself.
-/

namespace TableDdl.Text

/-- The quote that a displayed text stands between. -/
def displayQuote (text : List Char) : Char :=
  if '\'' ∈ text ∧ '"' ∉ text then '"' else '\''

/-- One character of a displayed text between the quotes `quote`. -/
def displayChar (quote c : Char) : List Char :=
  if c = quote ∨ c = '\\' then ['\\', c]
  else if c = '\t' then ['\\', 't']
  else if c = '\n' then ['\\', 'n']
  else if c = '\r' then ['\\', 'r']
  else if isPrintable c then [c]
  else if c.toNat < 0x100 then '\\' :: 'x' :: hexDigits 2 c.toNat
  else if c.toNat < 0x10000 then '\\' :: 'u' :: hexDigits 4 c.toNat
  else '\\' :: 'U' :: hexDigits 8 c.toNat

/-- A text between quotes, its special characters escaped. -/
def display (text : List Char) : List Char :=
  let quote := displayQuote text
  quote :: text.flatMap (displayChar quote) ++ [quote]

/-- A text between quotes. -/
def quoteText (text : String) : String :=
  String.ofList (display text.toList)

/-- How much of a text a message shows. -/
def displayLimit : Nat := 40

/-- The beginning of a text, between quotes. -/
def quoteStart (text : String) : String :=
  String.ofList (display (text.toList.take displayLimit))

end TableDdl.Text
