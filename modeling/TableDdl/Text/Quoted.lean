/-!
# Quoted strings

A string stands between two quotes of one kind, `'` or `"`.  Inside, a character stands for itself
unless it is a quote of either kind, a backslash, a line feed, a carriage return or a tab; these
are written as a backslash and a letter or the character itself:

```
\n  \r  \t  \\  \/  \"  \'
```

Any other character behind a backslash, and any of the bare characters above, makes the text no
string at all.
-/

namespace TableDdl.Text.Quoted

/-- The character that an escape letter stands for. -/
def unescape : Char → Option Char
  | 'n' => some '\n'
  | 'r' => some '\r'
  | 't' => some '\t'
  | '\\' => some '\\'
  | '/' => some '/'
  | '"' => some '"'
  | '\'' => some '\''
  | _ => none

/-- One of the two quotes. -/
def isQuote (c : Char) : Bool := c == '\'' || c == '"'

/-- Character that stands for itself between quotes. -/
def isPlain (c : Char) : Bool :=
  !(isQuote c || c == '\\' || c == '\n' || c == '\r' || c == '\t')

/-- Reads on behind `count` characters of a string opened by `quote`, whose content so far is
`done`, last character first: the content, and how many characters the string takes up. -/
def decodeFrom (quote : Char) (done : List Char) (count : Nat) : List Char →
    Option (List Char × Nat)
  | [] => none
  | ['\\'] => none
  | '\\' :: e :: rest =>
      match unescape e with
      | some c => decodeFrom quote (c :: done) (count + 2) rest
      | none => none
  | c :: rest =>
      if c = quote then some (done.reverse, count + 1)
      else if isPlain c then decodeFrom quote (c :: done) (count + 1) rest
      else none

/-- The content of the quoted string that the text begins with, and how many characters it takes
up with its quotes. -/
def decode : List Char → Option (List Char × Nat)
  | [] => none
  | c :: rest => if isQuote c then decodeFrom c [] 1 rest else none

/-- The escape letter of a character that cannot stand for itself. -/
def escape (c : Char) : List Char :=
  if c = '\n' then ['\\', 'n']
  else if c = '\r' then ['\\', 'r']
  else if c = '\t' then ['\\', 't']
  else if isPlain c then [c]
  else ['\\', c]

/-- `text` as a string between the quotes `quote`. -/
def encode (quote : Char) (text : List Char) : List Char :=
  quote :: text.flatMap escape ++ [quote]

end TableDdl.Text.Quoted
