import TableDdl.Text.Hex

/-!
# JSON text

A JSON document and its text in one fixed layout:

* each field and item stands on a line of its own, indented by one tab for each level;
* a colon and a space follow a key, a comma ends every line but the last of its level, and the text
  ends without a line break;
* an empty array is `[]`;
* strings hold printable ASCII only.  A quote and a backslash stand behind a backslash, the usual
  control characters are `\n \r \t \b \f`, and all other characters are `\uxxxx`, two of these for a
  character beyond U+FFFF.
-/

namespace TableDdl.Export

/-- A JSON document. -/
inductive Json where
  | string (s : String)
  | number (n : Int)
  | array (items : List Json)
  | object (fields : List (String × Json))

namespace Json

/-! ## Strings -/

/-- A UTF-16 unit as an escape. -/
def unitEscape (unit : Nat) : List Char :=
  '\\' :: 'u' :: Text.hexDigits 4 unit

/-- A character as an escape, two of them beyond U+FFFF. -/
def codeEscape (c : Char) : List Char :=
  if c.toNat < 0x10000 then unitEscape c.toNat
  else
    unitEscape (0xD800 + (c.toNat - 0x10000) / 0x400) ++
      unitEscape (0xDC00 + (c.toNat - 0x10000) % 0x400)

/-- One character of a string. -/
def escape (c : Char) : List Char :=
  if c = '"' ∨ c = '\\' then ['\\', c]
  else if c = '\n' then ['\\', 'n']
  else if c = '\r' then ['\\', 'r']
  else if c = '\t' then ['\\', 't']
  else if c.toNat = 0x08 then ['\\', 'b']
  else if c.toNat = 0x0C then ['\\', 'f']
  else if 0x20 ≤ c.toNat ∧ c.toNat < 0x7F then [c]
  else codeEscape c

/-- A string between quotes. -/
def stringText (s : String) : List Char :=
  '"' :: s.toList.flatMap escape ++ ['"']

/-! ## Layout -/

/-- A new line at a level of indentation. -/
def newLine (level : Nat) : List Char :=
  '\n' :: List.replicate level '\t'

/-- Lines between an opening and a closing mark, indented by one level more than the marks. -/
def block (level : Nat) (opening closing : Char) (entries : List (List Char)) : List Char :=
  if entries.isEmpty then [opening, closing]
  else
    opening :: newLine (level + 1) ++
      List.intercalate (',' :: newLine (level + 1)) entries ++ newLine level ++ [closing]

mutual

/-- The text of a document at a level of indentation. -/
def layout (level : Nat) : Json → List Char
  | string s => stringText s
  | number n => (toString n).toList
  | array items => block level '[' ']' (layoutItems (level + 1) items)
  | object fields => block level '\x7b' '\x7d' (layoutFields (level + 1) fields)

/-- The texts of the items of an array. -/
def layoutItems (level : Nat) : List Json → List (List Char)
  | [] => []
  | item :: rest => layout level item :: layoutItems level rest

/-- The texts of the fields of an object. -/
def layoutFields (level : Nat) : List (String × Json) → List (List Char)
  | [] => []
  | (key, value) :: rest =>
      (stringText key ++ ':' :: ' ' :: layout level value) :: layoutFields level rest

end

/-- The text of a document. -/
def text (document : Json) : String :=
  String.ofList (layout 0 document)

end Json

end TableDdl.Export
