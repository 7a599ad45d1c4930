import TableDdl.Grammar.Combinators
import TableDdl.Text.Blank

/-!
# Tokens

The words, numbers and strings that statements are made of.

* A keyword matches in any ASCII letter case.  One that ends in a word character must not run on
  into another, so `KEY` does not match the beginning of `KEYS`.
* A name is a run of word characters, with or without a backtick on either side.
-/

namespace TableDdl.Grammar

/-- Blanks, perhaps none. -/
def whitespace0 : Grammar String :=
  map String.ofList (span Text.isBlank)

/-- At least one blank. -/
def whitespace1 : Grammar String :=
  map String.ofList (refine nonempty? (span Text.isBlank))

/-- Exactly the text `s`. -/
def exactly (s : String) : Grammar String :=
  map String.ofList (literal s.toList)

/-- No word character comes next. -/
def wordEnd : Grammar Unit :=
  ahead fun next => !next.any Text.isWord

/-- `lowered` in any ASCII letter case, and no further word character where it ends in one. -/
def caselessWord (lowered : List Char) : Grammar (List Char) :=
  if lowered.getLast?.any Text.isWord then map Prod.fst (seq (caseless lowered) wordEnd)
  else caseless lowered

/-- The keyword `text` in any ASCII letter case.  The value is the keyword as it is written. -/
def keyword (text : String) : Grammar String :=
  map String.ofList (caselessWord (Text.lower text.toList))

/-- The values of keywords that stand between blanks. -/
def keywordParts : List String → Grammar (List String)
  | [] => pure []
  | [text] => map (fun word => [word]) (keyword text)
  | text :: texts =>
      map (fun parts => parts.1 :: parts.2)
        (seq (keyword text) (preceded whitespace1 (keywordParts texts)))

/-- Words in capitals, one space between two. -/
def capitals (words : List String) : String :=
  String.ofList ((List.intercalate [' '] (words.map String.toList)).map Text.asciiUpper)

/-- Keywords with blanks between them.  The value is the words in capitals, one space between
two. -/
def keywords (texts : List String) : Grammar String :=
  map capitals (keywordParts texts)

/-- A run of digits. -/
def unsignedInteger : Grammar Nat := number

/-- A name, without its backticks. -/
def identifier : Grammar String :=
  map (fun parts => String.ofList parts.2.1)
    (seq (optional (exactly "`"))
      (seq (refine nonempty? (span Text.isWord)) (optional (exactly "`"))))

/-- A quoted string.  The value is its content. -/
def quotedString : Grammar String :=
  map String.ofList quoted

end TableDdl.Grammar
