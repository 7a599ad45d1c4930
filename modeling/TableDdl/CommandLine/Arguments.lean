import TableDdl.Settings
import TableDdl.Text.Decimal
import TableDdl.Text.Display
import TableDdl.Text.LowerCase

/-!
# Command line arguments

The program takes four options, each with a value, and asks for two of them:

```
--ddl-file FILE        the script to read (required)
--schema-file FILE     where the schema is written
--options SETTINGS     settings of the dialect
--operation OPERATION  parse-ddl or export-schema, in any letter case (required)
-h, --help             what the program does
```

* A value is the next word or stands behind an equals sign.  The last value of an option counts.
* The beginning of an option's name will do if no other option begins so.
* A word that begins with a hyphen is taken for an option, unless it is a hyphen alone, a number, or
  holds a space and is the beginning of no option.
* Behind the word `--` no word is an option.

Words are told apart before any option is applied, so that an ambiguous name is reported first.
Then options are applied in order, up to the first that is wrong; what is missing comes next, then
words that belong to no option, and then a missing schema file.
-/

namespace TableDdl.CommandLine

/-! ## Options and words -/

/-- What the program is to do. -/
inductive Operation where
  | parseDdl
  | exportSchema
  deriving DecidableEq

/-- An option that takes a value. -/
inductive Flag where
  | ddlFile
  | schemaFile
  | options
  | operation
  deriving DecidableEq

/-- An option's name. -/
def Flag.name : Flag → String
  | ddlFile => "--ddl-file"
  | schemaFile => "--schema-file"
  | options => "--options"
  | operation => "--operation"

/-- What a name beginning with two hyphens stands for: an option with a value, or the help. -/
inductive LongName where
  | help
  | flag (f : Flag)
  deriving DecidableEq

/-- A long name as it is written. -/
def LongName.text : LongName → String
  | help => "--help"
  | flag f => f.name

/-- All long names, in the order in which they are listed. -/
def longNames : List LongName :=
  [.help, .flag .ddlFile, .flag .schemaFile, .flag .options, .flag .operation]

/-- What a word of the command line is. -/
inductive Word where
  /-- A value, or a word out of place. -/
  | plain
  /-- An option with a value behind an equals sign, or without. -/
  | flag (f : Flag) (value : Option String)
  /-- The help. -/
  | help
  /-- The help with a value, which it does not take. -/
  | helpWith (value : String)
  /-- An option that is not known, or the word `--`. -/
  | stray
  deriving DecidableEq

/-- Why the arguments are not accepted. -/
inductive Refusal where
  /-- The help was asked for. -/
  | help
  /-- The option's name could be several. -/
  | ambiguous (word : String) (names : List LongName)
  /-- The option has no value. -/
  | noValue (f : Flag)
  /-- The help has a value. -/
  | helpValue (value : String)
  /-- The operation, given in lower case, is not known. -/
  | invalidOperation (value : String)
  /-- These options are missing. -/
  | missing (flags : List Flag)
  /-- These words belong to no option. -/
  | unrecognized (words : List String)
  /-- The schema file is missing. -/
  | noSchemaFile
  deriving DecidableEq

/-- The name of an operation. -/
def Operation.name : Operation → String
  | parseDdl => "parse-ddl"
  | exportSchema => "export-schema"

/-- The wording of a refusal.  The help has none. -/
def Refusal.message : Refusal → Option String
  | help => none
  | ambiguous word names =>
      some ("ambiguous option: " ++ word ++ " could match " ++
        ", ".intercalate (names.map LongName.text))
  | noValue f => some ("argument " ++ f.name ++ ": expected one argument")
  | helpValue value =>
      some ("argument -h/--help: ignored explicit argument " ++ Text.quoteText value)
  | invalidOperation value =>
      some ("argument --operation: invalid choice: " ++ Text.quoteText value ++ " (choose from " ++
        ", ".intercalate ([Operation.parseDdl, Operation.exportSchema].map fun op =>
          Text.quoteText op.name) ++ ")")
  | missing flags =>
      some ("the following arguments are required: " ++ ", ".intercalate (flags.map Flag.name))
  | unrecognized words => some ("unrecognized arguments: " ++ " ".intercalate words)
  | noSchemaFile => some "--schema-file is required for export-schema"

/-! ## Telling words apart -/

/-- The word for a long name, with the value behind its equals sign if there is one. -/
def LongName.word (value : Option String) : LongName → Word
  | flag f => .flag f value
  | help =>
      match value with
      | some v => .helpWith v
      | none => .help

/-- A text up to its first equals sign, and what stands behind that. -/
def splitAtEquals (text : List Char) : List Char × Option (List Char) :=
  match text.dropWhile (· != '=') with
  | [] => (text, none)
  | _ :: value => (text.takeWhile (· != '='), some value)

/-- A word that begins with two hyphens. -/
def longWord (word : List Char) : Except Refusal (Option Word) :=
  let (name, value) := splitAtEquals word
  let value := value.map String.ofList
  match longNames.find? fun long => long.text.toList == name with
  | some long => .ok (some (long.word value))
  | none =>
      match longNames.filter fun long => name.isPrefixOf long.text.toList with
      | [] => .ok none
      | [long] => .ok (some (long.word value))
      | several => .error (.ambiguous (String.ofList word) several)

/-- What follows `-h` in one word.  Each further `h` asks for the help again, any other letter is no
option and does not matter any more; what stands behind an equals sign, or begins with a hyphen, is
a value. -/
def helpTail : List Char → Word
  | [] => .help
  | '=' :: value => .helpWith (String.ofList value)
  | 'h' :: rest => helpTail rest
  | c :: rest => if c = '-' then .helpWith (String.ofList (c :: rest)) else .help

/-- A hyphen and a decimal number, a line break perhaps behind it. -/
def isNegativeNumber (word : List Char) : Bool :=
  match word with
  | '-' :: body =>
      let body := if body.getLast? = some '\n' then body.dropLast else body
      match body.dropWhile Text.isDecimal with
      | [] => !body.isEmpty
      | '.' :: fraction => !fraction.isEmpty && fraction.all Text.isDecimal
      | _ => false
  | _ => false

/-- A word that is the beginning of no option. -/
def otherWord (word : List Char) : Word :=
  if isNegativeNumber word || word.contains ' ' then .plain else .stray

/-- What a word is that does not stand behind `--`. -/
def classify (word : String) : Except Refusal Word :=
  match word.toList with
  | '-' :: '-' :: rest =>
      (longWord ('-' :: '-' :: rest)).map fun found =>
        found.getD (otherWord ('-' :: '-' :: rest))
  | '-' :: 'h' :: rest => .ok (helpTail rest)
  | '-' :: c :: rest => .ok (otherWord ('-' :: c :: rest))
  | _ => .ok .plain

/-- The words with what they are. -/
def classifyAll : List String → Except Refusal (List (String × Word))
  | [] => .ok []
  | word :: rest =>
      if word = "--" then .ok ((word, .stray) :: rest.map fun other => (other, .plain))
      else do
        let kind ← classify word
        let kinds ← classifyAll rest
        return (word, kind) :: kinds

/-! ## Applying options -/

/-- The options that have been given, and the words out of place, last word first. -/
structure Given where
  ddlFile : Option String := none
  schemaFile : Option String := none
  options : Option String := none
  operation : Option Operation := none
  extras : List String := []
  deriving DecidableEq

/-- The operation with this name, in any letter case. -/
def operationOf (value : String) : Except Refusal Operation :=
  let lowered := Text.lowerText value
  match [Operation.parseDdl, .exportSchema].find? fun op => op.name == lowered with
  | some op => .ok op
  | none => .error (.invalidOperation lowered)

/-- An option with its value. -/
def Given.set (g : Given) (f : Flag) (value : String) : Except Refusal Given :=
  match f with
  | .ddlFile => .ok { g with ddlFile := some value }
  | .schemaFile => .ok { g with schemaFile := some value }
  | .options => .ok { g with options := some value }
  | .operation => (operationOf value).map fun op => { g with operation := some op }

/-- The options that the words give. -/
def apply (g : Given) : List (String × Word) → Except Refusal Given
  | [] => .ok g
  | (_, .help) :: _ => .error .help
  | (_, .helpWith value) :: _ => .error (.helpValue value)
  | (_, .flag f (some value)) :: rest => do apply (← g.set f value) rest
  | (_, .flag f none) :: (value, .plain) :: rest => do apply (← g.set f value) rest
  | (_, .flag f none) :: _ => .error (.noValue f)
  | (word, .plain) :: rest => apply { g with extras := word :: g.extras } rest
  | (word, .stray) :: rest => apply { g with extras := word :: g.extras } rest

/-- What the program is asked to do. -/
structure Request where
  ddlFile : String
  schemaFile : Option String
  settings : Settings
  operation : Operation
  deriving DecidableEq

/-- The required options that have not been given. -/
def Given.missing (g : Given) : List Flag :=
  (if g.ddlFile.isNone then [.ddlFile] else []) ++ if g.operation.isNone then [.operation] else []

/-- The request that the options make. -/
def Given.request (g : Given) : Except Refusal Request :=
  match g.ddlFile, g.operation with
  | some ddlFile, some operation =>
      if !g.extras.isEmpty then .error (.unrecognized g.extras.reverse)
      else if operation = .exportSchema ∧ g.schemaFile.all String.isEmpty then
        .error .noSchemaFile
      else
        .ok ⟨ddlFile, g.schemaFile, Settings.ofText (g.options.getD Settings.defaults), operation⟩
  | _, _ => .error (.missing g.missing)

/-- The request that the arguments make. -/
def request (arguments : List String) : Except Refusal Request := do
  let words ← classifyAll arguments
  let given ← apply {} words
  given.request

end TableDdl.CommandLine
