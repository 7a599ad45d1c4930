import TableDdl.Dialect
import TableDdl.Text.LowerCase
import TableDdl.Text.Word

/-!
# Settings

A list of keys and values in a text such as `relaxed-table-options=True;extended-types=False`.  A
key and its value are runs of word characters and hyphens with an equals sign between them; what
stands between two entries does not matter.  A run that could be a key but is not followed by an
equals sign and a value is passed over, and so is an equals sign behind a value.

Keys keep the order in which they first occur.  The last value of a key counts.
-/

namespace TableDdl

/-- Keys with their values, in the order in which the keys first occurred. -/
structure Settings where
  entries : List (String × String) := []
  deriving DecidableEq

namespace Settings

/-! ## Reading entries from a text -/

/-- Character of a key or a value. -/
def isKeyChar (c : Char) : Bool := Text.isWord c || c == '-'

/-- Where reading stands: in a run that may become a key, or behind a key and its equals sign in a
run that may become its value.  Runs are kept last character first. -/
inductive Reading where
  | key (run : List Char)
  | value (key run : List Char)

/-- The entry that ends where the text ends or a character follows that is not of a key. -/
def Reading.entry : Reading → List (String × String)
  | key _ => []
  | value k run =>
      if run.isEmpty then [] else [(String.ofList k.reverse, String.ofList run.reverse)]

/-- Where reading stands behind a character that is not of a key. -/
def Reading.stop (c : Char) : Reading → Reading
  | key run => if c = '=' ∧ !run.isEmpty then value run [] else key []
  | value _ _ => key []

/-- Where reading stands behind a character of a key. -/
def Reading.push (c : Char) : Reading → Reading
  | key run => key (c :: run)
  | value k run => value k (c :: run)

/-- The entries in a text, in order. -/
def scan (reading : Reading) : List Char → List (String × String)
  | [] => reading.entry
  | c :: rest =>
      if isKeyChar c then scan (reading.push c) rest
      else reading.entry ++ scan (reading.stop c) rest

/-! ## Looking up and changing -/

/-- The entries with `key` set to `value`: in its place if it has one, and otherwise at the end. -/
def putEntry (key value : String) : List (String × String) → List (String × String)
  | [] => [(key, value)]
  | entry :: rest =>
      if entry.1 = key then (key, value) :: rest else entry :: putEntry key value rest

/-- The settings with `key` set to `value`. -/
def put (s : Settings) (key value : String) : Settings :=
  ⟨putEntry key value s.entries⟩

/-- A key that has been set has its new value, and the other keys keep theirs. -/
theorem lookup_putEntry (key value k : String) (entries : List (String × String)) :
    (putEntry key value entries).lookup k = if k = key then some value else entries.lookup k := by
  induction entries with
  | nil =>
    rw [putEntry, List.lookup_cons]
    by_cases h : k = key
    · simp [h]
    · rw [beq_false_of_ne h]
      simp [h]
  | cons entry rest ih =>
    obtain ⟨name, old⟩ := entry
    rw [putEntry]
    split
    · next h =>
      subst h
      rw [List.lookup_cons, List.lookup_cons]
      by_cases hk : k = name
      · simp [hk]
      · rw [beq_false_of_ne hk]
        simp [hk]
    · next h =>
      rw [List.lookup_cons, List.lookup_cons, ih]
      by_cases hk : k = name
      · subst hk
        simp [show ¬k = key from h]
      · rw [beq_false_of_ne hk]

/-- The settings in a text. -/
def ofText (text : String) : Settings :=
  (scan (.key []) text.toList).foldl (fun s entry => s.put entry.1 entry.2) {}

/-- The value of a key. -/
def get? (s : Settings) (key : String) : Option String :=
  s.entries.lookup key

theorem get?_put (s : Settings) (key value k : String) :
    (s.put key value).get? k = if k = key then some value else s.get? k :=
  lookup_putEntry key value k s.entries

/-- The key is set to `true`, in any letter case.  A key that is not set counts as false. -/
def flag (s : Settings) (key : String) : Bool :=
  Text.lowerText ((s.get? key).getD "False") == "true"

/-- The settings as a text. -/
def text (s : Settings) : String :=
  ";".intercalate (s.entries.map fun entry => entry.1 ++ "=" ++ entry.2)

/-! ## Settings of a dialect -/

/-- The settings that hold where none are given. -/
def defaults : String := "relaxed-table-options=False;extended-types=False"

/-- The dialect that the settings choose. -/
def dialect (s : Settings) : Dialect where
  relaxedOptions := s.flag "relaxed-table-options"
  extendedTypes := s.flag "extended-types"

end Settings

end TableDdl
