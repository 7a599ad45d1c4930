import TableDdl.Error
import TableDdl.Log.Calendar
import TableDdl.Text.LowerCase

/-!
# Log records

Reading tables leaves log records.  They are part of what a reading returns (`Logged`), in the
order in which they arise, and stand beside an error as well as beside a result.
-/

namespace TableDdl

namespace Log

/-- How much a record matters. -/
inductive Level where
  | debug
  | info
  | warning
  deriving DecidableEq

/-- Levels by number.  A record is shown where its number is not below the number of the log. -/
def Level.number : Level → Int
  | debug => 10
  | info => 20
  | warning => 30

/-- The name of a level number, itself where it has none. -/
def levelName (number : Int) : String :=
  if number = 50 then "CRITICAL"
  else if number = 40 then "ERROR"
  else if number = 30 then "WARNING"
  else if number = 20 then "INFO"
  else if number = 10 then "DEBUG"
  else if number = 0 then "NOTSET"
  else "Level " ++ toString number

/-- The level numbers that have a name. -/
def levelNumbers : List (String × Int) :=
  [("CRITICAL", 50), ("FATAL", 50), ("ERROR", 40), ("WARNING", 30), ("WARN", 30), ("INFO", 20),
    ("DEBUG", 10), ("NOTSET", 0)]

/-- The ASCII capital of a character: of an ASCII small letter, and of the two other letters that
have one, the dotless i and the long s. -/
def capital (c : Char) : Char :=
  if c = 'ı' then 'I' else if c = 'ſ' then 'S' else Text.asciiUpper c

/-- The number of the level with this name in any letter case, and that of `INFO` where the name is
missing or no level has it. -/
def levelOfName (name : Option String) : Int :=
  match name with
  | none => 20
  | some name => ((levelNumbers.lookup (String.ofList (name.toList.map capital))).getD 20)

/-- A message and how much it matters. -/
structure Record where
  level : Level
  message : String
  deriving DecidableEq

/-- The record as a short line: level and message. -/
def Record.text (r : Record) : String :=
  levelName r.level.number ++ " " ++ r.message

/-- A line of the log `name`: time, name, level, message. -/
def line (seconds : Int) (name : String) (level : Int) (message : String) : String :=
  (Moment.ofSeconds seconds).text ++ " - " ++ name ++ " - " ++ levelName level ++ " - " ++ message

end Log

/-- A result or an error, with the records that arose on the way. -/
structure Logged (α : Type) where
  records : List Log.Record
  result : Except Error α

namespace Logged

/-- A result without records. -/
def pure {α : Type} (value : α) : Logged α := ⟨[], .ok value⟩

/-- An error without records. -/
def fail {α : Type} (e : Error) : Logged α := ⟨[], .error e⟩

/-- One record. -/
def log (level : Log.Level) (message : String) : Logged Unit := ⟨[⟨level, message⟩], .ok ()⟩

/-- `k` behind `x`, unless `x` ends in an error. -/
def bind {α β : Type} (x : Logged α) (k : α → Logged β) : Logged β :=
  match x.result with
  | .ok value => ⟨x.records ++ (k value).records, (k value).result⟩
  | .error e => ⟨x.records, .error e⟩

/-- Steps in order: records add up, and the first error ends them. -/
instance : Monad Logged where
  pure := pure
  bind := bind

@[simp]
theorem bind_pure {α β : Type} (value : α) (k : α → Logged β) :
    (Logged.pure value).bind k = k value := by
  simp [Logged.bind, Logged.pure]

@[simp]
theorem bind_fail {α β : Type} (e : Error) (k : α → Logged β) :
    (Logged.fail e : Logged α).bind k = Logged.fail e := rfl

end Logged

end TableDdl
