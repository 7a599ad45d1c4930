import TableDdl.CommandLine.Arguments
import TableDdl.Export.Schema
import TableDdl.Script.File

/-!
# Running the command line

A run is a list of events in order, and an ending.  The events are the lines that the program
prints and the log records of its reading; the ending is an exit code, an error that is not
reported, or a file that remains to be written.

Errors about tables and a missing script are reported in one line and end the run with code 1.
-/

namespace TableDdl.CommandLine

/-- What happens during a run. -/
inductive Event where
  /-- A line of output. -/
  | output (line : String)
  /-- A line that reports an error. -/
  | report (line : String)
  /-- A log record. -/
  | logged (record : Log.Record)
  deriving DecidableEq

/-- How a run ends. -/
inductive Ending where
  /-- With a code for the caller. -/
  | exit (code : Nat)
  /-- With an error that is not reported. -/
  | failed (e : Error)
  /-- With a file to write, and then with code 0. -/
  | write (path text : String)

/-- The events and the ending of a run. -/
structure Run where
  events : List Event
  ending : Ending

/-- The error is about tables or a missing script, and not about the contents of a file. -/
def isReported : Error → Bool
  | .unparsed _ => true
  | .unknownColumn _ => true
  | .unknownDataType _ => true
  | .unknownIndexKind _ => true
  | .unknownBodyLine _ => true
  | .missingScript _ => true
  | .file .notFound => true
  | _ => false

/-- The lines that show a table: the table itself, and its columns behind a tab. -/
def tableLines (t : Table) : List String :=
  t.summary :: t.columns.map fun c => "\t" ++ c.summary

/-- What is done with a database. -/
def perform (r : Request) (d : Database) : Run :=
  match r.operation with
  | .parseDdl => ⟨(d.tables.flatMap tableLines).map .output, .exit 0⟩
  | .exportSchema =>
      ⟨[.output "Writing schema...."], .write (r.schemaFile.getD "") (Export.schemaText d)⟩

/-- How an error ends a run. -/
def abandon (e : Error) : Run :=
  if isReported e then ⟨[.report ("Error: " ++ e.message.getD "")], .exit 1⟩ else ⟨[], .failed e⟩

/-- The run of a request, where `found` is what stands at the path of its script. -/
def run (r : Request) (found : Script.Found) : Run :=
  let reading := Script.readFound r.settings.dialect r.ddlFile found
  let rest :=
    match reading.result with
    | .ok d => perform r d
    | .error e => abandon e
  ⟨.output "Parsing ddl...." :: reading.records.map .logged ++ rest.events, rest.ending⟩

/-! ## What a run leaves -/

namespace Event

/-- The text that an event prints. -/
def outputText : Event → String
  | output line => line ++ "\n"
  | _ => ""

/-- The text that an event reports. -/
def reportText : Event → String
  | report line => line ++ "\n"
  | _ => ""

/-- The record that an event logs. -/
def record? : Event → Option Log.Record
  | logged record => some record
  | _ => none

end Event

namespace Run

/-- All that a run prints. -/
def output (r : Run) : String := String.join (r.events.map Event.outputText)

/-- All that a run reports. -/
def report (r : Run) : String := String.join (r.events.map Event.reportText)

/-- All that a run logs. -/
def records (r : Run) : List Log.Record := r.events.filterMap Event.record?

end Run

/-- How an ending leaves a tree: the tree, and the exit code or the error. -/
def Ending.finish (t : FileTree) : Ending → FileTree × Except Error Nat
  | exit code => (t, .ok code)
  | failed e => (t, .error e)
  | write path text =>
      match (FileTree.writeText path text.toList).run t with
      | (.ok (), written) => (written, .ok 0)
      | (.error e, written) => (written, .error (.file e))

end TableDdl.CommandLine
