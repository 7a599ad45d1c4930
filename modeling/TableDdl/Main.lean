import Std.Time.DateTime.Timestamp
import TableDdl.CommandLine.Run

/-!
# The program

Finds the script on disk, runs the command line, and carries out what the run comes to: its lines
are printed, its records are logged among them, and the schema is written.
-/

namespace TableDdl.Main

open CommandLine

/-- The name of the log in its lines. -/
def logName : String := "ddl_parser"

/-- The variable that holds the name of the level from which records are shown. -/
def levelVariable : String := "DDL_SCRIPTER_LOG_LEVEL"

/-- How the program is called. -/
def usage : String :=
  "usage: table-ddl [-h] --ddl-file FILE [--schema-file FILE] [--options SETTINGS] " ++
    "--operation OPERATION"

/-- The variable that holds the home folder of whoever runs the program. -/
def homeVariable : String := "HOME"

/-- The file with a line for each user, their home folders among it. -/
def accountsFile : String := "/etc/passwd"

/-- The name and the home folder of a user, from the user's line. -/
def account? (line : String) : Option (String × String) :=
  match line.splitOn ":" with
  | name :: _ :: _ :: _ :: _ :: home :: _ => some (name, home)
  | _ => none

/-- The home folders that are known on this machine. -/
def homes : IO Path.Homes := do
  let own := (← IO.getEnv homeVariable).toList.map fun home => ("", home)
  let accounts ← try IO.FS.readFile accountsFile catch _ => pure ""
  return own ++ (accounts.splitOn "\n").filterMap account?

/-- What the path of a script leads to. -/
def found (path : String) : IO Script.Found := do
  match Path.follow (← homes) path with
  | .error cause => return .refused cause
  | .ok followed =>
      let place := (← IO.currentDir) / followed.text
      if !(← place.pathExists) then return .missing
      if ← place.isDir then return .file followed.name (.error .isFolder)
      match Text.decodeFile (← IO.FS.readBinFile place) with
      | some text => return .file followed.name (.ok text)
      | none => return .file followed.name (.error .notText)

/-- Writes the file that a path leads to, and makes its folder if it is missing.  Where the path
cannot be followed, tells why. -/
def write (path text : String) : IO (Except FileError Unit) := do
  match Path.follow (← homes) path with
  | .error cause => return .error cause
  | .ok followed =>
      let folder := Path.parent followed.text
      unless folder.isEmpty do IO.FS.createDirAll folder
      IO.FS.writeFile followed.text text
      return .ok ()

/-- Prints what happens, and logs the records that matter enough. -/
def emit (level : Int) : Event → IO Unit
  | .output line => IO.println line
  | .report line => IO.eprintln line
  | .logged record => do
      if level ≤ record.level.number then
        let now ← Std.Time.Timestamp.now
        IO.println
          (Log.line now.toSecondsSinceUnixEpoch.val logName record.level.number record.message)

/-- The wording of an error that is not reported by the run itself. -/
def failure (e : Error) : String :=
  match e with
  | .file .isFolder => "is a folder"
  | .file .notText => "is no UTF-8 text"
  | e => e.message.getD "cannot be used"

/-- Carries out a request, and gives the exit code. -/
def carryOut (request : Request) : IO UInt32 := do
  let level := Log.levelOfName (← IO.getEnv levelVariable)
  let run := CommandLine.run request (← found request.ddlFile)
  for event in run.events do emit level event
  match run.ending with
  | .exit code => return code.toUInt32
  | .write path text => do
      match ← write path text with
      | .ok () => return 0
      | .error cause => do
          IO.eprintln (path ++ ": " ++ failure (.file cause))
          return 1
  | .failed e => do
      IO.eprintln (request.ddlFile ++ ": " ++ failure e)
      return 1

end TableDdl.Main

/-- The program: exit code 0 where all went well or the help was asked for, 1 where the script could
not be read, 2 where the arguments are wrong. -/
def main (arguments : List String) : IO UInt32 := do
  match TableDdl.CommandLine.request arguments with
  | .ok request => TableDdl.Main.carryOut request
  | .error refusal =>
      match refusal.message with
      | none => do
          IO.println TableDdl.Main.usage
          return 0
      | some message => do
          IO.eprintln TableDdl.Main.usage
          IO.eprintln ("table-ddl: error: " ++ message)
          return 2
