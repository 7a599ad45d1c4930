import TableDdl.Files.Tree
import TableDdl.Script.Basic

/-!
# Scripts in files

The tables that a script file creates.  The database has the name of the file.  Where the path
cannot be followed or leads to no file, the reading ends before anything is logged.
-/

namespace TableDdl

namespace Script

/-- What was found at the path of a script. -/
inductive Found where
  /-- The path cannot be followed. -/
  | refused (cause : FileError)
  /-- The path leads to nothing. -/
  | missing
  /-- A file with its name, and with its text, if it has one. -/
  | file (name : String) (content : Except FileError (List Char))

/-- The database that the script found at a path creates. -/
def readFound (d : Dialect) (path : String) (found : Found) : Logged Database :=
  match found with
  | .refused cause => Logged.fail (.file cause)
  | .missing => Logged.fail (.missingScript path)
  | .file name content => do
      Logged.log .info ("Parsing ddl file " ++ path)
      match content with
      | .ok text => read d name text
      | .error e => Logged.fail (.file e)

end Script

/-- What the path of a script leads to in a tree. -/
def FileTree.script (t : FileTree) (path : String) : Script.Found :=
  match Path.follow t.homes path with
  | .error cause => .refused cause
  | .ok followed =>
      if t.holds followed.text then .file followed.name (t.readText path) else .missing

/-- The database that the script at a path of a tree creates. -/
def Script.readPath (d : Dialect) (t : FileTree) (path : String) : Logged Database :=
  Script.readFound d path (t.script path)

end TableDdl
