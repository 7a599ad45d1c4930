import TableDdl.Files.Path
import TableDdl.Text.Utf8

/-!
# File trees

Folders and files below one root, each under the names that lead to it, and the home folders that a
tilde in front of a path may stand for.  Reading and changing a tree follow the rules of a file
system:

* a path leads through folders only; `..` leads to the folder above, and above the root is the root;
* making a folder makes the missing folders on the way to it, and a folder that is there already is
  left as it is;
* a file is written into a folder that is there, and takes the place of the file that had its path;
* only where a file is read or written as a text does a tilde in front of its path stand for a home
  folder.
-/

namespace TableDdl

/-- What stands at a place of a tree. -/
inductive Entry where
  | folder
  | file (bytes : ByteArray)

/-- The entries below a root, each with the names that lead to it, and the home folders. -/
structure FileTree where
  entries : List (List String × Entry) := []
  homes : Path.Homes := []

/-- A change of a tree that may fail half-way. -/
abbrev FileTree.Change := ExceptT FileError (StateM FileTree)

namespace FileTree

/-! ## Places -/

/-- What stands at a place. -/
def get? (t : FileTree) (place : List String) : Option Entry :=
  if place.isEmpty then some .folder else t.entries.lookup place

/-- The tree with an entry at a place. -/
def put (t : FileTree) (place : List String) (entry : Entry) : FileTree :=
  { t with entries := t.entries.filter (fun old => old.1 != place) ++ [(place, entry)] }

/-- The tree without all that stands below a place. -/
def clear (t : FileTree) (place : List String) : FileTree :=
  { t with entries := t.entries.filter fun old => old.1 == place || !place.isPrefixOf old.1 }

/-- The tree without the entry at a place. -/
def erase (t : FileTree) (place : List String) : FileTree :=
  { t with entries := t.entries.filter fun old => old.1 != place }

/-- A name has at most this many bytes. -/
def maxNameSize : Nat := 255

/-- Why no entry can have this name. -/
def nameError? (name : String) : Option FileError :=
  if name.toList.contains '\x00' then some .nullInPath
  else if maxNameSize < name.utf8ByteSize then some .refused
  else none

/-- The place that a name leads to from a folder. -/
def enter (folder : List String) (name : String) : List String :=
  if name = "." then folder else if name = ".." then folder.dropLast else folder ++ [name]

/-- The place that names lead to.  All but the last lead through folders. -/
def walk (t : FileTree) (here : List String) : List String → Except FileError (List String)
  | [] => .ok here
  | name :: rest =>
      match t.get? here with
      | some .folder =>
          match nameError? name with
          | some e => .error e
          | none => t.walk (enter here name) rest
      | some (.file _) => .error .notFolder
      | none => .error .notFound

/-- Something stands where names lead to. -/
def leadsSomewhere (t : FileTree) (names : List String) : Bool :=
  match t.walk [] names with
  | .ok place => (t.get? place).isSome
  | .error _ => false

/-- The names of a path, `.` among them. -/
def pathNames (path : String) : List String :=
  (Path.components path.toList).map String.ofList

/-- The place that a path leads to. -/
def place (t : FileTree) (path : String) : Except FileError (List String) :=
  if path.toList.contains '\x00' then .error .nullInPath
  else if path.isEmpty then .error .notFound
  else t.walk [] (pathNames path)

/-- What a path leads to. -/
def find (t : FileTree) (path : String) : Except FileError Entry := do
  match t.get? (← t.place path) with
  | some entry => .ok entry
  | none => .error .notFound

/-- Something stands at the path.  A slash at the end asks for a folder. -/
def holds (t : FileTree) (path : String) : Bool :=
  match t.find path with
  | .ok .folder => true
  | .ok (.file _) => path.toList.getLast? != some '/'
  | .error _ => false

/-! ## Reading -/

/-- The bytes of the file at a path. -/
def readBytes (t : FileTree) (path : String) : Except FileError ByteArray := do
  match ← t.find path with
  | .folder => .error .isFolder
  | .file bytes => .ok bytes

/-- The text of the file that a path leads to. -/
def readText (t : FileTree) (path : String) : Except FileError (List Char) := do
  let followed ← Path.follow t.homes path
  match Text.decodeFile (← t.readBytes followed.text) with
  | some text => .ok text
  | none => .error .notText

/-! ## Changing -/

/-- The place that a path leads to in the present tree. -/
def placeOf (path : String) : Change (List String) := do
  match (← get).place path with
  | .ok place => pure place
  | .error e => throw e

/-- Makes the one folder that names lead to, in a folder that is there. -/
def makeOne (names : List String) : Change Unit := do
  match (← get).walk [] names with
  | .error e => throw e
  | .ok place =>
      match (← get).get? place with
      | none => modify fun t => t.put place .folder
      | some .folder => pure ()
      | some (.file _) => throw .alreadyExists

/-- Makes the folder that names lead to, last name first.  Where the folder above it is missing,
that one is made before; a file that then turns out to have its place is left to the folder itself
to find, unless the last name is `.` and there is no more to make. -/
def makeFolders : List String → Change Unit
  | [] => pure ()
  | name :: above => do
      if !above.isEmpty && !(← get).leadsSomewhere above.reverse then
        tryCatch (makeFolders above) fun e => if e = .alreadyExists then pure () else throw e
        if name = "." then return
      makeOne (above.reverse ++ [name])

/-- Makes the folder at a path and those on the way to it. -/
def makeFolder (path : String) : Change Unit :=
  if path.isEmpty then throw .notFound
  else makeFolders (pathNames path).reverse

/-- Removes the folder at a path with all that it holds, which goes first.  A path that leads
through what it holds then leads nowhere, and one that ends in `.` does not serve to remove a
folder. -/
def removeFolder (path : String) : Change Unit := do
  match (← get).find path with
  | .error e => throw e
  | .ok (.file _) => throw .notFolder
  | .ok .folder =>
      let folder ← placeOf path
      modify fun t => t.clear folder
      discard (placeOf path)
      if folder.isEmpty || (pathNames path).getLast? == some "." then throw .refused
      modify fun t => t.erase folder

/-- Makes the folder at a path.  Where something is there already, `fresh` asks for an empty folder
in its place. -/
def createFolder (path : String) (fresh : Bool) : Change Unit := do
  if fresh && (← get).holds path then
    removeFolder path
    let folder ← placeOf path
    modify fun t => t.put folder .folder
  else makeFolder path

/-- Writes bytes into the file at a path, whose folder is made if it is missing. -/
def writeAt (path : String) (bytes : ByteArray) : Change Unit := do
  let folder := Path.parent path
  unless folder.isEmpty do makeFolder folder
  let place ← placeOf path
  match (← get).get? place with
  | some .folder => throw .isFolder
  | _ => modify fun t => t.put place (.file bytes)

/-- Writes bytes into the file that a path leads to, whose folder is made if it is missing. -/
def writeBytes (path : String) (bytes : ByteArray) : Change Unit := do
  match Path.follow (← get).homes path with
  | .error e => throw e
  | .ok followed => writeAt followed.text bytes

/-- Writes a text into the file that a path leads to, whose folder is made if it is missing. -/
def writeText (path : String) (text : List Char) : Change Unit :=
  writeBytes path (Text.encodeFile text)

/-! ## Listing -/

/-- The path of an entry, with a slash behind that of a folder. -/
def entryPath : List String × Entry → String
  | (place, .folder) => "/".intercalate place ++ "/"
  | (place, .file _) => "/".intercalate place

/-- The paths of all entries, in the order of their code points. -/
def listing (t : FileTree) : List String :=
  (t.entries.map entryPath).mergeSort fun a b => decide (a ≤ b)

end FileTree

end TableDdl
