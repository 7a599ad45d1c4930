import TableDdl.Error

/-!
# Paths

A path is a text with slashes between its names.  Its normal form drops what does not change where
it leads by the look of it: repeated slashes, the names `.`, and a slash at the end.  The name `..`
stays, since where it leads depends on what is there.  One slash in front stays, and so do exactly
two; more are one.  A path without names is `.`, or the slashes in front of it.

A tilde in front stands for a home folder: `~` for that of whoever runs the program, and `~` with a
name behind it for that of the one who has the name.  Where no such folder is known the path leads
nowhere, even if there is a file with that very name.
-/

namespace TableDdl

/-- A path in parts: the slashes in front of it that count, and the names that lead somewhere. -/
structure Path where
  root : List Char
  names : List (List Char)
  deriving DecidableEq

namespace Path

/-! ## Texts -/

/-- The slashes in front of a path that count. -/
def rootOf (path : List Char) : List Char :=
  match (path.takeWhile (· == '/')).length with
  | 0 => []
  | 2 => ['/', '/']
  | _ => ['/']

/-- The parts between slashes, empty ones included, where `current` has begun the first, last
character first. -/
def splitFrom (current : List Char) : List Char → List (List Char)
  | [] => [current.reverse]
  | c :: rest =>
      if c = '/' then current.reverse :: splitFrom [] rest else splitFrom (c :: current) rest

/-- The names of a path, `.` among them. -/
def components (path : List Char) : List (List Char) :=
  (splitFrom [] path).filter fun part => !part.isEmpty

/-- The names of a path that lead somewhere. -/
def namesOf (path : List Char) : List (List Char) :=
  (components path).filter fun part => part != ['.']

/-- The path that a text is. -/
def ofText (text : String) : Path := ⟨rootOf text.toList, namesOf text.toList⟩

/-- The text of a path in normal form. -/
def text (p : Path) : String :=
  let normal := p.root ++ List.intercalate ['/'] p.names
  if normal.isEmpty then "." else String.ofList normal

/-- The last name of a path, empty where it has none. -/
def name (p : Path) : String := String.ofList (p.names.getLast?.getD [])

/-- What stands before the last slash of a path: the folder that holds it, if it is named. -/
def parent (path : String) : String :=
  let head := (path.toList.reverse.dropWhile (· != '/')).reverse
  if head.all (· == '/') then String.ofList head
  else String.ofList ((head.reverse.dropWhile (· == '/')).reverse)

/-! ## Home folders -/

/-- The home folders that are known, each behind the name of its owner.  The empty name is that of
whoever runs the program. -/
abbrev Homes := List (String × String)

/-- A home folder without the slashes at its end.  Where nothing is left it is the root. -/
def trimHome (home : List Char) : List Char :=
  let trimmed := (home.reverse.dropWhile (· == '/')).reverse
  if trimmed.isEmpty then ['/'] else trimmed

/-- The home folder of the one who has a name.  A folder that begins with a tilde itself does not
count as known. -/
def homeOf (homes : Homes) (user : List Char) : Except FileError (List Char) :=
  if user.contains '\x00' then .error .nullInPath
  else
    match homes.lookup (String.ofList user) with
    | none => .error .unknownHome
    | some home =>
        let folder := trimHome home.toList
        if folder.head? = some '~' then .error .unknownHome else .ok folder

/-- The name behind a tilde in front of a path, and the names behind that one. -/
def tilde? (p : Path) : Option (List Char × List (List Char)) :=
  match p.names with
  | [] => none
  | first :: rest =>
      if p.root.isEmpty && first.head? == some '~' then some (first.tail, rest) else none

/-- The path with the home folder in the place of a tilde in front. -/
def expand (homes : Homes) (p : Path) : Except FileError Path :=
  match p.tilde? with
  | none => .ok p
  | some (user, rest) =>
      (homeOf homes user).map fun home => ⟨rootOf home, namesOf home ++ rest⟩

/-- The path that a text leads along. -/
def follow (homes : Homes) (text : String) : Except FileError Path :=
  if text.toList.contains '\x00' then .error .nullInPath else (ofText text).expand homes

end Path

end TableDdl
