import TableDdl.Text.Display

/-!
# Errors

What can go wrong while tables are read, looked up or written, each by its cause.  The wording is
in `Error.message` alone; a failing file access has none, unless its path cannot be followed.
-/

namespace TableDdl

/-- An integer may have this many digits, leading zeros included. -/
def maxDigits : Nat := 4300

/-- Why a file or folder could not be used. -/
inductive FileError where
  /-- Nothing has this path. -/
  | notFound
  /-- A folder stands where a file is wanted. -/
  | isFolder
  /-- Something stands where a folder should be made. -/
  | alreadyExists
  /-- The path leads through a file, or a file stands where a folder is wanted. -/
  | notFolder
  /-- The bytes of the file are no UTF-8. -/
  | notText
  /-- A name in the path is too long, or the folder cannot be removed by this path. -/
  | refused
  /-- The path holds the character U+0000. -/
  | nullInPath
  /-- No home folder is known for the tilde in front of the path. -/
  | unknownHome
  deriving DecidableEq

/-- Why tables could not be read, looked up or written. -/
inductive Error where
  /-- The grammar stops before `remaining`. -/
  | unparsed (remaining : String)
  /-- The table has no such column. -/
  | unknownColumn (name : String)
  /-- No data type has this name, given in lower case. -/
  | unknownDataType (name : String)
  /-- No kind of index has this name, given in lower case. -/
  | unknownIndexKind (name : String)
  /-- A line of a table body that is neither a column nor an index, given as a term. -/
  | unknownBodyLine (term : String)
  /-- There is no file to read the tables from. -/
  | missingScript (path : String)
  /-- An integer has more digits than can be read. -/
  | overlongInteger (digits : Nat)
  /-- A keyword has no characters. -/
  | emptyKeyword
  /-- A file could not be used. -/
  | file (cause : FileError)
  deriving DecidableEq

/-- The wording of an error, if it has one. -/
def Error.message : Error → Option String
  | unparsed remaining => some ("Could not parse ddl near: " ++ Text.quoteStart remaining)
  | unknownColumn name => some ("Could not find column " ++ name)
  | unknownDataType name => some ("Unknown data type " ++ name)
  | unknownIndexKind name => some ("Unknown index kind " ++ name)
  | unknownBodyLine term => some ("Unknown body line " ++ term)
  | missingScript path => some ("DDL file not found: " ++ path)
  | overlongInteger digits =>
      some ("Exceeds the limit (" ++ toString maxDigits ++
        " digits) for integer string conversion: value has " ++ toString digits ++
        " digits; use sys.set_int_max_str_digits() to increase the limit")
  | emptyKeyword => some "string index out of range"
  | file .nullInPath => some "embedded null byte"
  | file .unknownHome => some "Could not determine home directory."
  | file _ => none

end TableDdl
