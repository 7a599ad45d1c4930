/-!
# Dialects

Statements are read in one of four dialects, by two switches.
-/

namespace TableDdl

/-- What a statement may look like. -/
structure Dialect where
  /-- Table options come in any order, and any of them may be missing. -/
  relaxedOptions : Bool := false
  /-- Columns may be `TEXT` and `BIGTEXT`. -/
  extendedTypes : Bool := false
  deriving DecidableEq

end TableDdl
