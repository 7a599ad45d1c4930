import TableDdl.Main
import TableDdl.Marker
import TableDdl.Proofs.CommandLine.Run
import TableDdl.Proofs.Export.Lossless
import TableDdl.Proofs.Grammar.Shift
import TableDdl.Proofs.Script.Agreement
import TableDdl.Proofs.Script.Failures
import TableDdl.Proofs.Script.Literals
import TableDdl.Proofs.Script.QuietComments
import TableDdl.Proofs.Script.Remarks
import TableDdl.Proofs.Script.Skipping
import TableDdl.Proofs.Sql.BodyLines
import TableDdl.Proofs.Sql.Case
import TableDdl.Proofs.Sql.Choices
import TableDdl.Proofs.Sql.Composed
import TableDdl.Proofs.Sql.WellFormed
import TableDdl.Proofs.Sql.Written.Options
import TableDdl.Proofs.Surroundings
import TableDdl.Value.Equality
import TableDdl.Proofs.Settings
import TableDdl.Proofs.Text.Numbers
import TableDdl.Proofs.CommandLine.Output
import TableDdl.Proofs.Grammar.Progress
import TableDdl.Proofs.Sql.Progress
import TableDdl.Proofs.Text.Terms
import TableDdl.Proofs.Value.Equality
