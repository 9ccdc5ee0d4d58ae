import UpdateSql.Document.OfJson
import UpdateSql.Json.Reader
import UpdateSql.RecordId.Json
import UpdateSql.Update.Log
import UpdateSql.Proofs.Chain.Shape
import UpdateSql.Proofs.Outcome
import UpdateSql.Proofs.Update.Calls
import UpdateSql.Proofs.Value.Induction
import UpdateSql.Proofs.Statement.Writing
import UpdateSql.Proofs.Update.Text
import UpdateSql.Proofs.Value.Faults
import UpdateSql.Proofs.Number.Characters
import UpdateSql.Proofs.RecordId.Grammar
import UpdateSql.Proofs.Update.Faults
import UpdateSql.Proofs.Value.Skeleton
import UpdateSql.Proofs.Reading.Basic
import UpdateSql.Proofs.Reading.Literal
import UpdateSql.Proofs.Statement.Outline
import UpdateSql.Proofs.Reading.Statement
import UpdateSql.Proofs.Update.Unambiguous
import UpdateSql.Proofs.Document.OfJson
import UpdateSql.Proofs.Update.Filtering
import UpdateSql.Proofs.Document.History
import UpdateSql.Proofs.Json.Strings
import UpdateSql.Proofs.RecordId.Agreement
import UpdateSql.Proofs.Reading.Recovery
import UpdateSql.Proofs.Text.Quoted
import UpdateSql.Proofs.Update.Logging
import UpdateSql.Proofs.Json.Induction
import UpdateSql.Proofs.Number.Equality
import UpdateSql.Proofs.Value.Parts
import UpdateSql.Proofs.Document.Built
import UpdateSql.Proofs.Value.Equality
import UpdateSql.Proofs.Condition.Equality
import UpdateSql.Proofs.Value.Offenders
import UpdateSql.Proofs.Json.Parts
import UpdateSql.Proofs.Value.OfJson
import UpdateSql.Proofs.Update.Converted
import UpdateSql.Proofs.RecordId.Diagnosis
import UpdateSql.Proofs.Text.Marking
import UpdateSql.Proofs.Update.WholeNumbers
import UpdateSql.Proofs.Value.EqualLiterals
import UpdateSql.Proofs.Update.QuoteModes
import UpdateSql.Proofs.Text.Cutting
import UpdateSql.Proofs.Number.Singles
import UpdateSql.Proofs.Update.Floats
