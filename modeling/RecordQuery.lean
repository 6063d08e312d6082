import RecordQuery.Main
import RecordQuery.Proofs.Recognition
import RecordQuery.Proofs.Selection
import RecordQuery.Proofs.Sql.ReadBack
import RecordQuery.Proofs.Lexicon
import RecordQuery.Proofs.Offsets
import RecordQuery.Proofs.Viability
import RecordQuery.Proofs.Substitution
import RecordQuery.Proofs.LikeComparison
import RecordQuery.Proofs.Composition
import RecordQuery.Proofs.Stages
import RecordQuery.Proofs.Reuse
import RecordQuery.Proofs.ExactArithmetic
import RecordQuery.Proofs.Resumption
import RecordQuery.Proofs.Displacement
import RecordQuery.Proofs.Chaining
import RecordQuery.Proofs.BuildOrder
import RecordQuery.Proofs.WrittenOrder
import RecordQuery.Proofs.Comparators
import RecordQuery.Proofs.Sql.JsonPath
import RecordQuery.Proofs.Sql.References
import RecordQuery.Proofs.StringLiterals
import RecordQuery.Proofs.Events
import RecordQuery.Proofs.Relocation
import RecordQuery.Proofs.Locality
import RecordQuery.Proofs.Printing
import RecordQuery.Proofs.FieldNames
import RecordQuery.Proofs.Descent
import RecordQuery.Proofs.Bounds
