import ScopedSignatures.Listing
import ScopedSignatures.Namespace.Cursor
import ScopedSignatures.Namespace.Edit
import ScopedSignatures.QualifiedName.Edit
import ScopedSignatures.Session
import ScopedSignatures.TypeExpr.Written
import ScopedSignatures.Proofs.Declaration.Anchored
import ScopedSignatures.Proofs.Declaration.Claim
import ScopedSignatures.Proofs.Declaration.Named
import ScopedSignatures.Proofs.Environment.Accepted
import ScopedSignatures.Proofs.Environment.Anchored
import ScopedSignatures.Proofs.Environment.Batch
import ScopedSignatures.Proofs.Environment.BatchJournal
import ScopedSignatures.Proofs.Environment.Collision
import ScopedSignatures.Proofs.Environment.Extending
import ScopedSignatures.Proofs.Environment.Growth
import ScopedSignatures.Proofs.Environment.Holder
import ScopedSignatures.Proofs.Environment.Insertion
import ScopedSignatures.Proofs.Environment.Listing
import ScopedSignatures.Proofs.Environment.Lookup
import ScopedSignatures.Proofs.Environment.Naming
import ScopedSignatures.Proofs.Environment.Nesting
import ScopedSignatures.Proofs.Environment.Permutation
import ScopedSignatures.Proofs.Environment.Predicates
import ScopedSignatures.Proofs.Environment.Query
import ScopedSignatures.Proofs.Environment.Report
import ScopedSignatures.Proofs.Environment.Resolution
import ScopedSignatures.Proofs.Environment.ScopeBlocks
import ScopedSignatures.Proofs.Environment.SearchJournal
import ScopedSignatures.Proofs.Environment.Separation
import ScopedSignatures.Proofs.Environment.Submission
import ScopedSignatures.Proofs.Environment.Visibility
import ScopedSignatures.Proofs.Environment.WellKept
import ScopedSignatures.Proofs.Journal.Shown
import ScopedSignatures.Proofs.Namespace.Grammar
import ScopedSignatures.Proofs.Namespace.Precedence
import ScopedSignatures.Proofs.Namespace.Reading
import ScopedSignatures.Proofs.Namespace.Walk
import ScopedSignatures.Proofs.Order.Block
import ScopedSignatures.Proofs.Order.Bytes
import ScopedSignatures.Proofs.Order.Lexicographic
import ScopedSignatures.Proofs.QualifiedName.Action
import ScopedSignatures.Proofs.QualifiedName.Body
import ScopedSignatures.Proofs.QualifiedName.Qualifying
import ScopedSignatures.Proofs.QualifiedName.Readers
import ScopedSignatures.Proofs.QualifiedName.Reading
import ScopedSignatures.Proofs.QualifiedName.RoundTrip
import ScopedSignatures.Proofs.Search.Agreement
import ScopedSignatures.Proofs.Search.Nesting
import ScopedSignatures.Proofs.Search.Path
import ScopedSignatures.Proofs.Search.Shadowing
import ScopedSignatures.Proofs.Search.Tried
import ScopedSignatures.Proofs.Table.Anchored
import ScopedSignatures.Proofs.Table.Rows
import ScopedSignatures.Proofs.Text.Spelled
import ScopedSignatures.Proofs.Text.TakenOff
import ScopedSignatures.Proofs.TypeExpr.Plain
import ScopedSignatures.Proofs.TypeExpr.Reading
import ScopedSignatures.Proofs.TypeExpr.RoundTrip
