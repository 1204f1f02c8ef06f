import SqlCanvas.Document.Model
import SqlCanvas.Service.Endpoint
import SqlCanvas.Proofs.Query.Omission
import SqlCanvas.Proofs.RoundTrip
import SqlCanvas.Proofs.Grammar.Clause
import SqlCanvas.Proofs.Grammar.Column
import SqlCanvas.Proofs.Grammar.Common
import SqlCanvas.Proofs.Grammar.Comparison
import SqlCanvas.Proofs.Grammar.Ending
import SqlCanvas.Proofs.Grammar.Operation
import SqlCanvas.Proofs.Grammar.Statement
import SqlCanvas.Proofs.Regeneration.Canonical
import SqlCanvas.Proofs.Regeneration.Layout
import SqlCanvas.Proofs.Regeneration.Name
import SqlCanvas.Proofs.Regeneration.Part
import SqlCanvas.Proofs.IdSource
import SqlCanvas.Proofs.Statement.Reference
import SqlCanvas.Proofs.Grammar.Resolution
import SqlCanvas.Proofs.Regeneration.OnClause
import SqlCanvas.Proofs.Regeneration.Draft
import SqlCanvas.Proofs.Regeneration.Own
import SqlCanvas.Proofs.Regeneration.Nested
import SqlCanvas.Proofs.Regeneration.Restored
import SqlCanvas.Proofs.Regeneration.Combined
import SqlCanvas.Proofs.Renaming.Lockstep
import SqlCanvas.Proofs.Statement.Numbering
import SqlCanvas.Proofs.Statement.Vocabulary
import SqlCanvas.Proofs.Regeneration.Certified
import SqlCanvas.Proofs.Document.Transport
import SqlCanvas.Proofs.Layout.Print
import SqlCanvas.Proofs.Regeneration.Modifiers
import SqlCanvas.Proofs.Structure.Tree
import SqlCanvas.Proofs.Structure.Parentheses
import SqlCanvas.Proofs.Structure.Membership
import SqlCanvas.Proofs.Layout.Statement
import SqlCanvas.Proofs.Regeneration.Requoted
import SqlCanvas.Proofs.Statement.KeywordPlace
import SqlCanvas.Proofs.Change.Insertion
import SqlCanvas.Proofs.Change.Update
import SqlCanvas.Proofs.Lint.Unfiltered
import SqlCanvas.Proofs.Regeneration.Scalar
import SqlCanvas.Proofs.Lint.Missing
import SqlCanvas.Proofs.Regeneration.WithClause
import SqlCanvas.Proofs.Statement.Enclosed
import SqlCanvas.Proofs.Change.Creation
import SqlCanvas.Proofs.Structure.Range
import SqlCanvas.Proofs.Regeneration.SelectItem
import SqlCanvas.Proofs.Nesting.Partner
import SqlCanvas.Proofs.Structure.Splitting
