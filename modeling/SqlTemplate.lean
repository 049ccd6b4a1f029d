import SqlTemplate.Load
import SqlTemplate.Session
import SqlTemplate.Proofs.Expr.Reading
import SqlTemplate.Proofs.Template.Composition
import SqlTemplate.Proofs.Template.Reference
import SqlTemplate.Proofs.Statement.FixedText
import SqlTemplate.Proofs.Template.Decisions
import SqlTemplate.Proofs.Expr.Acceptance
import SqlTemplate.Proofs.Mapper.Soundness
import SqlTemplate.Proofs.Statement.Registry
import SqlTemplate.Proofs.Mapper.WellFormed
import SqlTemplate.Proofs.Markup.Escape
import SqlTemplate.Proofs.Markup.Name
import SqlTemplate.Proofs.Markup.Printing
import SqlTemplate.Proofs.Mapper.Printing
import SqlTemplate.Proofs.Mapper.RoundTrip
import SqlTemplate.Proofs.Statement.History
import SqlTemplate.Proofs.Expr.Words
import SqlTemplate.Proofs.Param.Mention
import SqlTemplate.Proofs.Template.Mention
import SqlTemplate.Proofs.Load.Address
import SqlTemplate.Proofs.Load.Graph
import SqlTemplate.Proofs.Load.Progress
import SqlTemplate.Proofs.Catalogue.Entries
import SqlTemplate.Proofs.Load.Residue
import SqlTemplate.Proofs.Load.Success
import SqlTemplate.Proofs.Load.Order
import SqlTemplate.Proofs.Template.Fault
import SqlTemplate.Proofs.Mapper.Fault
import SqlTemplate.Proofs.Template.Placeholder
import SqlTemplate.Proofs.Template.Iteration
import SqlTemplate.Proofs.Param.PathText
import SqlTemplate.Proofs.Param.Alias
import SqlTemplate.Proofs.Param.PathGrammar
import SqlTemplate.Proofs.Text.Slice
import SqlTemplate.Proofs.Template.Clause
import SqlTemplate.Proofs.Template.Condition
import SqlTemplate.Proofs.Template.Depth
import SqlTemplate.Proofs.Statement.Batch
import SqlTemplate.Proofs.Template.Shorthand
import SqlTemplate.Proofs.Template.ClauseSlice
import SqlTemplate.Proofs.Template.Loss
import SqlTemplate.Proofs.Template.Splice
import SqlTemplate.Proofs.Template.Extraction
import SqlTemplate.Proofs.Text.Layout
import SqlTemplate.Proofs.Template.PathTest
import SqlTemplate.Proofs.Text.Opening
import SqlTemplate.Proofs.Text.Gap
import SqlTemplate.Proofs.Mapper.Around
import SqlTemplate.Proofs.Markup.Source
import SqlTemplate.Proofs.Template.Gap
import SqlTemplate.Proofs.Mapper.Gap
import SqlTemplate.Proofs.Template.Verbatim
import SqlTemplate.Proofs.Catalogue.Listing
import SqlTemplate.Proofs.Statement.Dispatch
import SqlTemplate.Proofs.Catalogue.Nested
import SqlTemplate.Proofs.Markup.Balanced
import SqlTemplate.Proofs.Mapper.Child
import SqlTemplate.Proofs.Mapper.FragmentOrder
import SqlTemplate.Proofs.Mapper.Layout
import SqlTemplate.Proofs.Markup.Shape
import SqlTemplate.Proofs.Expr.Running
import SqlTemplate.Proofs.Expr.Rearrangement
import SqlTemplate.Proofs.Expr.Rendering
import SqlTemplate.Proofs.Template.Grouping
import SqlTemplate.Proofs.Text.Bytewise
