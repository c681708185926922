import HeaderBridge.Bridge.Generate
import HeaderBridge.Check
import HeaderBridge.Interface.Explain
import HeaderBridge.Main
import HeaderBridge.Proofs.Source.Cut
import HeaderBridge.Proofs.Source.Chain
import HeaderBridge.Proofs.Source.Seam
import HeaderBridge.Proofs.Source.Place
import HeaderBridge.Proofs.Source.Blanking
import HeaderBridge.Proofs.Interface.Moves
import HeaderBridge.Proofs.Source.Brace
import HeaderBridge.Proofs.Interface.Head
import HeaderBridge.Proofs.Interface.Relocation
import HeaderBridge.Proofs.Interface.Comments
import HeaderBridge.Proofs.Interface.Lookahead
import HeaderBridge.Proofs.Source.Joined
import HeaderBridge.Proofs.Interface.Order
import HeaderBridge.Proofs.Interface.Nesting
import HeaderBridge.Proofs.Interface.Groups
import HeaderBridge.Proofs.Text.Collapse
import HeaderBridge.Proofs.Interface.WellFormed
import HeaderBridge.Proofs.Source.Span
import HeaderBridge.Proofs.Interface.Printed
import HeaderBridge.Proofs.Interface.Reading
import HeaderBridge.Proofs.Interface.RoundTrip
import HeaderBridge.Proofs.Source.Row
import HeaderBridge.Proofs.Source.Respaced
import HeaderBridge.Proofs.Interface.Parts
import HeaderBridge.Proofs.Interface.Tally
import HeaderBridge.Proofs.Interface.Fidelity
import HeaderBridge.Proofs.Interface.Transfer
import HeaderBridge.Proofs.Interface.Members
import HeaderBridge.Proofs.Interface.Search
import HeaderBridge.Proofs.Interface.Views
import HeaderBridge.Proofs.Indexed.Cursor
import HeaderBridge.Proofs.Indexed.Parameter
import HeaderBridge.Proofs.Indexed.Locate
import HeaderBridge.Proofs.Interface.LineEnd
import HeaderBridge.Proofs.Disk.Entry
import HeaderBridge.Proofs.Disk.Follow
import HeaderBridge.Proofs.Disk.Grown
import HeaderBridge.Proofs.Output.Target
import HeaderBridge.Proofs.Disk.Edited
import HeaderBridge.Proofs.Output.Write
import HeaderBridge.Proofs.Output.Folder
import HeaderBridge.Proofs.Reader.Current
import HeaderBridge.Proofs.Batch.Build
import HeaderBridge.Proofs.Disk.Same
import HeaderBridge.Proofs.Interface.Name
import HeaderBridge.Proofs.Batch.Claim
import HeaderBridge.Proofs.Batch.Store
import HeaderBridge.Proofs.Session.Run
import HeaderBridge.Proofs.Session.Sources
import HeaderBridge.Proofs.Batch.Schedule
import HeaderBridge.Proofs.Batch.Commute
import HeaderBridge.Proofs.Disk.Enclosing
import HeaderBridge.Proofs.Session.Schedule
import HeaderBridge.Proofs.Session.Rehearsal
import HeaderBridge.Proofs.Interface.Comparison
import HeaderBridge.Proofs.Interface.Completeness
import HeaderBridge.Proofs.Interface.Operators
import HeaderBridge.Proofs.Interface.HeadGrammar
import HeaderBridge.Proofs.Interface.Scopes
import HeaderBridge.Proofs.Template.Substitution
import HeaderBridge.Proofs.Bridge.Emission
import HeaderBridge.Proofs.Disk.Walk
import HeaderBridge.Proofs.Scan.Merge
import HeaderBridge.Proofs.Scan.Marked
import HeaderBridge.Proofs.Clean.Swept
import HeaderBridge.Proofs.Session.Generated
import HeaderBridge.Proofs.Text.Folded
import HeaderBridge.Proofs.Text.Words
import HeaderBridge.Proofs.Source.Columns
import HeaderBridge.Proofs.Source.Written
import HeaderBridge.Proofs.Interface.Descriptor
import HeaderBridge.Proofs.Interface.Pointing
import HeaderBridge.Proofs.Interface.Declarators
import HeaderBridge.Proofs.Bridge.Described
import HeaderBridge.Proofs.Bridge.Unqualified
import HeaderBridge.Proofs.Output.Whole
import HeaderBridge.Proofs.Scan.Union
import HeaderBridge.Proofs.Disk.Shrunk
import HeaderBridge.Proofs.Clean.Found
import HeaderBridge.Proofs.Reader.History
import HeaderBridge.Proofs.Reader.Traversal
import HeaderBridge.Proofs.Disk.Listing
import HeaderBridge.Proofs.Template.Listed
import HeaderBridge.Proofs.Report.Entries
import HeaderBridge.Proofs.Source.Closer
import HeaderBridge.Proofs.Source.Matcher
import HeaderBridge.Proofs.Source.Rules
import HeaderBridge.Proofs.Source.Masked
