import DotDoc.Attribute.Operation
import DotDoc.Export.Job
import DotDoc.Graph.Call
import DotDoc.Graph.Pieces
import DotDoc.Proofs.Graph.Lookup
import DotDoc.Proofs.Decimal.Interval
import DotDoc.Proofs.Decimal.Reading
import DotDoc.Proofs.Value.Ids
import DotDoc.Proofs.Attribute.Stored
import DotDoc.Proofs.Attribute.Events
import DotDoc.Proofs.Attribute.History
import DotDoc.Proofs.Attribute.KeyText
import DotDoc.Proofs.Attribute.Prepended
import DotDoc.Proofs.Attribute.Composition
import DotDoc.Proofs.Graph.Members
import DotDoc.Proofs.Graph.Change
import DotDoc.Proofs.Graph.Consistent
import DotDoc.Proofs.Graph.Paragraphs
import DotDoc.Proofs.Graph.Containment
import DotDoc.Proofs.Graph.Verbatim
import DotDoc.Proofs.Text.Quoting
import DotDoc.Proofs.Text.Escaping
import DotDoc.Proofs.Record.Brackets
import DotDoc.Proofs.Record.Compiles
import DotDoc.Proofs.Record.Written
import DotDoc.Proofs.Record.Determined
import DotDoc.Proofs.Record.Orientation
import DotDoc.Proofs.Record.PortNames
import DotDoc.Proofs.Graph.Numbering
import DotDoc.Proofs.Graph.Refusal
import DotDoc.Proofs.Text.Statements
import DotDoc.Proofs.Graph.Listing
import DotDoc.Proofs.Graph.Statement
import DotDoc.Proofs.Graph.Outline
import DotDoc.Proofs.Graph.Determined
import DotDoc.Proofs.Graph.Apart
import DotDoc.Proofs.Graph.Alike
import DotDoc.Proofs.Graph.Lockstep
import DotDoc.Proofs.Graph.Variants
import DotDoc.Proofs.Graph.Interleaving
import DotDoc.Proofs.Graph.Ports
import DotDoc.Proofs.Graph.Removed
import DotDoc.Proofs.Graph.Undone
import DotDoc.Proofs.Graph.Chain
import DotDoc.Proofs.Graph.BrokenOff
import DotDoc.Proofs.Graph.Joining
import DotDoc.Proofs.Graph.Created
import DotDoc.Proofs.Html.Token
import DotDoc.Proofs.Html.Layout
import DotDoc.Proofs.Html.PortTags
import DotDoc.Proofs.Html.Compiles
import DotDoc.Proofs.Html.Printed
import DotDoc.Proofs.Html.Normal
import DotDoc.Proofs.Html.Determined
import DotDoc.Proofs.Export.Effects
import DotDoc.Proofs.Export.Places
import DotDoc.Proofs.Export.Outputs
