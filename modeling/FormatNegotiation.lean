import FormatNegotiation.Layout.Packed
import FormatNegotiation.Integrity
import FormatNegotiation.Graph.Command
import FormatNegotiation.Builder
import FormatNegotiation.Proofs.Registry.Lookup
import FormatNegotiation.Proofs.Registry.Merge
import FormatNegotiation.Proofs.Registry.Session
import FormatNegotiation.Proofs.Merge.Layouts
import FormatNegotiation.Proofs.Merge.Exactness
import FormatNegotiation.Proofs.Merge.Formats
import FormatNegotiation.Proofs.Merge.Values
import FormatNegotiation.Proofs.Merge.Rates
import FormatNegotiation.Proofs.Merge.Validity
import FormatNegotiation.Proofs.Merge.Commutativity
import FormatNegotiation.Proofs.Graph.Registries
import FormatNegotiation.Proofs.Graph.Rejection
import FormatNegotiation.Proofs.Graph.Negotiation
import FormatNegotiation.Proofs.Merge.Rules
import FormatNegotiation.Proofs.Registry.Sharing
import FormatNegotiation.Proofs.Registry.SlotView
import FormatNegotiation.Proofs.Graph.Order
import FormatNegotiation.Proofs.Registry.Outcome
import FormatNegotiation.Proofs.Graph.Structure
import FormatNegotiation.Proofs.Graph.Ownership
import FormatNegotiation.Proofs.Registry.Narrow
import FormatNegotiation.Proofs.Registry.Generations
import FormatNegotiation.Proofs.Registry.Refusals
import FormatNegotiation.Proofs.Graph.Atomicity
import FormatNegotiation.Proofs.Graph.Finality
import FormatNegotiation.Proofs.Graph.Findings
import FormatNegotiation.Proofs.Builder.Names
import FormatNegotiation.Proofs.Registry.Frames
import FormatNegotiation.Proofs.Graph.Insertion
import FormatNegotiation.Proofs.Graph.Removal
import FormatNegotiation.Proofs.Graph.Installation
import FormatNegotiation.Proofs.Graph.Defaults
import FormatNegotiation.Proofs.Merge.Compatibility
import FormatNegotiation.Proofs.Layout.Ambiguity
import FormatNegotiation.Proofs.Integrity.Reports
import FormatNegotiation.Proofs.Registry.Effects
import FormatNegotiation.Proofs.Layout.Packed
import FormatNegotiation.Proofs.Media.Flags
import FormatNegotiation.Proofs.Graph.Search
import FormatNegotiation.Proofs.Registry.Room
import FormatNegotiation.Proofs.Memory.Registry
import FormatNegotiation.Proofs.Memory.Graph
