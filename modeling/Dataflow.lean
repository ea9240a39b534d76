import Dataflow.Assoc
import Dataflow.Body
import Dataflow.Catalog
import Dataflow.Catalog.Arithmetic
import Dataflow.Catalog.Bridge
import Dataflow.Catalog.Signal
import Dataflow.Catalog.Tensor
import Dataflow.Command.Arguments
import Dataflow.Command.Folder
import Dataflow.Command.Run
import Dataflow.Demo
import Dataflow.Edit
import Dataflow.Engine
import Dataflow.Fault
import Dataflow.Geometry
import Dataflow.Graph.Basic
import Dataflow.Graph.Order
import Dataflow.Group
import Dataflow.Json.Reader
import Dataflow.Json.Token
import Dataflow.Json.Tree
import Dataflow.Json.Value
import Dataflow.Kind
import Dataflow.Main
import Dataflow.Misfit
import Dataflow.Mode
import Dataflow.Node.Basic
import Dataflow.Node.Record
import Dataflow.Numeric.Numeral
import Dataflow.Numeric.Reading
import Dataflow.Numeric.Shortest
import Dataflow.Numeric.Style
import Dataflow.Numeric.Width
import Dataflow.Numeric.Word
import Dataflow.Proofs.Abreast
import Dataflow.Proofs.Acceptance
import Dataflow.Proofs.Aftermath
import Dataflow.Proofs.Agreement
import Dataflow.Proofs.Ancestors
import Dataflow.Proofs.Anchoring
import Dataflow.Proofs.Assoc
import Dataflow.Proofs.Balance
import Dataflow.Proofs.Batching
import Dataflow.Proofs.Beside
import Dataflow.Proofs.Birthright
import Dataflow.Proofs.Bodies
import Dataflow.Proofs.Books
import Dataflow.Proofs.Boundary
import Dataflow.Proofs.Bridging
import Dataflow.Proofs.Cache
import Dataflow.Proofs.Cargo
import Dataflow.Proofs.Clock
import Dataflow.Proofs.Cloning
import Dataflow.Proofs.Connecting
import Dataflow.Proofs.Consistent
import Dataflow.Proofs.Consumers
import Dataflow.Proofs.Copies
import Dataflow.Proofs.Custody
import Dataflow.Proofs.Decimals
import Dataflow.Proofs.Delivery
import Dataflow.Proofs.Depth
import Dataflow.Proofs.Disconnecting
import Dataflow.Proofs.Dispatch
import Dataflow.Proofs.Docking
import Dataflow.Proofs.Editing
import Dataflow.Proofs.Extents
import Dataflow.Proofs.Faithful
import Dataflow.Proofs.Firing
import Dataflow.Proofs.Fitting
import Dataflow.Proofs.Flattening
import Dataflow.Proofs.Flow
import Dataflow.Proofs.Following
import Dataflow.Proofs.Frame
import Dataflow.Proofs.Grown
import Dataflow.Proofs.Integers
import Dataflow.Proofs.Labels
import Dataflow.Proofs.Landing
import Dataflow.Proofs.Lasting
import Dataflow.Proofs.Levels
import Dataflow.Proofs.Likeness
import Dataflow.Proofs.Linking
import Dataflow.Proofs.Loading
import Dataflow.Proofs.Machine
import Dataflow.Proofs.Mapped
import Dataflow.Proofs.Matching
import Dataflow.Proofs.Meaning
import Dataflow.Proofs.Membership
import Dataflow.Proofs.Mending
import Dataflow.Proofs.Merge
import Dataflow.Proofs.Mooring
import Dataflow.Proofs.Naming
import Dataflow.Proofs.Numbering
import Dataflow.Proofs.Order
import Dataflow.Proofs.Phases
import Dataflow.Proofs.Pipelines
import Dataflow.Proofs.Policies
import Dataflow.Proofs.Posts
import Dataflow.Proofs.Pruning
import Dataflow.Proofs.Reachable
import Dataflow.Proofs.Records
import Dataflow.Proofs.Refusal
import Dataflow.Proofs.Relink
import Dataflow.Proofs.Removing
import Dataflow.Proofs.Renumbering
import Dataflow.Proofs.Repair
import Dataflow.Proofs.Report
import Dataflow.Proofs.Resaving
import Dataflow.Proofs.Reshaping
import Dataflow.Proofs.Restoring
import Dataflow.Proofs.Retyping
import Dataflow.Proofs.Reviving
import Dataflow.Proofs.Rounding
import Dataflow.Proofs.Rounds
import Dataflow.Proofs.Run
import Dataflow.Proofs.Saving
import Dataflow.Proofs.Scanning
import Dataflow.Proofs.Schedule
import Dataflow.Proofs.Severing
import Dataflow.Proofs.Signals
import Dataflow.Proofs.Skeleton
import Dataflow.Proofs.Sliding
import Dataflow.Proofs.Slots
import Dataflow.Proofs.Sound
import Dataflow.Proofs.Sparing
import Dataflow.Proofs.Spelling
import Dataflow.Proofs.Standard
import Dataflow.Proofs.Step
import Dataflow.Proofs.Storage
import Dataflow.Proofs.Strokes
import Dataflow.Proofs.Sweep
import Dataflow.Proofs.Tallies
import Dataflow.Proofs.Terminals
import Dataflow.Proofs.Texts
import Dataflow.Proofs.Together
import Dataflow.Proofs.Transposed
import Dataflow.Proofs.Turns
import Dataflow.Proofs.Typing
import Dataflow.Proofs.Union
import Dataflow.Proofs.Unrepeated
import Dataflow.Proofs.Unspent
import Dataflow.Proofs.Values
import Dataflow.Proofs.Version
import Dataflow.Proofs.Wholes
import Dataflow.Proofs.Windows
import Dataflow.Record.Basic
import Dataflow.Record.Form
import Dataflow.Record.Reader
import Dataflow.Record.Writer
import Dataflow.Registry
import Dataflow.Session.Basic
import Dataflow.Session.Link
import Dataflow.Session.Load
import Dataflow.Session.Node
import Dataflow.Session.Terminal
import Dataflow.Settings.Basic
import Dataflow.Settings.Number
import Dataflow.Settings.Reader
import Dataflow.Settings.Term
import Dataflow.Settings.Token
import Dataflow.Settings.Writer
import Dataflow.Shape.Attributes
import Dataflow.Shape.Rule
import Dataflow.Slot
import Dataflow.SlotType
import Dataflow.Text.Blank
import Dataflow.Text.Cased
import Dataflow.Text.Identifier
import Dataflow.Text.Lower
import Dataflow.Text.Quoted
import Dataflow.Text.Range
import Dataflow.Value
