import StorageControl.Assoc
import StorageControl.Attach.Listener
import StorageControl.Attach.Vhost
import StorageControl.Check
import StorageControl.CommandLine
import StorageControl.Config
import StorageControl.Config.Document
import StorageControl.Config.SocketAddress
import StorageControl.Config.Transport
import StorageControl.Decimal.Binary64
import StorageControl.Decimal.Shortest
import StorageControl.Engine.Address
import StorageControl.Engine.Bench
import StorageControl.Engine.Client
import StorageControl.Engine.Conversation
import StorageControl.Engine.Counters
import StorageControl.Engine.Envelope
import StorageControl.Engine.Limits
import StorageControl.Engine.Method
import StorageControl.Engine.Query
import StorageControl.Engine.Row
import StorageControl.Engine.Script
import StorageControl.Engine.Simulation
import StorageControl.Engine.Stream
import StorageControl.Fault
import StorageControl.Inventory
import StorageControl.Inventory.Browse
import StorageControl.Inventory.Contest
import StorageControl.Inventory.Family
import StorageControl.Inventory.Nvme
import StorageControl.Inventory.Operation
import StorageControl.Inventory.Procedure
import StorageControl.Inventory.Run
import StorageControl.Inventory.Trial
import StorageControl.Inventory.Virtio
import StorageControl.Inventory.World
import StorageControl.Json.Basic
import StorageControl.Json.Codec
import StorageControl.Json.Printer
import StorageControl.Json.Reader
import StorageControl.Json.Shape
import StorageControl.Main
import StorageControl.Mask
import StorageControl.Name
import StorageControl.Paging
import StorageControl.Proofs.Acceptance
import StorageControl.Proofs.Accounting
import StorageControl.Proofs.Addressing
import StorageControl.Proofs.Agreement
import StorageControl.Proofs.Attach
import StorageControl.Proofs.Children
import StorageControl.Proofs.Codec
import StorageControl.Proofs.Coherence
import StorageControl.Proofs.Compensation
import StorageControl.Proofs.Contents
import StorageControl.Proofs.Conversation
import StorageControl.Proofs.Copying
import StorageControl.Proofs.Course
import StorageControl.Proofs.Decomposition
import StorageControl.Proofs.Digits
import StorageControl.Proofs.Exclusion
import StorageControl.Proofs.Failure
import StorageControl.Proofs.Family
import StorageControl.Proofs.Frame
import StorageControl.Proofs.Framing
import StorageControl.Proofs.Identity
import StorageControl.Proofs.Independence
import StorageControl.Proofs.Intake
import StorageControl.Proofs.Journal
import StorageControl.Proofs.Ledger
import StorageControl.Proofs.Lexeme
import StorageControl.Proofs.Limits
import StorageControl.Proofs.Link
import StorageControl.Proofs.Listener
import StorageControl.Proofs.Listing
import StorageControl.Proofs.Lookup
import StorageControl.Proofs.MaskedMerge
import StorageControl.Proofs.Merge
import StorageControl.Proofs.Name
import StorageControl.Proofs.Nested
import StorageControl.Proofs.Nesting
import StorageControl.Proofs.Numeral
import StorageControl.Proofs.Operation
import StorageControl.Proofs.Overlay
import StorageControl.Proofs.Paging
import StorageControl.Proofs.Parameters
import StorageControl.Proofs.Part
import StorageControl.Proofs.Placement
import StorageControl.Proofs.Prefix
import StorageControl.Proofs.Qualified
import StorageControl.Proofs.Query
import StorageControl.Proofs.Replay
import StorageControl.Proofs.Report
import StorageControl.Proofs.Request
import StorageControl.Proofs.Restoration
import StorageControl.Proofs.Revision
import StorageControl.Proofs.Roots
import StorageControl.Proofs.Shadow
import StorageControl.Proofs.Simulation
import StorageControl.Proofs.Slicing
import StorageControl.Proofs.Slot
import StorageControl.Proofs.SocketDirectory
import StorageControl.Proofs.Sound
import StorageControl.Proofs.SubsystemRow
import StorageControl.Proofs.Transparent
import StorageControl.Proofs.Trial
import StorageControl.Proofs.Upsert
import StorageControl.Proofs.Utf8
import StorageControl.Proofs.WireForm
import StorageControl.Proofs.World
import StorageControl.Proofs.Written
import StorageControl.Record
import StorageControl.Record.Endpoint
import StorageControl.Record.Nvme
import StorageControl.Record.Request
import StorageControl.Record.Stats
import StorageControl.Record.Virtio
import StorageControl.Release
import StorageControl.Rest.MediaType
import StorageControl.Rest.Percent
import StorageControl.Rest.Query
import StorageControl.Rest.Request
import StorageControl.Rest.Route
import StorageControl.Rest.Server
import StorageControl.Rest.Target
import StorageControl.Table
import StorageControl.Text.Blank
import StorageControl.Text.Numeral
import StorageControl.Text.Segments
import StorageControl.Text.Uppercase
import StorageControl.Text.Utf8
import StorageControl.Uuid
import StorageControl.Yaml.Cursor
import StorageControl.Yaml.Fit
import StorageControl.Yaml.Node
import StorageControl.Yaml.Scalar
import StorageControl.Yaml.Token
