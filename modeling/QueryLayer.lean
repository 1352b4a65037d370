import QueryLayer.Cache.Creation
import QueryLayer.Digest.Sha256
import QueryLayer.Main
import QueryLayer.Workspace.Calls
import QueryLayer.Proofs.Memory.Run
import QueryLayer.Proofs.Value.Same
import QueryLayer.Proofs.Query.Identity
import QueryLayer.Proofs.Memory.Keyed
import QueryLayer.Proofs.Query.Condition
import QueryLayer.Proofs.Typing.Check
import QueryLayer.Proofs.Memory.Fitting
import QueryLayer.Proofs.Query.Matching
import QueryLayer.Proofs.Typing.Matching
import QueryLayer.Proofs.Memory.Hydration
import QueryLayer.Proofs.Emulation.BruteForce
import QueryLayer.Proofs.Emulation.Registered
import QueryLayer.Proofs.Emulation.Replacement
import QueryLayer.Proofs.Memory.Keeping
import QueryLayer.Proofs.Emulation.Acceptance
import QueryLayer.Proofs.Emulation.OwnColumns
import QueryLayer.Proofs.Emulation.Relations
import QueryLayer.Proofs.Cache.SyncLog
import QueryLayer.Proofs.Cache.Turns
import QueryLayer.Proofs.Memory.ById
import QueryLayer.Proofs.Cache.Feeding
import QueryLayer.Proofs.Cache.ReadBack
import QueryLayer.Proofs.Data.Entries
import QueryLayer.Proofs.Value.NumberText
import QueryLayer.Proofs.Value.Reading
import QueryLayer.Proofs.Wire.Query
import QueryLayer.Proofs.Wire.Schema
import QueryLayer.Proofs.Remote.Handshake
import QueryLayer.Proofs.Wire.Shape
import QueryLayer.Proofs.Source.Calls
import QueryLayer.Proofs.Remote.Request
import QueryLayer.Proofs.Remote.Exchange
import QueryLayer.Proofs.Naming.Direct
import QueryLayer.Proofs.Naming.Collections
import QueryLayer.Proofs.Naming.RelationKeys
import QueryLayer.Cache.Archive
import QueryLayer.Proofs.Memory.Rows
import QueryLayer.Proofs.Cache.Batches
import QueryLayer.Proofs.Cache.Mirror
import QueryLayer.Proofs.Cache.Unsynced
import QueryLayer.Proofs.Cache.Echoes
import QueryLayer.Remote.Body
import QueryLayer.Proofs.Action.Effects
import QueryLayer.Proofs.Remote.Refused
import QueryLayer.Proofs.Action.Simulation
import QueryLayer.Proofs.Value.Legible
import QueryLayer.Proofs.Remote.RoundTrip
import QueryLayer.Proofs.Remote.Instances
import QueryLayer.Proofs.Remote.Definitions
import QueryLayer.Proofs.Remote.Apart
import QueryLayer.Proofs.Remote.Resolving
import QueryLayer.Proofs.Query.Inverse
import QueryLayer.Proofs.Source.Additions
import QueryLayer.Proofs.Naming.RenameOrder
import QueryLayer.Proofs.Memory.Selection
import QueryLayer.Proofs.Text.Like
import QueryLayer.Proofs.Emulation.Cycles
import QueryLayer.Proofs.Naming.FieldNames
import QueryLayer.Proofs.Memory.Placement
import QueryLayer.Proofs.Cache.Redelivery
import QueryLayer.Proofs.Stack.Customization
import QueryLayer.Proofs.Naming.NewNames
import QueryLayer.Proofs.Memory.Counter
import QueryLayer.Proofs.Memory.Refusals
import QueryLayer.Proofs.Query.Joining
import QueryLayer.Proofs.Memory.OwnRecords
import QueryLayer.Proofs.Query.Nesting
import QueryLayer.Proofs.Query.Unnesting
import QueryLayer.Proofs.Source.Relations
import QueryLayer.Proofs.Typing.Nesting
import QueryLayer.Proofs.Data.StableSort
import QueryLayer.Proofs.Value.Order
import QueryLayer.Proofs.Query.Sorting
import QueryLayer.Proofs.Query.Aggregation
import QueryLayer.Proofs.Query.Extremes
import QueryLayer.Proofs.Time.Calendar
import QueryLayer.Proofs.Time.Reading
import QueryLayer.Proofs.Query.Truncation
import QueryLayer.Proofs.Query.Grouping
import QueryLayer.Proofs.Number.Rounding
import QueryLayer.Proofs.Number.Shortest
import QueryLayer.Proofs.Value.Doubles
import QueryLayer.Proofs.Query.Absorption
import QueryLayer.Proofs.Typing.Stored
import QueryLayer.Proofs.Text.IgnoringCase
