import RecordPool.Layout.Draft
import RecordPool.IndexSet
import RecordPool.Store.Backend
import RecordPool.Store.Cursor
import RecordPool.Slab
import RecordPool.Pool.Lifecycle
import RecordPool.Pool.Recycling
import RecordPool.Pool.Cursor
import RecordPool.Pool.Stats
import RecordPool.Pool.Command
import RecordPool.DenseIds
import RecordPool.Interner
import RecordPool.Fixtures
import RecordPool.Workload.Churn
import RecordPool.Workload.Particles
import RecordPool.Hex
import RecordPool.Proofs.IndexSet.Members
import RecordPool.Proofs.IndexSet.Walk
import RecordPool.Proofs.IndexSet.History
import RecordPool.Proofs.Computation
import RecordPool.Proofs.Buffer
import RecordPool.Proofs.Value
import RecordPool.Proofs.Codec
import RecordPool.Proofs.Interner.Entries
import RecordPool.Proofs.Interner.History
import RecordPool.Proofs.Interner.Minting
import RecordPool.Proofs.Layout.Building
import RecordPool.Proofs.Layout.Lookup
import RecordPool.Proofs.Layout.Accessor
import RecordPool.Proofs.Layout.Equality
import RecordPool.Proofs.Store.Contract
import RecordPool.Proofs.Store.Flat
import RecordPool.Proofs.Store.Chain.Growth
import RecordPool.Proofs.Store.Chain.Elements
import RecordPool.Proofs.Store.Backend
import RecordPool.Proofs.Store.Blocks
import RecordPool.Proofs.Store.Elements
import RecordPool.Proofs.Store.Operation
import RecordPool.Proofs.Store.Chain.Shape
import RecordPool.Proofs.Store.Chain.Interruption
import RecordPool.Proofs.Store.Exchange
import RecordPool.Proofs.Store.Access
import RecordPool.Proofs.Store.Placement
import RecordPool.Proofs.Store.Interchange
import RecordPool.Proofs.Slab.Operations
import RecordPool.Proofs.Slab.Succession
import RecordPool.Proofs.Slab.Partition
import RecordPool.Proofs.Slab.Exhaustion
import RecordPool.Proofs.Pool.FieldWrite
import RecordPool.Proofs.Pool.FieldPatch
import RecordPool.Proofs.Pool.Frame
import RecordPool.Proofs.Pool.Structure
import RecordPool.Proofs.DenseIds
import RecordPool.Proofs.Pool.Calls
import RecordPool.Proofs.Pool.SlabSteps
import RecordPool.Proofs.Pool.Opening
import RecordPool.Proofs.Pool.Telling
import RecordPool.Proofs.Pool.Subscriptions
import RecordPool.Proofs.Pool.ChangeNotices
import RecordPool.Proofs.Pool.LifeSteps
import RecordPool.Proofs.Pool.LifeEvents
import RecordPool.Proofs.Pool.Refusal
import RecordPool.Proofs.Pool.Ownership
import RecordPool.Proofs.Pool.Writing
import RecordPool.Proofs.Pool.Reading
import RecordPool.Proofs.Pool.WriteFaults
import RecordPool.Proofs.Pool.Motion
import RecordPool.Proofs.Pool.AccessPaths
import RecordPool.Proofs.Pool.FieldIsolation
import RecordPool.Proofs.Pool.Addressability
import RecordPool.Proofs.Pool.HighWater
import RecordPool.Proofs.Pool.Recycling
import RecordPool.Proofs.Pool.CursorWalk
import RecordPool.Proofs.Pool.CursorRefusal
import RecordPool.Proofs.Pool.Transfer
import RecordPool.Proofs.Pool.Refinement
import RecordPool.Proofs.Pool.Construction
import RecordPool.Proofs.Pool.Numbering
import RecordPool.Proofs.Pool.Interning
import RecordPool.Proofs.Pool.ListenerIds
