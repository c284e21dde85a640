import Cerberus.Foundation.Trace
import Cerberus.Foundation.FiniteMap
import Cerberus.Foundation.Keys
import Cerberus.Foundation.Bytes
import Cerberus.Foundation.Ownership
import Cerberus.Foundation.Wire
import Cerberus.Foundation.Scan
import Cerberus.Foundation.Base64
import Cerberus.TieredMemory.Types
import Cerberus.TieredMemory.Model
import Cerberus.TieredMemory.Placement
import Cerberus.TieredMemory.Coherence
import Cerberus.TieredMemory.Release
import Cerberus.TieredMemory.Copy
import Cerberus.TieredMemory.Migration
import Cerberus.TieredMemory.Runs
import Cerberus.TieredMemory.Lru
import Cerberus.TieredMemory.Spill
import Cerberus.TieredMemory.Accounting
import Cerberus.TieredMemory.Contents
import Cerberus.TieredMemory.Books
import Cerberus.TieredMemory.Interleaving
import Cerberus.TieredMemory.HandleCounter
import Cerberus.TieredMemory.Outcomes
import Cerberus.TieredMemory.Sizes
import Cerberus.TieredMemory.Eviction
import Cerberus.MaintenanceDb.Records
import Cerberus.MaintenanceDb.Store
import Cerberus.MaintenanceDb.Codec
import Cerberus.MaintenanceDb.Calls
import Cerberus.MaintenanceDb.Sessions
import Cerberus.MaintenanceDb.Effects
import Cerberus.MaintenanceDb.Lifecycle
import Cerberus.MaintenanceDb.Isolation
import Cerberus.MaintenanceDb.Names
import Cerberus.MaintenanceDb.Durability
import Cerberus.MaintenanceDb.SyncQueue
import Cerberus.MaintenanceDb.Convergence
import Cerberus.MaintenanceDb.Replica
import Cerberus.MaintenanceDb.Replay
import Cerberus.MaintenanceDb.Numbers
import Cerberus.MaintenanceDb.Pairs
import Cerberus.MaintenanceDb.Grants
import Cerberus.Generation.Model
import Cerberus.Generation.Audit
import Cerberus.Generation.History
import Cerberus.Security.CryptoBridge
import Cerberus.Rbpc.Model
import Cerberus.Rbpc.Effects
import Cerberus.Rbpc.Burn
import Cerberus.Rbpc.Guesses
import Cerberus.Rbpc.FailClosed
import Cerberus.Jwt.Model
import Cerberus.Jwt.Claims
import Cerberus.Jwt.Tokens
import Cerberus.Jwt.Forgery
import Cerberus.Jwt.RoundTrip
import Cerberus.Foundation.LittleEndian
import Cerberus.Jwt.Revocation
import Cerberus.Gateway.Protocol
import Cerberus.Gateway.Model
import Cerberus.Gateway.Effects
import Cerberus.Gateway.Gate
import Cerberus.Gateway.Modes
import Cerberus.Gateway.Handshake
import Cerberus.Gateway.Encryption
import Cerberus.Foundation.Dataflow
import Cerberus.Foundation.Precedence
import Cerberus.Foundation.Shortlex
import Cerberus.Foundation.Incremental
import Cerberus.Foundation.InputStream
import Cerberus.Foundation.Fifo
import Cerberus.Foundation.Reading
import Cerberus.Foundation.Accumulate
import Cerberus.Foundation.Rounding
import Cerberus.Foundation.Int32
import Cerberus.Graph.Model
import Cerberus.Graph.Decision
import Cerberus.Graph.Plans
import Cerberus.Graph.PlanOrder
import Cerberus.Graph.Kernels
import Cerberus.Graph.NativeBackend
import Cerberus.Graph.FusedKernel
import Cerberus.Graph.BlockedKernels
import Cerberus.Graph.BlockedProduct
import Cerberus.Graph.BlockWeights
import Cerberus.Graph.Quantized
import Cerberus.Graph.Accumulators
import Cerberus.Graph.Shadow
import Cerberus.Graph.Rewrite
import Cerberus.Graph.Fusion
import Cerberus.Graph.Sorting
import Cerberus.Graph.TopoSort
import Cerberus.Graph.Ranks
import Cerberus.Graph.Runtime
import Cerberus.Graph.Execution
import Cerberus.Graph.Listing
import Cerberus.Graph.Binding
import Cerberus.Graph.Coordinator
import Cerberus.Graph.Staging
import Cerberus.Graph.Usable
import Cerberus.Graph.Footprint
import Cerberus.Graph.Bounds
import Cerberus.Cli.Model
import Cerberus.Cli.RoundTrip
import Cerberus.Http.Model
import Cerberus.Http.Pieces
import Cerberus.Http.Requests
import Cerberus.Http.Chunked
import Cerberus.Http.KeepAlive
import Cerberus.Gguf.Model
import Cerberus.Gguf.Layout
import Cerberus.Gguf.Content
import Cerberus.Gguf.Items
import Cerberus.Gguf.Nesting
import Cerberus.Gguf.RoundTrip
import Cerberus.Gguf.Grammar
import Cerberus.Gguf.Acceptance
import Cerberus.Gguf.Streams
import Cerberus.Slipstream.Message
import Cerberus.Slipstream.Frames
import Cerberus.Slipstream.Depot
import Cerberus.Slipstream.Engine
import Cerberus.Cluster.Wire
import Cerberus.Cluster.Framing
import Cerberus.Cluster.Link
import Cerberus.Cluster.Inbound
import Cerberus.Cluster.Reconnect
import Cerberus.Cluster.Dispatch
import Cerberus.Npu.Slots
import Cerberus.Npu.Async
import Cerberus.Npu.Coroutines
import Cerberus.Watchdog.Model
import Cerberus.Watchdog.Automaton
import Cerberus.Watchdog.Verdicts
import Cerberus.Watchdog.Alerts
import Cerberus.Health.Score
import Cerberus.Health.Monotonicity
import Cerberus.Scheduler.Deis
import Cerberus.Scheduler.Inversion
import Cerberus.Foundation.RowMajor
import Cerberus.Tensor.View
import Cerberus.Tensor.Layout
import Cerberus.Glow.HotPaths
import Cerberus.Jwt.Codec
import Cerberus.Graph.Integrity
import Cerberus.Graph.LeastRecent
import Cerberus.Staging.Lending
import Cerberus.Staging.Steps
import Cerberus.Metro.Station
import Cerberus.Cli.Completeness
import Cerberus.Glow.Similarity
import Cerberus.Inference.Requests
import Cerberus.Foundation.JsonBytes
import Cerberus.Inference.Server
import Cerberus.Inference.Gate
import Cerberus.Inference.Replies
import Cerberus.Capi.Sessions
import Cerberus.Capi.Interleavings
import Cerberus.Glow.Locks
import Cerberus.Tokenizer.Decoding
import Cerberus.Tokenizer.Encoding
import Cerberus.Tokenizer.Vocabulary
import Cerberus.Generation.Recovery
import Cerberus.Generation.Independence
import Cerberus.Generation.Probes
import Cerberus.Generation.Histories
import Cerberus.Generation.Budget
import Cerberus.MaintenanceDb.BurnCounter
import Cerberus.Rbpc.Streaks
import Cerberus.Rbpc.Words
import Cerberus.Gateway.Tokens
import Cerberus.Cluster.Decoding
import Cerberus.Foundation.Choosing
import Cerberus.Cluster.Selection
import Cerberus.MaintenanceDb.Latest
import Cerberus.Gguf.Events
import Cerberus.Gguf.Elements
import Cerberus.Gguf.Progress
import Cerberus.Gguf.Iterations
import Cerberus.Gguf.Slices
import Cerberus.Foundation.Json
import Cerberus.Foundation.Csv
import Cerberus.MaintenanceDb.Exports
