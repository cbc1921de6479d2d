import PacedFeed.Cadence.Script
import PacedFeed.Config.File
import PacedFeed.Session
import PacedFeed.Proofs.Batcher.Partition
import PacedFeed.Proofs.Batcher.Repeats
import PacedFeed.Proofs.Pipeline.Counters
import PacedFeed.Proofs.Pipeline.Delivery
import PacedFeed.Proofs.Batcher.Duplicates
import PacedFeed.Proofs.Ring.History
import PacedFeed.Proofs.Window.Viewport
import PacedFeed.Proofs.Pipeline.Bounds
import PacedFeed.Proofs.Coordinator.Reports
import PacedFeed.Proofs.Pipeline.Log
import PacedFeed.Proofs.Pipeline.Overload
import PacedFeed.Proofs.Coordinator.Untuned
import PacedFeed.Proofs.Pipeline.Advisory
import PacedFeed.Proofs.Pipeline.Throttle
import PacedFeed.Proofs.Session.Run
import PacedFeed.Proofs.Pipeline.Periods
import PacedFeed.Proofs.Session.Lifecycle
import PacedFeed.Proofs.Broadcast.Readers
import PacedFeed.Proofs.Pipeline.Stream
import PacedFeed.Proofs.Cadence.Firing
import PacedFeed.Proofs.Cadence.Past
import PacedFeed.Proofs.Cadence.Discipline
import PacedFeed.Proofs.Session.Paced
import PacedFeed.Proofs.Double.Decimal
import PacedFeed.Proofs.Json.Numeral
import PacedFeed.Proofs.Json.Token
import PacedFeed.Proofs.Json.Document
import PacedFeed.Proofs.Json.Written
import PacedFeed.Proofs.Config.RoundTrip
import PacedFeed.Proofs.Double.Order
import PacedFeed.Proofs.Ring.Rates
import PacedFeed.Proofs.Telemetry.Events
import PacedFeed.Proofs.Pipeline.Journal
import PacedFeed.Proofs.Pipeline.Tuned
import PacedFeed.Proofs.Pipeline.Progress
import PacedFeed.Proofs.Coordinator.Budget
import PacedFeed.Proofs.Pipeline.Budget
import PacedFeed.Proofs.Batcher.Poll
import PacedFeed.Proofs.Message.Runs
import PacedFeed.Proofs.Pipeline.Flush
import PacedFeed.Proofs.Coordinator.Ingest
import PacedFeed.Proofs.Batcher.Armed
import PacedFeed.Proofs.Batcher.Interval
import PacedFeed.Proofs.Window.Chunks
import PacedFeed.Proofs.Window.Slices
import PacedFeed.Proofs.Telemetry.Percentile
import PacedFeed.Proofs.Telemetry.Samples
import PacedFeed.Proofs.Config.Overrides
import PacedFeed.Proofs.Coordinator.Guarded
import PacedFeed.Proofs.Pipeline.Guarded
import PacedFeed.Proofs.Session.FrameTime
import PacedFeed.Proofs.Pipeline.Latency
