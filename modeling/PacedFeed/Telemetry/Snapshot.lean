import PacedFeed.Batcher
import PacedFeed.Telemetry.FrameMonitor
import PacedFeed.Window

namespace PacedFeed

-- What the coordinator counts itself.
structure Counters where
  rendered : Nat
  rejected : Nat
  budget : Nat
  deriving DecidableEq

-- The whole pipeline at one instant.
structure Snapshot where
  enqueued : Nat
  dequeued : Nat
  dropped : Nat
  received : Nat
  processed : Nat
  rendered : Nat
  skipped : Nat
  evicted : Nat
  rejected : Nat
  batches : Nat
  pending : Nat
  buffered : Nat
  utilization : Double
  dropRate : Double
  throughput : Double
  averageFps : Double
  averageLatencyMillis : Double
  p95FrameMillis : Double
  p99FrameMillis : Double
  droppedFrames : Nat
  frameSamples : Nat
  dedupRate : Double
  repeatRate : Double
  budget : Nat
  deriving DecidableEq

namespace Snapshot

def ofParts (ring : RingMetrics) (batcher : BatcherMetrics) (window : WindowMetrics)
    (frames : FrameStats) (counters : Counters) : Snapshot where
  enqueued := ring.enqueued
  dequeued := ring.dequeued
  dropped := ring.dropped
  received := batcher.received
  processed := batcher.processed
  rendered := counters.rendered
  skipped := batcher.skipped
  evicted := window.evicted
  rejected := counters.rejected
  batches := batcher.batches
  pending := batcher.pending
  buffered := ring.buffered
  utilization := ring.utilization
  dropRate := ring.dropRate
  throughput := ring.throughput
  averageFps := frames.averageFps
  averageLatencyMillis := frames.averageLatencyMillis
  p95FrameMillis := frames.p95FrameMillis
  p99FrameMillis := frames.p99FrameMillis
  droppedFrames := frames.droppedTotal
  frameSamples := frames.samples
  dedupRate := batcher.dedupRate
  repeatRate := batcher.repeatRate
  budget := counters.budget

def datum (snapshot : Snapshot) : Datum :=
  .group [
    ("total_enqueued", .count snapshot.enqueued),
    ("total_dequeued", .count snapshot.dequeued),
    ("total_dropped", .count snapshot.dropped),
    ("total_received", .count snapshot.received),
    ("total_processed", .count snapshot.processed),
    ("total_rendered", .count snapshot.rendered),
    ("duplicates_skipped", .count snapshot.skipped),
    ("retention_evicted", .count snapshot.evicted),
    ("rejected", .count snapshot.rejected),
    ("batches_emitted", .count snapshot.batches),
    ("pending", .count snapshot.pending),
    ("buffered", .count snapshot.buffered),
    ("utilization_percent", .real snapshot.utilization),
    ("drop_rate", .real snapshot.dropRate),
    ("throughput", .real snapshot.throughput),
    ("average_fps", .real snapshot.averageFps),
    ("average_latency_ms", .real snapshot.averageLatencyMillis),
    ("p95_frame_ms", .real snapshot.p95FrameMillis),
    ("p99_frame_ms", .real snapshot.p99FrameMillis),
    ("dropped_frames", .count snapshot.droppedFrames),
    ("frame_samples", .count snapshot.frameSamples),
    ("deduplication_rate", .real snapshot.dedupRate),
    ("repeat_rate", .real snapshot.repeatRate),
    ("current_budget", .count snapshot.budget)]

end Snapshot

end PacedFeed
