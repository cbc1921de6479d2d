import PacedFeed.Config.Error
import PacedFeed.Datum
import PacedFeed.Fifo

namespace PacedFeed

-- The bounded buffer between producers and the frame loop. A full one gives up its oldest item
-- for a new one. The counters only ever grow.
structure Ring (α : Type) where
  capacity : Nat
  createdAt : Instant
  items : Fifo α
  enqueued : Nat
  dequeued : Nat
  dropped : Nat

structure RingMetrics where
  capacity : Nat
  buffered : Nat
  enqueued : Nat
  dequeued : Nat
  dropped : Nat
  -- What part of the capacity is taken, in percent.
  utilization : Double
  -- What part of the enqueued items was given up.
  dropRate : Double
  -- Dequeued items per second.
  throughput : Double

-- A part of a whole, zero when there is no whole.
def share (part whole : Nat) : Double :=
  if whole = 0 then 0 else Double.ofNat part / Double.ofNat whole

-- How many per second, zero before any time has passed.
def perSecond (count : Nat) (elapsed : Duration) : Double :=
  let seconds := Double.ofDuration elapsed
  if 0 < seconds then Double.ofNat count / seconds else 0

namespace Ring

variable {α : Type}

def new (capacity : Nat) (origin : Instant) : Ring α :=
  ⟨capacity, origin, .empty, 0, 0, 0⟩

def create (capacity : Nat) (origin : Instant) : Except ConfigError (Ring α) :=
  if capacity = 0 then .error .zeroCapacity else .ok (new capacity origin)

def size (ring : Ring α) : Nat :=
  ring.items.size

def isFull (ring : Ring α) : Bool :=
  ring.capacity ≤ ring.size

-- Adds an item and says whether the oldest one was given up for it.
def enqueue (ring : Ring α) (item : α) : Bool × Ring α :=
  (ring.isFull,
    { ring with
      items := (ring.items.push item).keepNewest ring.capacity
      enqueued := ring.enqueued + 1
      dropped := ring.dropped + if ring.isFull then 1 else 0 })

-- Adds items in order and counts those given up for them.
def enqueueAll (ring : Ring α) (items : List α) : Nat × Ring α :=
  items.foldl (fun (count, ring) item =>
    let (evicted, ring) := ring.enqueue item
    (count + if evicted then 1 else 0, ring)) (0, ring)

def dequeue (ring : Ring α) : Option α × Ring α :=
  match ring.items.pop? with
  | none => (none, ring)
  | some (item, rest) => (some item, { ring with items := rest, dequeued := ring.dequeued + 1 })

-- Takes out the oldest `count` items, or all of them if there are fewer.
def dequeueMany (ring : Ring α) (count : Nat) : List α × Ring α :=
  let (taken, rest) := ring.items.popMany count
  (taken, { ring with items := rest, dequeued := ring.dequeued + taken.length })

-- Forgets what is buffered. The counters stay.
def clear (ring : Ring α) : Ring α :=
  { ring with items := .empty }

def metrics (ring : Ring α) (now : Instant) : RingMetrics where
  capacity := ring.capacity
  buffered := ring.size
  enqueued := ring.enqueued
  dequeued := ring.dequeued
  dropped := ring.dropped
  utilization := Double.ofNat ring.size / Double.ofNat ring.capacity * 100
  dropRate := share ring.dropped ring.enqueued
  throughput := perSecond ring.dequeued (now.since ring.createdAt)

def summary (ring : Ring α) : String :=
  "RingBuffer \x7b capacity: " ++ toString ring.capacity ++ ", len: " ++ toString ring.size ++
    " \x7d"

end Ring

def RingMetrics.datum (metrics : RingMetrics) : Datum :=
  .group [
    ("capacity", .count metrics.capacity),
    ("current_count", .count metrics.buffered),
    ("total_enqueued", .count metrics.enqueued),
    ("total_dequeued", .count metrics.dequeued),
    ("dropped_count", .count metrics.dropped),
    ("utilization_percent", .real metrics.utilization),
    ("drop_rate", .real metrics.dropRate),
    ("throughput", .real metrics.throughput)]

end PacedFeed
