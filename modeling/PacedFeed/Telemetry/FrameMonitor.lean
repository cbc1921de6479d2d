import PacedFeed.Datum
import PacedFeed.Fifo

namespace PacedFeed

structure FrameStats where
  samples : Nat
  averageFps : Double
  averageFrameMillis : Double
  p95FrameMillis : Double
  p99FrameMillis : Double
  droppedInWindow : Nat
  droppedTotal : Nat
  averageLatencyMillis : Double
  p95LatencyMillis : Double

-- The newest frame times and delivery latencies.
structure FrameMonitor where
  targetFrame : Duration
  frames : Fifo Duration
  latencies : Fifo Duration
  frameWindow : Nat
  latencyWindow : Nat
  lastTick : Option Instant
  droppedTotal : Nat

-- The mean in seconds, summed from the oldest sample on. Zero without samples.
def meanSeconds (samples : List Duration) : Double :=
  if samples.isEmpty then 0
  else
    samples.foldl (fun sum sample => sum + Double.ofDuration sample) 0 /
      Double.ofNat samples.length

-- Frames per second at a mean frame time. Zero for no time at all.
def fpsOfMean (mean : Double) : Double :=
  if 0 < mean then 1 / mean else 0

-- The place of the sample, counted from one in increasing order, that is at least as large as
-- `percent` in a hundred of them.
def percentileRank (percent count : Nat) : Nat :=
  (percent * count + 99) / 100

-- The sample at that place. Zero without samples.
def percentile (percent : Nat) (samples : List Duration) : Duration :=
  (samples.mergeSort (· ≤ ·)).getD (percentileRank percent samples.length - 1) 0

def millisOfSeconds (seconds : Double) : Double :=
  seconds * 1000

namespace FrameMonitor

-- Two seconds of frames at the default pace.
def defaultFrameWindow : Nat := 120

def defaultLatencyWindow : Nat := 256

-- A window of size zero counts as one.
def withWindows (targetFrame : Duration) (frameWindow latencyWindow : Nat) : FrameMonitor where
  targetFrame := targetFrame
  frames := .empty
  latencies := .empty
  frameWindow := max frameWindow 1
  latencyWindow := max latencyWindow 1
  lastTick := none
  droppedTotal := 0

def new (targetFrame : Duration) : FrameMonitor :=
  withWindows targetFrame defaultFrameWindow defaultLatencyWindow

-- A frame is dropped when it takes more than one and a half times the target.
def isDropped (monitor : FrameMonitor) (frame : Duration) : Bool :=
  Double.ofDuration monitor.targetFrame * 1.5 < Double.ofDuration frame

def recordFrame (monitor : FrameMonitor) (frame : Duration) : FrameMonitor :=
  { monitor with
    frames := (monitor.frames.push frame).keepNewest monitor.frameWindow
    droppedTotal := monitor.droppedTotal + if monitor.isDropped frame then 1 else 0 }

def recordLatency (monitor : FrameMonitor) (latency : Duration) : FrameMonitor :=
  { monitor with latencies := (monitor.latencies.push latency).keepNewest monitor.latencyWindow }

-- Records the time since the last tick. The first tick only marks where to count from.
def recordTick (monitor : FrameMonitor) (now : Instant) : Option Duration × FrameMonitor :=
  match monitor.lastTick with
  | none => (none, { monitor with lastTick := some now })
  | some last =>
    let frame := now.since last
    (some frame, { monitor with lastTick := some now }.recordFrame frame)

-- Forgets the last tick, so that a pause does not count as one long frame.
def pause (monitor : FrameMonitor) : FrameMonitor :=
  { monitor with lastTick := none }

def reset (monitor : FrameMonitor) : FrameMonitor :=
  { monitor with frames := .empty, latencies := .empty, lastTick := none, droppedTotal := 0 }

def sampleCount (monitor : FrameMonitor) : Nat :=
  monitor.frames.size

def averageFps (monitor : FrameMonitor) : Double :=
  fpsOfMean (meanSeconds monitor.frames.toList)

def stats (monitor : FrameMonitor) : FrameStats :=
  let frames := monitor.frames.toList
  let latencies := monitor.latencies.toList
  let mean := meanSeconds frames
  let millisAt (percent : Nat) (samples : List Duration) : Double :=
    millisOfSeconds (Double.ofDuration (percentile percent samples))
  { samples := monitor.sampleCount
    averageFps := fpsOfMean mean
    averageFrameMillis := millisOfSeconds mean
    p95FrameMillis := millisAt 95 frames
    p99FrameMillis := millisAt 99 frames
    droppedInWindow := frames.countP monitor.isDropped
    droppedTotal := monitor.droppedTotal
    averageLatencyMillis := millisOfSeconds (meanSeconds latencies)
    p95LatencyMillis := millisAt 95 latencies }

end FrameMonitor

def FrameStats.datum (stats : FrameStats) : Datum :=
  .group [
    ("samples", .count stats.samples),
    ("average_fps", .real stats.averageFps),
    ("average_frame_ms", .real stats.averageFrameMillis),
    ("p95_frame_ms", .real stats.p95FrameMillis),
    ("p99_frame_ms", .real stats.p99FrameMillis),
    ("dropped_in_window", .count stats.droppedInWindow),
    ("dropped_total", .count stats.droppedTotal),
    ("average_latency_ms", .real stats.averageLatencyMillis),
    ("p95_latency_ms", .real stats.p95LatencyMillis)]

end PacedFeed
