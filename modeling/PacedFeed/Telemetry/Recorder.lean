import PacedFeed.Telemetry.Event

namespace PacedFeed

structure TelemetrySummary where
  transitions : Nat := 0
  overloadPeriods : Nat := 0
  overloadTicks : Nat := 0
  averageOverloadTicks : Double := 0
  recommendations : Nat := 0
  applied : Nat := 0
  explicitFlushes : Nat := 0
  stopFlushes : Nat := 0
  flushedMessages : Nat := 0
  deriving DecidableEq

-- The newest events, oldest first.
structure Recorder where
  log : Fifo Event

namespace Recorder

def limit : Nat := 10000

def empty : Recorder :=
  ⟨.empty⟩

def record (recorder : Recorder) (event : Event) : Recorder :=
  ⟨(recorder.log.push event).keepNewest limit⟩

def clear (_ : Recorder) : Recorder :=
  empty

def size (recorder : Recorder) : Nat :=
  recorder.log.size

def isEmpty (recorder : Recorder) : Bool :=
  recorder.log.isEmpty

def events (recorder : Recorder) : List Event :=
  recorder.log.toList

end Recorder

namespace TelemetrySummary

-- Counts one event. Sums have to be words, and the average is left for the end.
def count (summary : TelemetrySummary) : Event → Except Overflow TelemetrySummary
  | .stateTransition .. => return { summary with transitions := summary.transitions + 1 }
  | .overloadStarted .. => return { summary with overloadPeriods := summary.overloadPeriods + 1 }
  | .overloadCleared _ durationTicks => do
    let overloadTicks ← word (summary.overloadTicks + durationTicks)
    return { summary with overloadTicks := overloadTicks }
  | .tuningRecommended _ _ applied =>
    return { summary with
      recommendations := summary.recommendations + 1
      applied := summary.applied + if applied then 1 else 0 }
  | .flushed reason messages => do
    let flushedMessages ← word (summary.flushedMessages + messages)
    return { summary with
      explicitFlushes := summary.explicitFlushes + if reason = .explicit then 1 else 0
      stopFlushes := summary.stopFlushes + if reason = .stop then 1 else 0
      flushedMessages := flushedMessages }

def isClearing : Event → Bool
  | .overloadCleared .. => true
  | _ => false

-- The average length of an overload is taken over those that have ended.
def ofEvents (events : List Event) : Except Overflow TelemetrySummary := do
  let summary ← events.foldlM count {}
  return { summary with
    averageOverloadTicks := share summary.overloadTicks (events.countP isClearing) }

def datum (summary : TelemetrySummary) : Datum :=
  .group [
    ("transitions", .count summary.transitions),
    ("overload_periods", .count summary.overloadPeriods),
    ("total_overload_ticks", .count summary.overloadTicks),
    ("avg_overload_ticks", .real summary.averageOverloadTicks),
    ("recommendations", .count summary.recommendations),
    ("recommendations_applied", .count summary.applied),
    ("explicit_flushes", .count summary.explicitFlushes),
    ("stop_flushes", .count summary.stopFlushes),
    ("flushed_messages", .count summary.flushedMessages)]

end TelemetrySummary

def Recorder.summary (recorder : Recorder) : Except Overflow TelemetrySummary :=
  TelemetrySummary.ofEvents recorder.events

end PacedFeed
