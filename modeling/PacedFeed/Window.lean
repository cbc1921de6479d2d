import PacedFeed.Batch
import PacedFeed.Config.Validation
import PacedFeed.Fifo

namespace PacedFeed

-- A view into the log of delivered messages. Only the newest messages are retained, and offsets
-- count from the oldest retained one, so they shift when it goes.
structure Window where
  log : Fifo Message
  viewportSize : Nat
  maxRetained : Nat
  followTail : Bool
  offset : Nat
  -- Place of the oldest retained message among all that were appended.
  baseSeq : Nat
  appended : Nat
  evicted : Nat

structure WindowMetrics where
  retained : Nat
  viewportSize : Nat
  offset : Nat
  appended : Nat
  evicted : Nat
  baseSeq : Nat
  deriving DecidableEq

-- The place nearest to `offset` at which a view of `size` messages still fits into `total`.
def clampOffset (offset : Int) (total size : Nat) : Nat :=
  min offset.toNat (total - size)

namespace Window

def new (config : WindowConfig) : Window where
  log := .empty
  viewportSize := config.viewportSize
  maxRetained := config.maxRetained
  followTail := config.followTail
  offset := 0
  baseSeq := 0
  appended := 0
  evicted := 0

def create (config : WindowConfig) : Except ConfigError Window :=
  match config.fault? with
  | some fault => .error fault
  | none => .ok (new config)

def size (window : Window) : Nat :=
  window.log.size

def isEmpty (window : Window) : Bool :=
  window.log.isEmpty

-- The offset at which the newest message is the last one in view.
def maxOffset (window : Window) : Nat :=
  window.size - window.viewportSize

-- After a change of the log: to the bottom when the tail is followed, else as close to the old
-- offset as the log allows.
def reposition (window : Window) : Window :=
  { window with
    offset :=
      if window.followTail then window.maxOffset else min window.offset window.maxOffset }

def replace (window : Window) (messages : List Message) : Window :=
  let excess := messages.length - window.maxRetained
  reposition
    { window with
      log := .ofList (messages.drop excess)
      baseSeq := excess
      appended := messages.length
      evicted := window.evicted + excess }

-- Appends messages and says how many old ones went for them.
def append (window : Window) (messages : List Message) : Nat × Window :=
  let log := window.log.appendList messages
  let excess := log.size - window.maxRetained
  (excess,
    reposition
      { window with
        log := log.keepNewest window.maxRetained
        baseSeq := window.baseSeq + excess
        appended := window.appended + messages.length
        evicted := window.evicted + excess })

def appendBatch (window : Window) (batch : Batch) : Nat × Window :=
  window.append batch.messages

-- Moves to the nearest possible offset and says which it is.
def scrollTo (window : Window) (offset : Int) : Nat × Window :=
  let offset := clampOffset offset window.size window.viewportSize
  (offset, { window with offset := offset })

def scrollToBottom (window : Window) : Nat × Window :=
  (window.maxOffset, { window with offset := window.maxOffset })

def isAtBottom (window : Window) : Bool :=
  window.offset = window.maxOffset

def setFollowTail (window : Window) (follow : Bool) : Window :=
  reposition { window with followTail := follow }

def range (window : Window) (start count : Nat) : List Message :=
  (window.log.toList.drop start).take count

def visible (window : Window) : List Message :=
  window.range window.offset window.viewportSize

-- The messages that a view of another size would show at an offset.
def slice (window : Window) (offset : Int) (size : Nat) : List Message :=
  window.range (clampOffset offset window.size size) size

def metrics (window : Window) : WindowMetrics where
  retained := window.size
  viewportSize := window.viewportSize
  offset := window.offset
  appended := window.appended
  evicted := window.evicted
  baseSeq := window.baseSeq

end Window

def WindowMetrics.datum (metrics : WindowMetrics) : Datum :=
  .group [
    ("retained", .count metrics.retained),
    ("viewport_size", .count metrics.viewportSize),
    ("offset", .count metrics.offset),
    ("total_appended", .count metrics.appended),
    ("retention_evicted", .count metrics.evicted),
    ("oldest_retained_seq", .count metrics.baseSeq)]

end PacedFeed
