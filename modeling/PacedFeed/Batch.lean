import PacedFeed.Message

namespace PacedFeed

-- Why a batch was emitted: the interval had passed, enough messages were pending, or on demand.
inductive BatchTrigger where
  | interval
  | size
  | flush
  deriving DecidableEq, Inhabited

namespace BatchTrigger

def name : BatchTrigger → String
  | .interval => "Interval"
  | .size => "Size"
  | .flush => "Flush"

def all : List BatchTrigger := [.interval, .size, .flush]

end BatchTrigger

-- One emission. `seq` counts emissions from one and `sourceCount` the messages that went in,
-- before runs were merged.
structure Batch where
  seq : Nat
  messages : List Message
  emittedAt : Instant
  trigger : BatchTrigger
  sourceCount : Nat
  deriving DecidableEq, Inhabited

def Batch.size (batch : Batch) : Nat :=
  batch.messages.length

end PacedFeed
