import PacedFeed.Time

namespace PacedFeed

-- What a callback wants: to be called again, or to be let go.
inductive Verdict where
  | proceed
  | quit
  deriving DecidableEq

-- A cancelled or dropped subscription never leads to another call.
inductive SubscriptionState where
  | live
  | cancelled
  | dropped
  deriving DecidableEq

-- The subscriptions that were ever issued, numbered from zero.
structure Subscriptions where
  states : List SubscriptionState
  deriving DecidableEq

namespace Subscriptions

def none : Subscriptions := ⟨[]⟩

def next (subscriptions : Subscriptions) : Nat :=
  subscriptions.states.length

def issue (subscriptions : Subscriptions) : Subscriptions :=
  ⟨subscriptions.states ++ [.live]⟩

def isLive (subscriptions : Subscriptions) (id : Nat) : Bool :=
  subscriptions.states[id]? = some .live

-- Cancelling twice, or after dropping, changes nothing.
def cancel (subscriptions : Subscriptions) (id : Nat) : Subscriptions :=
  if subscriptions.isLive id then ⟨subscriptions.states.set id .cancelled⟩ else subscriptions

def drop (subscriptions : Subscriptions) (id : Nat) : Subscriptions :=
  ⟨subscriptions.states.set id .dropped⟩

end Subscriptions

structure Registration (κ : Type) where
  id : Nat
  interval : Duration
  callback : κ

-- Callbacks that run when the cadence is fired by hand, in the order of their registration.
structure Cadence (κ : Type) where
  entries : List (Registration κ)
  subscriptions : Subscriptions

namespace Cadence

variable {κ ω : Type}

def empty : Cadence κ :=
  ⟨[], .none⟩

def every (cadence : Cadence κ) (interval : Duration) (callback : κ) : Nat × Cadence κ :=
  let id := cadence.subscriptions.next
  (id, ⟨cadence.entries ++ [⟨id, interval, callback⟩], cadence.subscriptions.issue⟩)

def isLive (cadence : Cadence κ) (entry : Registration κ) : Bool :=
  cadence.subscriptions.isLive entry.id

def cancel (cadence : Cadence κ) (id : Nat) : Cadence κ :=
  { cadence with subscriptions := cadence.subscriptions.cancel id }

def drop (cadence : Cadence κ) (id : Nat) : Cadence κ :=
  { cadence with subscriptions := cadence.subscriptions.drop id }

def active (cadence : Cadence κ) : Nat :=
  cadence.entries.countP cadence.isLive

-- The interval of the newest of them.
def lastInterval? (cadence : Cadence κ) : Option Duration :=
  (cadence.entries.reverse.find? cadence.isLive).map (·.interval)

-- One call of a callback: what it wants, what became of it, and what it did to the cadence and
-- to the rest of the world.
structure Turn (κ ω : Type) where
  verdict : Verdict
  callback : κ
  cadence : Cadence κ
  world : ω

-- What came of some calls: who ran, who stays, and the cadence with what was registered
-- meanwhile.
structure Firing (κ ω : Type) where
  ran : List Nat
  kept : List (Registration κ)
  cadence : Cadence κ
  world : ω

-- Calls the live ones among some entries in order. An entry stays if its callback wants to and
-- its subscription is still live after the call.
def fireEach (call : Registration κ → Cadence κ → ω → Turn κ ω) :
    List (Registration κ) → Cadence κ → ω → Firing κ ω
  | [], cadence, world => ⟨[], [], cadence, world⟩
  | entry :: rest, cadence, world =>
    if cadence.isLive entry then
      let turn := call entry cadence world
      let stays := turn.verdict = .proceed ∧ turn.cadence.isLive entry
      let others := fireEach call rest turn.cadence turn.world
      { others with
        ran := entry.id :: others.ran
        kept :=
          if stays then { entry with callback := turn.callback } :: others.kept
          else others.kept }
    else fireEach call rest cadence world

-- Calls every live callback once. What a callback registers waits for the next time and goes
-- behind those that stay.
def fire (call : Registration κ → Cadence κ → ω → Turn κ ω) (cadence : Cadence κ) (world : ω) :
    List Nat × Cadence κ × ω :=
  let firing := fireEach call cadence.entries { cadence with entries := [] } world
  (firing.ran,
    { firing.cadence with entries := firing.kept ++ firing.cadence.entries }, firing.world)

end Cadence

end PacedFeed
