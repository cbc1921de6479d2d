import PacedFeed.Cadence

namespace PacedFeed

structure Timer (κ : Type) where
  id : Nat
  period : Duration
  period_pos : 0 < period
  due : Instant
  callback : κ

-- Callbacks that run at regular intervals of a clock that is moved by hand. The timers are kept
-- in the order in which they were last set.
structure Timers (κ : Type) where
  now : Instant
  entries : List (Timer κ)
  subscriptions : Subscriptions

namespace Timer

variable {κ : Type}

-- How late a call may be without the timer skipping what it missed.
def grace : Duration := Duration.ofMillis 5

-- The clock of the timers counts whole milliseconds. A timer is due at the first one that is
-- not before its instant.
def isDue (timer : Timer κ) (now : Instant) : Bool :=
  timer.due ≤ now / Duration.nanosPerMilli * Duration.nanosPerMilli

-- The instant after a call: one period on, or the next multiple of the period still to come.
def nextDue (timer : Timer κ) (now : Instant) : Instant :=
  let late := now.since timer.due
  if late ≤ grace then timer.due + timer.period
  else now + timer.period - late % timer.period

end Timer

namespace Timers

variable {κ ω : Type}

def new (now : Instant) : Timers κ :=
  ⟨now, [], .none⟩

-- Sets a timer whose first call is one period away. One with no time between its calls is not
-- set, so its callback never runs.
def set (timers : Timers κ) (id : Nat) (period : Duration) (callback : κ) : Timers κ :=
  if period_pos : 0 < period then
    { timers with
      entries := timers.entries ++ [⟨id, period, period_pos, timers.now + period, callback⟩] }
  else timers

-- Registers a callback and gives the number of its subscription, which is issued even if no
-- timer is set for it.
def every (timers : Timers κ) (period : Duration) (callback : κ) : Nat × Timers κ :=
  let id := timers.subscriptions.next
  (id, { timers with subscriptions := timers.subscriptions.issue }.set id period callback)

def cancel (timers : Timers κ) (id : Nat) : Timers κ :=
  { timers with subscriptions := timers.subscriptions.cancel id }

def drop (timers : Timers κ) (id : Nat) : Timers κ :=
  { timers with subscriptions := timers.subscriptions.drop id }

structure Turn (κ ω : Type) where
  verdict : Verdict
  callback : κ
  subscriptions : Subscriptions
  world : ω

-- Who ran, and which of the timers are still set.
structure Round (κ ω : Type) where
  ran : List Nat
  kept : List (Timer κ)
  subscriptions : Subscriptions
  world : ω

-- Calls one timer for as long as it is due again at once. Only a timer with a period within the
-- grace can be, and it catches up by a period with each call, so the number of periods in the
-- grace and two more are fuel enough.
def runTimer (call : Timer κ → Subscriptions → ω → Turn κ ω) (now : Instant) :
    Nat → Timer κ → Subscriptions → ω → Round κ ω
  | 0, timer, subscriptions, world => ⟨[], [timer], subscriptions, world⟩
  | fuel + 1, timer, subscriptions, world =>
    if !subscriptions.isLive timer.id then ⟨[], [], subscriptions, world⟩
    else if !timer.isDue now then ⟨[], [timer], subscriptions, world⟩
    else
      let turn := call timer subscriptions world
      match turn.verdict with
      | .quit => ⟨[timer.id], [], turn.subscriptions, turn.world⟩
      | .proceed =>
        let timer := { timer with due := timer.nextDue now, callback := turn.callback }
        let round := runTimer call now fuel timer turn.subscriptions turn.world
        { round with ran := timer.id :: round.ran }

def runAll (call : Timer κ → Subscriptions → ω → Turn κ ω) (now : Instant) :
    List (Timer κ) → Subscriptions → ω → Round κ ω
  | [], subscriptions, world => ⟨[], [], subscriptions, world⟩
  | timer :: rest, subscriptions, world =>
    let first := runTimer call now (Timer.grace / timer.period + 2) timer subscriptions world
    let others := runAll call now rest first.subscriptions first.world
    { others with ran := first.ran ++ others.ran, kept := first.kept ++ others.kept }

-- Moves the clock on in one step and then calls what is due, the longest due first.
def advance (call : Timer κ → Subscriptions → ω → Turn κ ω) (timers : Timers κ) (span : Duration)
    (world : ω) : List Nat × Timers κ × ω :=
  let now := timers.now + span
  let (due, later) := timers.entries.partition (·.isDue now)
  let round :=
    runAll call now (due.mergeSort fun a b => a.due ≤ b.due) timers.subscriptions world
  (round.ran, ⟨now, later ++ round.kept, round.subscriptions⟩, round.world)

end Timers

end PacedFeed
