namespace PacedFeed

-- A point on the clock's line, in nanoseconds from an arbitrary origin.
abbrev Instant := Int

-- A length of time in nanoseconds.
abbrev Duration := Nat

-- Time passed since `earlier`. An instant still to come counts as no time at all.
def Instant.since (now earlier : Instant) : Duration :=
  (now - earlier).toNat

namespace Duration

def nanosPerSecond : Nat := 1000000000

def nanosPerMilli : Nat := 1000000

-- The literal comes first, since a product is unfolded along its second factor.
def ofMillis (count : Nat) : Duration :=
  nanosPerMilli * count

-- Whole milliseconds, rounded down.
def millis (duration : Duration) : Nat :=
  duration / nanosPerMilli

end Duration

-- Milliseconds of one frame at the default pace of sixty frames a second.
def defaultFrameMillis : Nat := 16

-- The number of frames a coordinator has started.
structure Tick where
  frame : Nat
  deriving DecidableEq, Inhabited

namespace Tick

def zero : Tick := ⟨0⟩

def next (tick : Tick) : Tick :=
  ⟨tick.frame + 1⟩

end Tick

theorem Instant.since_self (now : Instant) : Instant.since now now = 0 := by
  simp [Instant.since]

-- On a clock that only moves forward the parts of a stretch add up to the whole.
theorem Instant.since_add {first middle last : Instant} (hf : first ≤ middle) (hl : middle ≤ last) :
    Instant.since last middle + Instant.since middle first = Instant.since last first := by
  unfold Instant.since
  unfold Instant Duration at *
  omega

end PacedFeed
