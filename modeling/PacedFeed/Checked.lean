import PacedFeed.Double

-- Operations that do not have a result for all of their arguments.

namespace PacedFeed

-- A number that a word of 64 bits has no room for.
structure Overflow where
  value : Nat
  deriving DecidableEq

def word (value : Nat) : Except Overflow Nat :=
  if value < wordLimit then .ok value else .error ⟨value⟩

theorem word_of_lt {value : Nat} (h : value < wordLimit) : word value = .ok value :=
  if_pos h

theorem word_of_le {value : Nat} (h : wordLimit ≤ value) : word value = .error ⟨value⟩ :=
  if_neg (Nat.not_lt.mpr h)

-- How a computation meets the conditions of its operations.
class Guarded (m : Type → Type) where
  require (condition : Prop) [Decidable condition] : m Unit

-- Takes every condition for granted.
instance : Guarded Id where
  require _ := pure ()

-- Stops at the first condition that does not hold.
instance : Guarded Option where
  require condition := if condition then some () else none

instance {ε : Type} {m : Type → Type} [Monad m] [Guarded m] : Guarded (ExceptT ε m) where
  require condition := ExceptT.lift (Guarded.require condition)

def clamp (low high x : Nat) : Nat :=
  max low (min x high)

-- Bounds that cross, or that admit zero, are not met.
def clampM {m : Type → Type} [Monad m] [Guarded m] (low high x : Nat) : m Nat := do
  Guarded.require (0 < low ∧ low ≤ high)
  return clamp low high x

end PacedFeed
