import PacedFeed.Time

namespace PacedFeed

-- Powers are those of the core library, whatever else is imported.
attribute [local instance (2000)] instPowNat

-- One past the largest unsigned 64-bit word.
abbrev wordLimit : Nat := 18446744073709551616

-- The number of finite magnitudes of a double: 2047 · 2^52.
abbrev magnitudeCount : Nat := 9218868437227405312

-- A binary floating-point number of 64 bits. The finite magnitudes, in increasing order, have
-- the ranks 0, 1, 2, …, so a rank is also the magnitude's bit pattern.
inductive Double where
  | nan
  | infinite (negative : Bool)
  | finite (negative : Bool) (rank : Nat) (rank_lt : rank < magnitudeCount)
  deriving DecidableEq

namespace Double

-- Every finite magnitude is a whole number of units of 2^-1074. The magnitude of a rank is
-- `significand rank * 2 ^ binade rank` units.
def binade (rank : Nat) : Nat :=
  rank / 2 ^ (52 : Nat) - 1

def significand (rank : Nat) : Nat :=
  rank - binade rank * 2 ^ (52 : Nat)

def units (rank : Nat) : Nat :=
  significand rank * 2 ^ binade rank

-- The whole number nearest to `num / den`. A half goes to the even neighbour.
def divNearest (num den : Nat) : Nat :=
  if 2 * (num % den) < den ∨ (2 * (num % den) = den ∧ num / den % 2 = 0) then num / den
  else num / den + 1

-- `num / den * 2 ^ shift` as a quotient of whole numbers.
def scaled (num den : Nat) (shift : Int) : Nat × Nat :=
  if 0 ≤ shift then (num * 2 ^ shift.toNat, den) else (num, den * 2 ^ (-shift).toNat)

-- The binade in whose steps `num / den * 2 ^ shift` units are rounded: the least one that
-- leaves fewer than 2^53 steps.
def roundingBinade (num den : Nat) (shift : Int) : Nat :=
  let low := ((num.log2 : Int) + shift - den.log2 - 53).toNat
  let (n, d) := scaled num den (shift - low)
  if n < d * 2 ^ (53 : Nat) then low else low + 1

-- The rank nearest to `num / den * 2 ^ shift` units. A half goes to the even rank, and a
-- significand that rounds up to 2^53 carries into the next binade by itself.
def nearestRank (num den : Nat) (shift : Int) : Nat :=
  if num = 0 then 0
  else
    let step := roundingBinade num den shift
    let (n, d) := scaled num den (shift - step)
    step * 2 ^ (52 : Nat) + divNearest n d

def ofRank (negative : Bool) (rank : Nat) : Double :=
  if h : rank < magnitudeCount then .finite negative rank h else .infinite negative

def round (negative : Bool) (num den : Nat) (shift : Int) : Double :=
  ofRank negative (nearestRank num den (shift + 1074))

def ofNat (n : Nat) : Double :=
  round false n 1 0

-- The double nearest to `digits * 10 ^ exponent`. The two bounds only keep hopeless powers of
-- ten from being written out: such a number is above every double or below half the least one.
def ofDecimal (negative : Bool) (digits : Nat) (exponent : Int) : Double :=
  if digits = 0 then .finite negative 0 (by decide)
  else if 309 ≤ exponent then .infinite negative
  else if (digits.log2 : Int) + 3 * exponent < -1100 then .finite negative 0 (by decide)
  else if 0 ≤ exponent then round negative (digits * 10 ^ exponent.toNat) 1 0
  else round negative digits (10 ^ (-exponent).toNat) 0

instance (n : Nat) : OfNat Double n := ⟨ofNat n⟩

instance : OfScientific Double where
  ofScientific mantissa isNegative exponent :=
    ofDecimal false mantissa (if isNegative then -(exponent : Int) else exponent)

instance : Inhabited Double := ⟨0⟩

def add : Double → Double → Double
  | .nan, _ | _, .nan => .nan
  | .infinite s, .infinite t => if s = t then .infinite s else .nan
  | .infinite s, .finite .. | .finite .., .infinite s => .infinite s
  | .finite s a _, .finite t b _ =>
    let base := min (binade a) (binade b)
    let signed (negative : Bool) (rank : Nat) : Int :=
      let size : Nat := significand rank * 2 ^ (binade rank - base)
      if negative then -size else size
    let sum := signed s a + signed t b
    if sum = 0 then .finite (s && t) 0 (by decide)
    else ofRank (sum < 0) (nearestRank sum.natAbs 1 base)

def mul : Double → Double → Double
  | .nan, _ | _, .nan => .nan
  | .infinite s, .infinite t => .infinite (s != t)
  | .infinite s, .finite t b _ | .finite t b _, .infinite s =>
    if b = 0 then .nan else .infinite (s != t)
  | .finite s a _, .finite t b _ =>
    ofRank (s != t)
      (nearestRank (significand a * significand b) 1 ((binade a : Int) + binade b - 1074))

def div : Double → Double → Double
  | .nan, _ | _, .nan => .nan
  | .infinite _, .infinite _ => .nan
  | .infinite s, .finite t _ _ => .infinite (s != t)
  | .finite s _ _, .infinite t => .finite (s != t) 0 (by decide)
  | .finite s a _, .finite t b _ =>
    if b = 0 then if a = 0 then .nan else .infinite (s != t)
    else ofRank (s != t)
      (nearestRank (significand a) (significand b) (1074 + (binade a : Int) - binade b))

instance : Add Double := ⟨add⟩

instance : Mul Double := ⟨mul⟩

instance : Div Double := ⟨div⟩

-- The place of a number in the order of the doubles. The two zeros share one place and a
-- number that is not a number has none.
def place? : Double → Option Int
  | .nan => none
  | .infinite true => some (-(magnitudeCount : Int))
  | .infinite false => some magnitudeCount
  | .finite true rank _ => some (-(rank : Int))
  | .finite false rank _ => some rank

def lt (x y : Double) : Bool :=
  match x.place?, y.place? with
  | some a, some b => a < b
  | _, _ => false

def le (x y : Double) : Bool :=
  match x.place?, y.place? with
  | some a, some b => a ≤ b
  | _, _ => false

instance : LT Double := ⟨fun x y => x.lt y = true⟩

instance : LE Double := ⟨fun x y => x.le y = true⟩

instance (x y : Double) : Decidable (x < y) := inferInstanceAs (Decidable (x.lt y = true))

instance (x y : Double) : Decidable (x ≤ y) := inferInstanceAs (Decidable (x.le y = true))

def isFinite : Double → Bool
  | .finite .. => true
  | _ => false

-- How a magnitude becomes a whole number: up, to the nearest with halves up, or down.
inductive Whole where
  | ceiling
  | nearest
  | floor
  deriving DecidableEq

def Whole.quotient (mode : Whole) (num den : Nat) : Nat :=
  match mode with
  | .ceiling => (num + den - 1) / den
  | .nearest => (2 * num + den) / (2 * den)
  | .floor => num / den

-- The whole number as an unsigned word. What lies below or is not a number becomes 0, what lies
-- above becomes the largest word.
def toWord (mode : Whole) : Double → Nat
  | .nan | .infinite true | .finite true .. => 0
  | .infinite false => wordLimit - 1
  | .finite false rank _ =>
    let (num, den) := scaled (significand rank) 1 ((binade rank : Int) - 1074)
    min (mode.quotient num den) (wordLimit - 1)

-- The bit pattern of the number, with one pattern for all that are not numbers.
def toBits : Double → Nat
  | .nan => 0x7ff8000000000000
  | .infinite negative => (if negative then 2 ^ (63 : Nat) else 0) + magnitudeCount
  | .finite negative rank _ => (if negative then 2 ^ (63 : Nat) else 0) + rank

-- A duration in seconds: the whole seconds and the rest are converted one by one.
def ofDuration (duration : Duration) : Double :=
  ofNat (duration / Duration.nanosPerSecond) +
    ofNat (duration % Duration.nanosPerSecond) / ofNat Duration.nanosPerSecond

-- The duration nearest to a number of seconds, a half nanosecond going to the even neighbour.
-- There is none for a negative number or for 2^64 seconds and more.
def toDuration? : Double → Option Duration
  | .nan | .infinite _ => none
  | .finite negative rank _ =>
    if negative ∧ rank ≠ 0 then none
    else
      let (num, den) :=
        scaled (significand rank * Duration.nanosPerSecond) 1 ((binade rank : Int) - 1074)
      let nanos := divNearest num den
      if nanos < wordLimit * Duration.nanosPerSecond then some nanos else none

end Double

end PacedFeed
