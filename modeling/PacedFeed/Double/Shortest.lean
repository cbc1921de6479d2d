import PacedFeed.Double

namespace PacedFeed

-- Powers are those of the core library, whatever else is imported.
attribute [local instance (2000)] instPowNat

structure Decimal where
  digits : Nat
  exponent : Int
  deriving DecidableEq

namespace Decimal

-- Moves trailing zeros of the digits into the exponent. `count` bounds how many are moved.
def trim : Nat → Decimal → Decimal
  | 0, decimal => decimal
  | count + 1, decimal =>
    if decimal.digits ≠ 0 ∧ decimal.digits % 10 = 0 then
      trim count ⟨decimal.digits / 10, decimal.exponent + 1⟩
    else decimal

-- The exponent of the first digit when the number is written `d.ddd * 10 ^ e`.
def leading (decimal : Decimal) : Int :=
  decimal.exponent + (Nat.toDigits 10 decimal.digits).length - 1

-- The digits before and after the point in positional writing.
def positional (decimal : Decimal) : List Char × List Char :=
  if 0 ≤ decimal.exponent then
    (Nat.toDigits 10 (decimal.digits * 10 ^ decimal.exponent.toNat), [])
  else
    let places := (-decimal.exponent).toNat
    let rest := Nat.toDigits 10 (decimal.digits % 10 ^ places)
    (Nat.toDigits 10 (decimal.digits / 10 ^ places),
      List.replicate (places - rest.length) '0' ++ rest)

end Decimal

namespace Double

-- Which of two candidates is taken when the number lies exactly halfway between them.
inductive Halfway where
  | upper
  | even

-- The magnitude of a rank as a quotient of whole numbers.
def ratio (rank : Nat) : Nat × Nat :=
  scaled (significand rank) 1 ((binade rank : Int) - 1074)

def reachesPower (num den : Nat) (exponent : Int) : Bool :=
  if 0 ≤ exponent then den * 10 ^ exponent.toNat ≤ num else den ≤ num * 10 ^ (-exponent).toNat

-- The exponent of the first decimal digit. The estimate, a rational number just above the
-- logarithm of two times the binary exponent, is off by at most one.
def leadingExponent (rank : Nat) : Int :=
  let (num, den) := ratio rank
  let binary : Int := (significand rank).log2 + binade rank - 1074
  let estimate := (binary * 30103).fdiv 100000
  if reachesPower num den (estimate + 1) then estimate + 1
  else if reachesPower num den estimate then estimate
  else estimate - 1

-- Of the two neighbours of the magnitude on the grid of `10 ^ exponent`, the nearer one that
-- reads back as the same double.
def onGrid? (halfway : Halfway) (rank : Nat) (exponent : Int) : Option Decimal :=
  let (num, den) := ratio rank
  let (n, d) :=
    if 0 ≤ exponent then (num, den * 10 ^ exponent.toNat)
    else (num * 10 ^ (-exponent).toNat, den)
  let below : Decimal := ⟨n / d, exponent⟩
  let above : Decimal := ⟨n / d + 1, exponent⟩
  let readsBack (decimal : Decimal) : Bool :=
    ofDecimal false decimal.digits decimal.exponent = ofRank false rank
  let preferAbove : Bool :=
    if 2 * (n % d) = d then
      match halfway with
      | .upper => true
      | .even => n / d % 2 == 1
    else d < 2 * (n % d)
  match readsBack below, readsBack above with
  | false, false => none
  | true, false => some below
  | false, true => some above
  | true, true => some (if preferAbove then above else below)

-- All digits of the magnitude.
def exactDecimal (rank : Nat) : Decimal :=
  let below := 1074 - binade rank
  ⟨significand rank * 2 ^ (binade rank - 1074) * 5 ^ below, -(below : Int)⟩

-- The fewest digits, at most seventeen, that read back as the same double. Seventeen always
-- suffice, so the exact digits are a formality.
def shortest (halfway : Halfway) (rank : Nat) : Decimal :=
  if rank = 0 then ⟨0, 0⟩
  else
    let top := leadingExponent rank
    match (List.range 17).findSome? fun (count : Nat) => onGrid? halfway rank (top - count) with
    | some decimal => decimal.trim 17
    | none => exactDecimal rank

-- A number inside a message: positional however many digits that takes, without a fraction
-- when it is whole, and with the sign of a negative zero.
def text : Double → String
  | .nan => "NaN"
  | .infinite true => "-inf"
  | .infinite false => "inf"
  | .finite negative rank _ =>
    let (whole, fraction) := (shortest .upper rank).positional
    (if negative then "-" else "") ++ String.ofList whole ++
      if fraction.isEmpty then "" else "." ++ String.ofList fraction

end Double

end PacedFeed
