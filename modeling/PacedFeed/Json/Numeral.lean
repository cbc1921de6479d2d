import PacedFeed.Double.Shortest

namespace PacedFeed.Json

-- A number as it is written: sign, digits before the point, digits after it and the exponent.
-- Without a point there are no digits after it.
structure Numeral where
  negative : Bool
  whole : List Char
  fraction : List Char
  exponent : Option Int
  deriving DecidableEq

namespace Numeral

def ofNat (n : Nat) : Numeral :=
  ⟨false, Nat.toDigits 10 n, [], none⟩

-- The value of a plain unsigned word: no sign, no point, no exponent.
def toWord? (numeral : Numeral) : Option Nat :=
  if numeral.negative ∨ numeral.fraction ≠ [] ∨ numeral.exponent ≠ none then none
  else
    let n := Nat.ofDigitChars 10 numeral.whole 0
    if n < wordLimit then some n else none

-- The nearest double. Infinite for a number beyond all doubles.
def toDouble (numeral : Numeral) : Double :=
  Double.ofDecimal numeral.negative
    (Nat.ofDigitChars 10 (numeral.whole ++ numeral.fraction) 0)
    (numeral.exponent.getD 0 - numeral.fraction.length)

-- Exponents of the first digit that are written positionally.
def isPositional (leading : Int) : Bool :=
  -5 ≤ leading ∧ leading < 16

-- The fewest digits that read back, always with a point or an exponent.
def ofMagnitude (negative : Bool) (rank : Nat) : Numeral :=
  let decimal := Double.shortest .even rank
  if isPositional decimal.leading then
    let (whole, fraction) := decimal.positional
    ⟨negative, whole, if fraction.isEmpty then ['0'] else fraction, none⟩
  else
    let digits := Nat.toDigits 10 decimal.digits
    ⟨negative, digits.take 1, digits.drop 1, some decimal.leading⟩

def text (numeral : Numeral) : List Char :=
  (if numeral.negative then ['-'] else []) ++ numeral.whole ++
    (if numeral.fraction.isEmpty then [] else '.' :: numeral.fraction) ++
    match numeral.exponent with
    | none => []
    | some exponent =>
      'e' :: (if exponent < 0 then '-' else '+') :: Nat.toDigits 10 exponent.natAbs

def readSign : List Char → Bool × List Char
  | '-' :: rest => (true, rest)
  | rest => (false, rest)

-- One zero, or digits that do not start with a zero.
def isWhole : List Char → Bool
  | [] => false
  | ['0'] => true
  | first :: _ => first != '0'

def readFraction? : List Char → Option (List Char × List Char)
  | '.' :: rest =>
    let digits := rest.takeWhile Char.isDigit
    if digits.isEmpty then none else some (digits, rest.dropWhile Char.isDigit)
  | rest => some ([], rest)

def readExponent? : List Char → Option (Option Int)
  | [] => some none
  | mark :: rest =>
    if mark ≠ 'e' ∧ mark ≠ 'E' then none
    else
      let (negative, digits) :=
        match rest with
        | '-' :: digits => (true, digits)
        | '+' :: digits => (false, digits)
        | digits => (false, digits)
      if digits.isEmpty ∨ ¬digits.all Char.isDigit then none
      else
        let size : Int := Nat.ofDigitChars 10 digits 0
        some (some (if negative then -size else size))

-- Reads a whole word as a number.
def ofText? (word : List Char) : Option Numeral :=
  let (negative, rest) := readSign word
  let whole := rest.takeWhile Char.isDigit
  if isWhole whole then
    match readFraction? (rest.dropWhile Char.isDigit) with
    | none => none
    | some (fraction, rest) =>
      (readExponent? rest).map fun exponent => ⟨negative, whole, fraction, exponent⟩
  else none

end Numeral

end PacedFeed.Json
