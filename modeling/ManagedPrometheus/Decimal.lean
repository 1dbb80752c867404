/-!
# Decimals

The decimal that stands for a binary number: of those that round to the number, the one with the
fewest digits, of these the nearest, and of two that are equally near the larger. All comparisons are
exact, on natural numbers.
-/

namespace ManagedPrometheus

/-- The number `digits * 10 ^ exponent`. -/
structure Decimal where
  digits : Nat
  exponent : Int
  deriving DecidableEq, Repr

/-- A positive binary number and the interval of the reals that round to it, each a multiple of
`2 ^ exponent`. The ends belong to the interval if it is closed. -/
structure RoundingInterval where
  low : Nat
  value : Nat
  high : Nat
  exponent : Int
  closed : Bool
  deriving DecidableEq, Repr

namespace RoundingInterval

/-- The interval of the finite number with the given exponent bits and fraction bits: it reaches half
way to the neighbours, of which the lower one is nearer below a power of two. The ends round to the
number if its last bit is zero. -/
def ofFields (exponentBits fraction : Nat) : RoundingInterval :=
  let mantissa := if exponentBits = 0 then fraction else Nat.pow 2 52 + fraction
  { low := 4 * mantissa - (if fraction = 0 ∧ 1 < exponentBits then 1 else 2)
    value := 4 * mantissa
    high := 4 * mantissa + 2
    exponent := (Nat.max exponentBits 1 : Int) - 1077
    closed := mantissa % 2 = 0 }

variable (interval : RoundingInterval)

/-- What a multiple of `2 ^ exponent` is multiplied with when it is compared to a multiple of
`10 ^ grid`. -/
def binaryFactor (grid : Int) : Nat :=
  Nat.pow 2 interval.exponent.toNat * Nat.pow 10 (-grid).toNat

/-- What a multiple of `10 ^ grid` is multiplied with when it is compared to a multiple of
`2 ^ exponent`. -/
def decimalFactor (grid : Int) : Nat :=
  Nat.pow 10 grid.toNat * Nat.pow 2 (-interval.exponent).toNat

/-- Whether `digits * 10 ^ grid` lies in the interval. -/
def contains (grid : Int) (digits : Nat) : Bool :=
  let low := interval.low * interval.binaryFactor grid
  let high := interval.high * interval.binaryFactor grid
  let point := digits * interval.decimalFactor grid
  if interval.closed then low ≤ point && point ≤ high else low < point && point < high

/-- The point of a grid that lies in the interval next to the value. -/
def onGrid (grid : Int) : Option Decimal :=
  let value := interval.value * interval.binaryFactor grid
  let unit := interval.decimalFactor grid
  let below := value / unit
  let nearestFirst :=
    if 2 * value < (2 * below + 1) * unit then [below, below + 1] else [below + 1, below]
  (nearestFirst.find? (interval.contains grid)).map fun digits => ⟨digits, grid⟩

/-- A bound on the places after the point that any number needs to show a digit. -/
def placesBound : Nat := 400

/-- The least exponent whose power of ten is above the value. -/
def scale : Int :=
  let shifted := interval.value * Nat.pow 2 interval.exponent.toNat * Nat.pow 10 placesBound
    / Nat.pow 2 (-interval.exponent).toNat
  (Nat.toDigits 10 shifted).length - placesBound

/-- The value itself, for want of a shorter decimal. -/
def exactly : Decimal :=
  if 0 ≤ interval.exponent then ⟨interval.value * Nat.pow 2 interval.exponent.toNat, 0⟩
  else ⟨interval.value * Nat.pow 5 (-interval.exponent).toNat, interval.exponent⟩

/-- The most digits that are tried. -/
def digitBound : Nat := 17

/-- The decimal that stands for the value: the grids are tried from the coarsest on. -/
def shortest : Decimal :=
  ((List.range digitBound).findSome? fun n : Nat =>
    interval.onGrid (interval.scale - (n + 1))).getD
    interval.exactly

end RoundingInterval

namespace Decimal

/-- A decimal in positional notation, without zeros at the end of a fraction. -/
def positional (decimal : Decimal) : String :=
  let digits := Nat.toDigits 10 decimal.digits
  if 0 ≤ decimal.exponent then
    String.ofList (digits ++ List.replicate decimal.exponent.toNat '0')
  else
    let places := (-decimal.exponent).toNat
    let padded := List.replicate (places + 1 - digits.length) '0' ++ digits
    let whole := padded.take (padded.length - places)
    let fraction := ((padded.drop (padded.length - places)).reverse.dropWhile (· = '0')).reverse
    String.ofList (if fraction.isEmpty then whole else whole ++ '.' :: fraction)

end Decimal

end ManagedPrometheus
