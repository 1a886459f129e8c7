import BuilderCalls.Number.Double

/-!
# Decimal numbers

`digits * 10 ^ exponent`, exactly.  `toDouble` rounds to the nearest double.
`shortest` goes the other way: the fewest digits that read back to the same
double, and of those the decimal nearest to it.
-/

namespace BuilderCalls

structure Decimal where
  digits : Nat
  exponent : Int
  deriving DecidableEq

def tenTo (power : Nat) : Nat :=
  Nat.pow 10 power

def digitCount (value : Nat) : Nat :=
  (Nat.toDigits 10 value).length

namespace Decimal

/--
The nearest double.  A value of `10 ^ 310` or more is infinite and one below
`10 ^ (-330)` is zero whatever the digits are, so no power beyond those is formed.
-/
def toDouble (negative : Bool) (decimal : Decimal) : Double :=
  let lead : Int := digitCount decimal.digits + decimal.exponent
  if decimal.digits = 0 || lead < -330 then .zero negative
  else if 310 < lead then .infinity negative
  else match decimal.exponent with
    | .ofNat power => .ofRatio negative (decimal.digits * tenTo power) 1
    | .negSucc power => .ofRatio negative decimal.digits (tenTo (power + 1))

def floor (decimal : Decimal) : Nat :=
  match decimal.exponent with
  | .ofNat power => decimal.digits * tenTo power
  | .negSucc power => decimal.digits / tenTo (power + 1)

inductive Tie where
  | up
  | even
  deriving DecidableEq

def leadingExponent (magnitude : Nat) : Int :=
  (digitCount ((Double.units magnitude * tenTo 324) >>> 1074) : Int) - 325

def readsBack (magnitude : Nat) (decimal : Decimal) : Bool :=
  (decimal.toDouble false).magnitude == magnitude

/-- The quotient whose whole part counts the multiples of `10 ^ exponent` in a magnitude. -/
def grid (magnitude : Nat) : Int → Nat × Nat
  | .ofNat power => (Double.units magnitude, tenTo power <<< 1074)
  | .negSucc power => (Double.units magnitude * tenTo (power + 1), 1 <<< 1074)

def neighbour (tie : Tie) (magnitude : Nat) (exponent : Int) (quotient : Nat × Nat) :
    Option Decimal :=
  let (numerator, denominator) := quotient
  let low := numerator / denominator
  let below : Decimal := ⟨low, exponent⟩
  let above : Decimal := ⟨low + 1, exponent⟩
  let remainder := 2 * (numerator % denominator)
  let preferBelow :=
    remainder < denominator ||
      (remainder == denominator && tie == .even && low % 2 == 0)
  match readsBack magnitude below, readsBack magnitude above with
  | true, true => some (if preferBelow then below else above)
  | true, false => some below
  | false, true => some above
  | false, false => none

/--
The decimal of at most `count` digits that reads back and is nearest: one of the
two neighbours of the magnitude on the grid of that many digits, if any is.
-/
def candidate (tie : Tie) (magnitude count : Nat) : Option Decimal :=
  let exponent := leadingExponent magnitude - count + 1
  neighbour tie magnitude exponent (grid magnitude exponent)

def exact (magnitude : Nat) : Decimal :=
  ⟨Double.units magnitude * Nat.pow 5 1074, -1074⟩

def shortest (tie : Tie) (magnitude : Nat) : Decimal :=
  ((List.range 17).findSome? fun index => candidate tie magnitude (index + 1)).getD
    (exact magnitude)

end Decimal

end BuilderCalls
