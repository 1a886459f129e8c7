/-!
# Binary floating point numbers of 64 bits

A double is a sign and a magnitude.  The magnitude is the number that the other
63 bits spell, so magnitudes are ordered as the values they stand for.  A finite
magnitude stands for `units magnitude` multiples of `2 ^ (-1074)`, the smallest
positive double, so exact arithmetic on doubles is arithmetic on natural numbers.
Its 52 lower bits are the fraction; the bits above them give the scale.

`nearest` rounds a quotient of naturals to a magnitude: the nearer of the two
neighbours, and of two equally near ones the even one.
-/

namespace BuilderCalls

def signBit : Nat := 0x8000000000000000

def scaleBit : Nat := 0x10000000000000

/-- The magnitude of the infinities; the magnitudes above it are not numbers. -/
def infiniteMagnitude : Nat := 0x7ff0000000000000

structure Double where
  negative : Bool
  magnitude : Nat
  magnitude_lt : magnitude < signBit
  deriving DecidableEq

namespace Double

def isFinite (double : Double) : Bool :=
  double.magnitude < infiniteMagnitude

def isNaN (double : Double) : Bool :=
  infiniteMagnitude < double.magnitude

def isZero (double : Double) : Bool :=
  double.magnitude == 0

def zero (negative : Bool) : Double :=
  ⟨negative, 0, by decide⟩

def infinity (negative : Bool) : Double :=
  ⟨negative, infiniteMagnitude, by decide⟩

def ofBits (bits : Nat) : Double :=
  ⟨bits / signBit % 2 = 1, bits % signBit, Nat.mod_lt _ (by decide)⟩

/-- How many times `2 ^ (-1074)` a finite magnitude stands for. -/
def units (magnitude : Nat) : Nat :=
  let shift := magnitude / scaleBit - 1
  (magnitude - shift * scaleBit) <<< shift

def floorMagnitude (count : Nat) : Nat :=
  let shift := Nat.log2 count - 52
  shift * scaleBit + count >>> shift

/--
The magnitude nearest to `numerator / denominator`.  The result may exceed
`infiniteMagnitude`; such a quotient is too great for a finite double.
-/
def nearest (numerator denominator : Nat) : Nat :=
  let scaled := numerator <<< 1074
  let low := floorMagnitude (scaled / denominator)
  let middle := (units low + units (low + 1)) * denominator
  if 2 * scaled < middle then low
  else if middle < 2 * scaled then low + 1
  else if low % 2 = 0 then low else low + 1

def ofRatio (negative : Bool) (numerator denominator : Nat) : Double :=
  ⟨negative, min (nearest numerator denominator) infiniteMagnitude,
    Nat.lt_of_le_of_lt (Nat.min_le_right _ _) (by decide)⟩

def ofInt (value : Int) : Double :=
  ofRatio (value < 0) value.natAbs 1

def isIntegral (double : Double) : Bool :=
  (units double.magnitude >>> 1074) <<< 1074 == units double.magnitude

end Double

end BuilderCalls
