import BuilderCalls.Number.Decimal

/-!
# Number texts

A decimal is written from its significant digits and the place of the point.
Two formats use it: `Double.plainText` never has an exponent and writes whole
numbers without a point, `Double.jsonText` is always recognisably a double.
-/

namespace BuilderCalls

def natText (value : Nat) : List Char :=
  Nat.toDigits 10 value

def intText (value : Int) : List Char :=
  if value < 0 then '-' :: natText value.natAbs else natText value.natAbs

def hexDigit? (char : Char) : Option Nat :=
  if char.isDigit then some (char.toNat - 48)
  else if 'a' ≤ char && char ≤ 'f' then some (char.toNat - 87)
  else if 'A' ≤ char && char ≤ 'F' then some (char.toNat - 55)
  else none

def dropTrailingZeros (digits : List Char) : List Char :=
  (digits.reverse.dropWhile (· == '0')).reverse

/-- Significant digits and a point: `point` of the digits stand before it. -/
structure Significant where
  digits : List Char
  point : Int

namespace Significant

def ofDecimal (decimal : Decimal) : Significant :=
  let digits := natText decimal.digits
  ⟨dropTrailingZeros digits, digits.length + decimal.exponent⟩

def positional (number : Significant) : List Char :=
  if number.point ≤ 0 then
    '0' :: '.' :: List.replicate (-number.point).toNat '0' ++ number.digits
  else
    let whole := number.point.toNat
    if number.digits.length ≤ whole then
      number.digits ++ List.replicate (whole - number.digits.length) '0'
    else
      number.digits.take whole ++ '.' :: number.digits.drop whole

def scientific (number : Significant) : List Char :=
  let exponent := number.point - 1
  let mantissa :=
    match number.digits with
    | first :: second :: rest => first :: '.' :: second :: rest
    | digits => digits
  let sign := if exponent < 0 then '-' else '+'
  mantissa ++ 'e' :: sign :: natText exponent.natAbs

end Significant

def signText (negative : Bool) : List Char :=
  if negative then ['-'] else []

namespace Double

/-- Shortest digits, never an exponent; a tie between two decimals goes up. -/
def plainText (double : Double) : List Char :=
  if double.isNaN then "NaN".toList
  else
    signText double.negative ++
      if !double.isFinite then "inf".toList
      else if double.isZero then ['0']
      else (Significant.ofDecimal (Decimal.shortest .up double.magnitude)).positional

/--
Shortest digits of a finite double; a tie goes to the even digit.  From `10 ^ (-5)`
up to `10 ^ 16` the notation is positional, and a whole number keeps `.0`.
-/
def jsonText (double : Double) : List Char :=
  signText double.negative ++
    if double.isZero then "0.0".toList
    else
      let number := Significant.ofDecimal (Decimal.shortest .even double.magnitude)
      if -5 < number.point && number.point ≤ 16 then
        if number.digits.length ≤ number.point then
          number.positional ++ ".0".toList
        else number.positional
      else number.scientific

end Double

def formatNumber (double : Double) : Option (List Char) :=
  if double.isFinite then some double.plainText else none

end BuilderCalls
