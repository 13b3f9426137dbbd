import FencedJson.Text.Digits

/-! # Binary floating-point numbers

A double is kept as its sixty-four bits. Decimal literals are converted in exact
integer arithmetic, to the nearest double, a tie going to the even one.
-/

namespace FencedJson.Json

structure Double where
  bits : UInt64
  deriving DecidableEq, Repr

namespace Double

def exponentUnit : Nat := 0x10000000000000

def signBit : Nat := 0x8000000000000000

def infinityBits : Nat := 0x7ff * exponentUnit

def signed (negative : Bool) (magnitude : Nat) : Double :=
  ⟨UInt64.ofNat (if negative then signBit + magnitude else magnitude)⟩

def infinity (negative : Bool) : Double := signed negative infinityBits

def nan : Double := ⟨UInt64.ofNat 0x7ff8000000000000⟩

def isNegative (x : Double) : Bool := signBit ≤ x.bits.toNat

def magnitudeBits (x : Double) : Nat := x.bits.toNat % signBit

def isNan (x : Double) : Bool := infinityBits < x.magnitudeBits

def isInfinite (x : Double) : Bool := x.magnitudeBits == infinityBits

def roundHalfEven (numerator denominator : Nat) : Nat :=
  let quotient := numerator / denominator
  let remainder := numerator % denominator
  if 2 * remainder < denominator then quotient
  else if denominator < 2 * remainder then quotient + 1
  else quotient + quotient % 2

def scale (numerator denominator : Nat) (exponent : Int) : Nat × Nat :=
  if exponent < 0 then (numerator <<< exponent.natAbs, denominator)
  else (numerator, denominator <<< exponent.natAbs)

/-- The power of two that counts the last place of the double nearest to a
positive fraction: fifty-three digits are kept, fewer near zero. -/
def lastPlace (numerator denominator : Nat) : Int :=
  let estimate : Int := numerator.log2 - denominator.log2 - 53
  let (n, d) := scale numerator denominator estimate
  max (-1074) (if n / d < 2 * exponentUnit then estimate else estimate + 1)

/-- The magnitude bits of the double nearest to a positive fraction. A
significand that rounds up to the next power of two carries into the exponent,
and a carry past the largest exponent gives infinity. -/
def nearestBits (numerator denominator : Nat) : Nat :=
  let exponent := lastPlace numerator denominator
  let (n, d) := scale numerator denominator exponent
  min infinityBits ((exponent + 1074).toNat * exponentUnit + roundHalfEven n d)

/-- The double nearest to `digits * 10 ^ exponent`. Exponents that are out of
reach of every double are cut off before any power is computed. -/
def ofDecimal (negative : Bool) (digits : Nat) (exponent : Int) : Double :=
  if digits = 0 then signed negative 0
  else if 400 < exponent then infinity negative
  else if exponent < -400 - digits.log2 then signed negative 0
  else if 0 ≤ exponent then
    signed negative (nearestBits (digits * Nat.pow 10 exponent.natAbs) 1)
  else
    signed negative (nearestBits digits (Nat.pow 10 exponent.natAbs))

end Double
end FencedJson.Json
