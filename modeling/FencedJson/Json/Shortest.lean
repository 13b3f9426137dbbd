import FencedJson.Json.Double

/-! # The shortest decimal of a double

Of the decimals that are nearest to one double the shortest is found on the
coarsest decimal grid that has one. The search is exact: both grid points beside
the double are converted back.
-/

namespace FencedJson.Json.Double

def magnitude (x : Double) : Nat × Nat :=
  let exponent := x.magnitudeBits / exponentUnit
  let significand := x.magnitudeBits % exponentUnit +
      (if exponent = 0 then 0 else exponentUnit)
  scale significand 1 (1075 - (max 1 exponent : Nat))

/-- Of the two multiples of `10 ^ exponent` beside a number, the nearer one that
reads back as this number, counted in these multiples. -/
def onGrid? (x : Double) (exponent : Int) : Option Nat :=
  let (numerator, denominator) := x.magnitude
  let (n, d) :=
    if exponent < 0 then (numerator * Nat.pow 10 exponent.natAbs, denominator)
    else (numerator, denominator * Nat.pow 10 exponent.natAbs)
  let below := n / d
  let reads (digits : Nat) : Bool :=
    (ofDecimal false digits exponent).bits.toNat == x.magnitudeBits
  let nearer := if 2 * (n % d) ≤
      d then [below, below + 1] else [below + 1, below]
  nearer.find? reads

/-- The digits and the exponent of the shortest decimal that reads back as a
finite number other than zero. -/
def shortest (x : Double) : Nat × Int :=
  ((List.range 640).findSome? fun step : Nat =>
    let exponent : Int := 309 - (step : Int)
    (x.onGrid? exponent).map fun digits => (digits, exponent)).getD (0, 0)

/-- Ten to the power of 300 is not a double, and yet one digit is enough to name
the nearest. -/
example : (ofDecimal false 1 300).shortest = (1, 300) := by decide +kernel

end FencedJson.Json.Double
