/-! # Digits and the numbers they write -/

namespace FencedJson

def isDigit (c : Char) : Bool := '0' ≤ c && c ≤ '9'

def digitValue (c : Char) : Nat := c.toNat - '0'.toNat

def hexValue? (c : Char) : Option Nat :=
  if isDigit c then some (digitValue c)
  else if 'a' ≤ c ∧ c ≤ 'f' then some (c.toNat - 'a'.toNat + 10)
  else if 'A' ≤ c ∧ c ≤ 'F' then some (c.toNat - 'A'.toNat + 10)
  else none

def numberOf (base : Nat) (digits : List Nat) : Nat :=
  digits.foldl (fun total digit => base * total + digit) 0

def decimalNumber (digits : List Char) : Nat :=
  numberOf 10 (digits.map digitValue)

def hexNumber? (digits : List Char) : Option Nat :=
  (digits.mapM hexValue?).map (numberOf 16)

/-- The most digits a decimal integer may have to be converted. -/
def integerDigitLimit : Nat := 4300

def integerDigitMessage (count : Nat) : String :=
  s!"Exceeds the limit ({integerDigitLimit} digits) for integer string conversion: " ++
    s!"value has {count} digits; use sys.set_int_max_str_digits() to increase the limit"

end FencedJson
