import FencedJson.Text.Blank
import FencedJson.Text.Digits

/-! # Integers in any script

The scripts of Unicode have ten digits each, in a row from zero to nine.
-/

namespace FencedJson.Integer

def zeros : List Nat := [
  0x30, 0x660, 0x6f0, 0x7c0, 0x966, 0x9e6, 0xa66, 0xae6, 0xb66, 0xbe6,
  0xc66, 0xce6, 0xd66, 0xde6, 0xe50, 0xed0, 0xf20, 0x1040, 0x1090, 0x17e0,
  0x1810, 0x1946, 0x19d0, 0x1a80, 0x1a90, 0x1b50, 0x1bb0, 0x1c40, 0x1c50,
  0xa620, 0xa8d0, 0xa900, 0xa9d0, 0xa9f0, 0xaa50, 0xabf0, 0xff10, 0x104a0,
  0x10d30, 0x11066, 0x110f0, 0x11136, 0x111d0, 0x112f0, 0x11450, 0x114d0,
  0x11650, 0x116c0, 0x11730, 0x118e0, 0x11950, 0x11c50, 0x11d50, 0x11da0,
  0x16a60, 0x16ac0, 0x16b50, 0x1d7ce, 0x1d7d8, 0x1d7e2, 0x1d7ec, 0x1d7f6,
  0x1e140, 0x1e2f0, 0x1e950, 0x1fbf0]

def digit? (c : Char) : Option Nat :=
  (zeros.find? fun first => first ≤ c.toNat && c.toNat < first + 10).map
    (c.toNat - ·)

def digitIn? (base : Nat) (c : Char) : Option Nat :=
  ((digit? c).or (hexValue? c)).filter (· < base)

def digits? (base : Nat) : List Char → Option (List Nat)
  | [] => none
  | [c] => (digitIn? base c).map fun digit => [digit]
  | c :: '_' :: rest =>
      (digitIn? base c).bind fun digit => (digits? base rest).map (digit :: ·)
  | c :: rest =>
      (digitIn? base c).bind fun digit => (digits? base rest).map (digit :: ·)

def splitSign : List Char → Bool × List Char
  | '-' :: rest => (true, rest)
  | '+' :: rest => (false, rest)
  | text => (false, text)

/-- The integer that a text writes, with blanks around it. A decimal numeral may
not have too many digits. -/
def read? (base : Nat) (text : List Char) : Option Int :=
  let (negative, magnitude) := splitSign (trim text)
  (digits? base magnitude).bind fun digits =>
    let value : Int := numberOf base digits
    if base = 10 ∧ integerDigitLimit < digits.length then none
    else some (if negative then -value else value)

example : read? 10 " -1_0\n".toList = some (-10) := by decide +kernel

example : read? 10 "1__0".toList = none := by decide +kernel

end FencedJson.Integer
