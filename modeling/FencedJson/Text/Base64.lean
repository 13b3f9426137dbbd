import FencedJson.Text.Digits

/-! # Base 64

Bytes written in letters, four letters for three bytes. Characters that are no
letters of the alphabet are passed over.
-/

namespace FencedJson.Base64

def value? (c : Char) : Option Nat :=
  if 'A' ≤ c ∧ c ≤ 'Z' then some (c.toNat - 'A'.toNat)
  else if 'a' ≤ c ∧ c ≤ 'z' then some (c.toNat - 'a'.toNat + 26)
  else if isDigit c then some (digitValue c + 52)
  else if c = '+' then some 62
  else if c = '/' then some 63
  else none

def groupBytes (letters : List Nat) : List UInt8 :=
  match letters with
  | [a, b] => [UInt8.ofNat (a * 4 + b / 16)]
  | [a, b, c] =>
      [UInt8.ofNat (a * 4 + b / 16), UInt8.ofNat (b % 16 * 16 + c / 4)]
  | [a, b, c, d] =>
      [UInt8.ofNat (a * 4 + b / 16), UInt8.ofNat (b % 16 * 16 + c / 4),
        UInt8.ofNat (c % 4 * 64 + d)]
  | _ => []

/-- Decode from inside of a group of four: `letters` of it are read, and `pads`
equals signs behind them. A padded group ends the data; one that is neither full
nor padded is refused. -/
def decodeFrom? : (letters : List Nat) → (pads : Nat) → List Char →
    Option (List UInt8)
  | letters, _, [] => if letters.isEmpty then some [] else none
  | letters, pads, c :: rest =>
      if c = '=' then
        if 2 ≤ letters.length ∧ 4 ≤ letters.length + pads +
          1 then some (groupBytes letters)
        else decodeFrom? letters
          (if letters.length < 2 then pads else pads + 1) rest
      else
        match value? c with
        | none => decodeFrom? letters pads rest
        | some value =>
            let letters := letters ++ [value]
            if letters.length = 4 then
              (decodeFrom? [] 0 rest).map (groupBytes letters ++ ·)
            else decodeFrom? letters 0 rest

def decode? (text : List Char) : Option (List UInt8) := decodeFrom? [] 0 text

example : decode? "aGk=".toList = some [0x68, 0x69] := by decide +kernel

end FencedJson.Base64
