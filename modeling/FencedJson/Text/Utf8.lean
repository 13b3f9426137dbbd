import FencedJson.Text.Reading

/-! # UTF-8

Text is kept in files as UTF-8. Decoding refuses the first sequence of bytes
that stands for no character and says where it lies.
-/

namespace FencedJson.Utf8

inductive Problem where
  | badStart
  | badContinuation
  | cutOff
  deriving DecidableEq, Repr

def Problem.message : Problem → String
  | badStart => "invalid start byte"
  | badContinuation => "invalid continuation byte"
  | cutOff => "unexpected end of data"

structure Fault where
  problem : Problem
  position : Nat
  length : Nat
  first : UInt8
  deriving DecidableEq, Repr

def hexByte (byte : UInt8) : String :=
  String.ofList [Nat.digitChar (byte.toNat / 16),
    Nat.digitChar (byte.toNat % 16)]

def Fault.message (fault : Fault) : String :=
  let place :=
    if fault.length =
      1 then s!"byte 0x{hexByte fault.first} in position {fault.position}"
    else
      s!"bytes in position {fault.position}-{fault.position + fault.length - 1}"
  s!"'utf-8' codec can't decode {place}: {fault.problem.message}"

/-- The bounds of the bytes that must follow a first byte, and its own part of
the code point. Tighter bounds for the second byte keep out long forms,
surrogates and numbers past the last code point. -/
def follow? (first : UInt8) : Option (Nat × List (UInt8 × UInt8)) :=
  let any : UInt8 × UInt8 := (0x80, 0xbf)
  if first < 0x80 then some (first.toNat, [])
  else if first < 0xc2 then none
  else if first < 0xe0 then some (first.toNat - 0xc0, [any])
  else if first < 0xf0 then
    let second :=
      if first = 0xe0 then (0xa0, 0xbf) else if first =
        0xed then (0x80, 0x9f) else any
    some (first.toNat - 0xe0, [second, any])
  else if first < 0xf5 then
    let second :=
      if first = 0xf0 then (0x90, 0xbf) else if first =
        0xf4 then (0x80, 0x8f) else any
    some (first.toNat - 0xf0, [second, any, any])
  else none

/-- The code point that following bytes complete, or what is wrong and how many
of the bytes are right. -/
def complete (code : Nat) : (bounds : List (UInt8 × UInt8)) → (right : Nat) →
    List UInt8 → Except (Problem × Nat) Nat
  | [], _, _ => .ok code
  | _ :: _, right, [] => .error (.cutOff, right)
  | (low, high) :: bounds, right, byte :: rest =>
      if low ≤ byte ∧ byte ≤ high then
        complete (code * 64 + (byte.toNat - 0x80)) bounds (right + 1) rest
      else .error (.badContinuation, right)

def decodeFrom (position : Nat) (decoded : List Char) (bytes : List UInt8) :
    Except Fault (List Char) :=
  match bytes with
  | [] => .ok decoded.reverse
  | first :: rest =>
      match follow? first with
      | none => .error ⟨.badStart, position, 1, first⟩
      | some (code, bounds) =>
          match complete code bounds 0 rest with
          | .error (problem, right) =>
              .error ⟨problem, position, right + 1, first⟩
          | .ok point =>
              decodeFrom (position + 1 + bounds.length)
              (Char.ofNat point :: decoded) (rest.drop bounds.length)
termination_by bytes.length
decreasing_by
  simp only [List.length_drop, List.length_cons]
  omega

def decode (bytes : List UInt8) : Except Fault (List Char) :=
  decodeFrom 0 [] bytes

def encodeChar (c : Char) : List UInt8 :=
  let n := c.toNat
  let tail (shift : Nat) : UInt8 := UInt8.ofNat (0x80 + (n >>> shift) % 64)
  if n < 0x80 then [UInt8.ofNat n]
  else if n < 0x800 then [UInt8.ofNat (0xc0 + (n >>> 6)), tail 0]
  else if n < 0x10000 then [UInt8.ofNat (0xe0 + (n >>> 12)), tail 6, tail 0]
  else [UInt8.ofNat (0xf0 + (n >>> 18)), tail 12, tail 6, tail 0]

def encode (text : List Char) : List UInt8 := text.flatMap encodeChar

example : (decode (encode ['a', 'é', '€', '😀'])).toOption =
    some ['a', 'é', '€', '😀'] := by
  decide +kernel

example : (decode [0x61, 0xe2, 0x82]).toOption = none := by decide +kernel

end FencedJson.Utf8
