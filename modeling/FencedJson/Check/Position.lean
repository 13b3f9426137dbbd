import FencedJson.Text.Digits
import FencedJson.Text.Reading

/-! # Positions named in messages

The strict reader names an offset in the words of its message. It is found again
there and turned into a line and a column of the block, where a run of line
breaks ends one line only.
-/

namespace FencedJson.Check

/-- A position in a block. All three are zero when no offset was named. -/
structure Position where
  line : Nat
  column : Nat
  offset : Nat
  deriving DecidableEq, Repr

namespace Position

def none : Position := ⟨0, 0, 0⟩

def isLineBreak (c : Char) : Bool := c = '\r' || c = '\n'

def breakRuns : List Char → Nat
  | [] => 0
  | [c] => if isLineBreak c then 1 else 0
  | c :: next :: rest =>
      (if isLineBreak c && !isLineBreak next then 1 else 0) +
        breakRuns (next :: rest)

def lastLineLength (text : List Char) : Nat :=
  (text.reverse.takeWhile fun c => !isLineBreak c).length

def ofOffset (text : List Char) (offset : Nat) : Position :=
  let before := text.take offset
  ⟨breakRuns before + 1, lastLineLength before + 1, offset⟩

def markers : List (List Char) := ["at position ".toList, "(char ".toList]

def offsetDigits? (text : List Char) : Option (List Char) :=
  markers.findSome? fun marker =>
    (after? marker text).bind fun rest =>
      match rest.takeWhile isDigit with
      | [] => Option.none
      | digits => some digits

def namedDigits? : List Char → Option (List Char)
  | [] => Option.none
  | c :: rest => (offsetDigits? (c :: rest)).or (namedDigits? rest)

structure TooLong where
  digits : Nat
  deriving DecidableEq, Repr

def recover (message : String) (text : List Char) : Except TooLong Position :=
  match namedDigits? message.toList with
  | Option.none => .ok none
  | some digits =>
      if integerDigitLimit < digits.length then .error ⟨digits.length⟩
      else .ok (ofOffset text (decimalNumber digits))

end Position
end FencedJson.Check
