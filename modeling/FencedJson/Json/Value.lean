import FencedJson.Entries
import FencedJson.Json.Double
import FencedJson.Text.Digits

/-! # JSON values -/

namespace FencedJson.Json

/-- A Unicode code point. An escape may write half of a surrogate pair, which is
a code point and no character. -/
abbrev CodePoint := Fin 0x110000

namespace CodePoint

def ofChar (c : Char) : CodePoint :=
  ⟨c.toNat, by
    have valid := c.valid
    simp only [UInt32.isValidChar, Nat.isValidChar] at valid
    change c.val.toNat < 0x110000
    omega⟩

def ofNat (n : Nat) : CodePoint :=
  if small : n < 0x110000 then ⟨n, small⟩ else 0

def isHighSurrogate (point : CodePoint) : Bool :=
  0xd800 ≤ point.val && point.val < 0xdc00

def isLowSurrogate (point : CodePoint) : Bool :=
  0xdc00 ≤ point.val && point.val < 0xe000

def join (high low : CodePoint) : CodePoint :=
  ofNat (0x10000 + (high.val - 0xd800) * 0x400 + (low.val - 0xdc00))

def toChar? (point : CodePoint) : Option Char :=
  if point.val.isValidChar then some (Char.ofNat point.val) else none

end CodePoint

abbrev CodeText := List CodePoint

namespace CodeText

def ofString (text : String) : CodeText := text.toList.map CodePoint.ofChar

def toString? (text : CodeText) : Option String :=
  (text.mapM CodePoint.toChar?).map String.ofList

end CodeText

inductive Value where
  | null
  | boolean (value : Bool)
  | integer (value : Int)
  | double (value : Double)
  | string (text : CodeText)
  | array (items : List Value)
  /-- Members in order of first occurrence; no key occurs twice. -/
  | object (members : List (CodeText × Value))

namespace Value

mutual

def same : Value → Value → Bool
  | null, null => true
  | boolean value, boolean other => value = other
  | integer value, integer other => value = other
  | double value, double other => value = other
  | string text, string other => text = other
  | array items, array others => sameItems items others
  | object members, object others => sameMembers members others
  | _, _ => false

def sameItems : List Value → List Value → Bool
  | [], [] => true
  | item :: items, other :: others => item.same other && sameItems items others
  | _, _ => false

def sameMembers : List (CodeText × Value) → List (CodeText × Value) → Bool
  | [], [] => true
  | (key, value) :: members, (other, value') :: others =>
      key = other && value.same value' && sameMembers members others
  | _, _ => false

end

mutual

theorem same_iff : ∀ value other : Value, value.same other ↔ value = other
  | null, other | boolean _, other | integer _, other | double _,
      other | string _, other => by
      cases other <;> simp [same]
  | array items, other => by
      cases other <;> simp [same, sameItems_iff items]
  | object members, other => by
      cases other <;> simp [same, sameMembers_iff members]

theorem sameItems_iff : ∀ items others : List Value, sameItems items others ↔
    items = others
  | [], others => by
      cases others <;> simp [sameItems]
  | item :: items, others => by
      cases others <;> simp [sameItems, same_iff item, sameItems_iff items]

theorem sameMembers_iff :
    ∀ members others : List (CodeText × Value), sameMembers members others ↔
    members = others
  | [], others => by
      cases others <;> simp [sameMembers]
  | (key, value) :: members, others => by
      cases others <;>
        simp [sameMembers, Prod.ext_iff, same_iff value,
          sameMembers_iff members, and_assoc]

end

instance : DecidableEq Value := fun value other =>
  decidable_of_iff _ (same_iff value other)

end Value

structure Decimal where
  negative : Bool
  whole : List Char
  /-- The digits after the point, if there is a point. -/
  fraction : Option (List Char)
  /-- The sign and the digits of the exponent, if there is one. -/
  exponent : Option (Bool × List Char)

namespace Decimal

def isInteger (literal : Decimal) : Bool :=
  literal.fraction.isNone && literal.exponent.isNone

def toInt (literal : Decimal) : Int :=
  let magnitude : Int := decimalNumber literal.whole
  if literal.negative then -magnitude else magnitude

def power (literal : Decimal) : Int :=
  match literal.exponent with
  | none => 0
  | some (negative, digits) =>
      let magnitude : Int := decimalNumber digits
      if negative then -magnitude else magnitude

def toDouble (literal : Decimal) : Double :=
  let fraction := literal.fraction.getD []
  Double.ofDecimal literal.negative (decimalNumber (literal.whole ++ fraction))
    (literal.power - fraction.length)

end Decimal
end FencedJson.Json
