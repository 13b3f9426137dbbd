import FencedJson.Field.Refusal
import FencedJson.Text.Blank
import FencedJson.Text.Utf8

/-! # Conversions of data to the types of fields

A field takes more than data of its own type: an integer may come as a text or
as a whole floating-point number, a truth value as one of several words.
-/

namespace FencedJson

namespace Numeral

def plain? (text : List Char) : Option Int :=
  let digits := withoutFront ['-'] text
  let canonical : Bool := match digits with
    | [] => false
    | ['0'] => true
    | first :: _ => first != '0'
  if canonical && digits.all isDigit then
    let magnitude : Int := decimalNumber digits
    some (if digits.length < text.length then -magnitude else magnitude)
  else none

/-- A numeral without the zeros in front of its first other digit. A zero stays
where nothing but a fraction follows. -/
def afterZeros? : (last : Char) → List Char → Option (List Char)
  | last, [] => some [last]
  | last, c :: rest =>
      if c = '0' ∨ c = '_' then afterZeros? c rest
      else if isDigit c then some (c :: rest)
      else if c = '.' then some (last :: c :: rest)
      else none

def withoutZeros? (text : List Char) : Option (List Char) :=
  match text with
  | [] => none
  | c :: rest =>
      if c = '0' then afterZeros? c rest
      else if isDigit c || c == '-' then some text
      else none

def withoutFraction (text : List Char) : List Char :=
  match text.dropWhile (· != '.') with
  | '.' :: fraction =>
      if fraction.all (· = '0') then text.takeWhile (· != '.') else text
  | _ => text

def withoutGroups (text : List Char) : List Char :=
  if text.head? = some '_' ∨ text.getLast? = some '_' ∨
    occursIn ['_', '_'] text then text
  else text.filter (· != '_')

def cleaned? (text : List Char) : Option (List Char) :=
  let inner := trimSpace text
  let unsigned := withoutFront ['+'] inner
  if unsigned.length < inner.length ∧ unsigned.head? = some '-' then none
  else
    (withoutZeros? unsigned).map fun digits =>
      withoutGroups (withoutFraction digits)

def read? (text : List Char) : Option Int :=
  (plain? text).or ((cleaned? text).bind plain?)

example : read? " +1_0.00 ".toList = some 10 := by decide +kernel

example : read? "1e3".toList = none := by decide +kernel

end Numeral

namespace Json.Double

def toInt? (x : Double) : Option Int :=
  let (numerator, denominator) := x.magnitude
  if numerator % denominator = 0 then
    let magnitude : Int := (numerator / denominator : Nat)
    some (if x.isNegative then -magnitude else magnitude)
  else none

end Json.Double

namespace Datum

def toInteger : Datum → Except Reason Int
  | integer value => .ok value
  | boolean value => .ok (if value then 1 else 0)
  | double value =>
      if value.isNan || value.isInfinite then .error .notFinite
      else match value.toInt? with
        | some whole => .ok whole
        | none => .error .fractional
  | text value =>
      match Numeral.read? value.toList with
      | some number => .ok number
      | none => .error .unreadableInteger
  | _ => .error .noInteger

def truthOfWord? (word : String) : Option Bool :=
  let lower := word.map fun c => if 'A' ≤ c ∧
      c ≤ 'Z' then Char.ofNat (c.toNat + 32) else c
  if ["1", "t", "true", "y", "yes", "on"].contains lower then some true
  else if ["0", "f", "false", "n", "no", "off"].contains lower then some false
  else none

def truthOfNumber (number : Int) : Except Reason Bool :=
  if number = 1 then .ok true
  else if number = 0 then .ok false
  else .error .unreadableBoolean

def truthOfText (word : String) : Except Reason Bool :=
  match truthOfWord? word with
  | some value => .ok value
  | none => .error .unreadableBoolean

def toBoolean : Datum → Except Reason Bool
  | boolean value => .ok value
  | integer value => truthOfNumber value
  | double value =>
      if value.isNan || value.isInfinite then .error .noBoolean
      else match value.toInt? with
        | some whole => truthOfNumber whole
        | none => .error .noBoolean
  | text value => truthOfText value
  | bytes value =>
      match Utf8.decode value with
      | .ok characters => truthOfText (String.ofList characters)
      | .error _ => .error .unreadableBoolean
  | _ => .error .noBoolean

def toText : Datum → Except Reason String
  | text value => .ok value
  | bytes value =>
      match Utf8.decode value with
      | .ok characters => .ok (String.ofList characters)
      | .error _ => .error .unreadableText
  | _ => .error .noText

/-- The items of a list of texts. Each item that does not fit is blamed by its
place. -/
def textsFrom (location : String) : (index : Nat) → List Datum →
    Filled (List String)
  | _, [] => .ok []
  | index, item :: rest =>
      (Filled.both (Filled.convert s!"{location}.{index}" toText item)
        (textsFrom location (index + 1) rest)).map fun (first, others) =>
          first :: others

def toTexts (location : String) : Datum → Filled (List String)
  | sequence items => textsFrom location 0 items
  | tuple items => textsFrom location 0 items
  | set items => textsFrom location 0 items
  | datum => .error [⟨location, .noList, datum⟩]

end Datum
end FencedJson
