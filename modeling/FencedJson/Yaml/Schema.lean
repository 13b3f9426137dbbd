import FencedJson.Text.Digits
import FencedJson.Text.Integer
import FencedJson.Yaml.Timestamp

/-! # Tags

A tag tells what a node stands for. A plain scalar without a tag has the first
one whose form it has.
-/

namespace FencedJson.Yaml

inductive Tag where
  | null
  | boolean
  | integer
  | double
  | binary
  | timestamp
  | text
  /-- The key under which mappings are merged into another one. -/
  | merge
  /-- The key of the value that a mapping stands for. -/
  | value
  | sequence
  | mapping
  | set
  | orderedMapping
  | pairs
  | unknown
  deriving DecidableEq, Repr

namespace Tag

def known : List (String × Tag) := [
  ("null", null), ("bool", boolean), ("int", integer), ("float", double),
  ("binary", binary), ("timestamp", timestamp), ("str", text), ("merge", merge),
  ("value", value), ("seq", sequence), ("map", mapping), ("set", set),
  ("omap", orderedMapping), ("pairs", pairs)]

def ofName (name : String) : Tag :=
  ((known.find? fun (short, _) => "tag:yaml.org,2002:" ++ short = name).map
    (·.2)).getD unknown

end Tag

namespace Plain

def isGrouped (test : Char → Bool) (text : List Char) : Bool :=
  !text.isEmpty && text.all fun c => c = '_' || test c

def isDigitOf (base : Nat) (c : Char) : Bool := (hexValue? c).any (· < base)

def isSixtieths : List Char → Bool
  | ':' :: a :: b :: rest =>
      if isDigit a && isDigit b then a ≤ '5' &&
        (rest.isEmpty || isSixtieths rest)
      else isDigit a && isSixtieths (b :: rest)
  | [':', a] => isDigit a
  | _ => false

def startsWithDigit (text : List Char) : Bool := text.head?.any isDigit

def unsigned (text : List Char) : List Char := (Integer.splitSign text).2

def isDigitGroup (c : Char) : Bool := c = '_' || isDigit c

def isIntegerForm (version : Version) (text : List Char) : Bool :=
  let digits := unsigned text
  let based (letter : Char) (base : Nat) : Bool :=
    match digits with
    | '0' :: c :: rest => c = letter && isGrouped (isDigitOf base) rest
    | _ => false
  text.head? ≠ some '_' && (based 'b' 2 || based 'x' 16 ||
    if version.isOld then
      isGrouped (isDigitOf 8) digits ||
        (startsWithDigit digits && digits.head? ≠ some '0' &&
          (digits.all isDigitGroup ||
            isSixtieths (digits.dropWhile isDigitGroup)))
    else based 'o' 8 || isGrouped isDigit digits)

def isExponent (needsSign : Bool) : List Char → Bool
  | c :: rest =>
      let digits := unsigned rest
      (c = 'e' || c = 'E') && !digits.isEmpty && digits.all isDigit &&
        (!needsSign || digits.length < rest.length)
  | [] => false

def isDoubleForm (version : Version) (text : List Char) : Bool :=
  let digits := unsigned text
  let behind := digits.dropWhile isDigitGroup
  if startsWithDigit digits then
    isExponent false behind ||
      match behind with
      | '.' :: rest =>
          let power := rest.dropWhile isDigitGroup
          power.isEmpty || isExponent false power
      | _ =>
          let whole := behind.takeWhile (· ≠ '.')
          let fraction := behind.dropWhile (· ≠ '.')
          version.isOld && isSixtieths whole && !fraction.isEmpty &&
            fraction.tail.all isDigitGroup
  else
    match digits with
    | '.' :: rest =>
        let power := rest.dropWhile isDigitGroup
        let signed : Bool := digits.length < text.length
        (rest.head?.any isDigitGroup &&
          (power.isEmpty || isExponent true power) &&
            !(version.isOld && signed)) ||
        ["inf", "Inf", "INF"].contains (String.ofList rest) ||
        (!signed && ["nan", "NaN", "NAN"].contains (String.ofList rest))
    | _ => false

def truthWords (version : Version) : List String :=
  ["true", "True", "TRUE", "false", "False", "FALSE"] ++
    if version.isOld then
      ["y", "Y", "yes", "Yes", "YES", "n", "N", "no", "No", "NO", "on",
        "On", "ON", "off", "Off", "OFF"]
    else []

def tagOf (version : Version) (text : List Char) : Tag :=
  let word := String.ofList text
  if (truthWords version).contains word then .boolean
  else if isDoubleForm version text then .double
  else if isIntegerForm version text then .integer
  else if word = "<<" then .merge
  else if ["", "~", "null", "Null", "NULL"].contains word then .null
  else if Timestamp.isTimestampForm text then .timestamp
  else if word = "=" then .value
  else .text

example : tagOf .standard "1e3".toList = .double := by decide +kernel

example : tagOf .standard "no".toList = .text ∧
    tagOf .old "no".toList = .boolean := by
  decide +kernel

end Plain
end FencedJson.Yaml
