import FencedJson.Field.Datum
import FencedJson.Text.Base64
import FencedJson.Yaml.Schema

/-! # Values of scalars -/

namespace FencedJson.Yaml

namespace Scalar

def unreadable (reason : String) (text : List Char) : Failure :=
  .unreadable s!"{reason}: {String.ofList (Quoted.text text)}"

def lowered (text : List Char) : List Char :=
  text.map fun c => if 'A' ≤ c ∧ c ≤ 'Z' then Char.ofNat (c.toNat + 32) else c

def boolean (text : List Char) : Except Failure Datum :=
  let word := String.ofList (lowered text)
  if ["y", "yes", "true", "on"].contains word then .ok (.boolean true)
  else if ["n", "no", "false", "off"].contains word then .ok (.boolean false)
  else .error (.unknownWord word)

/-! ## Numbers -/

def magnitude (base : Nat) (digits : List Char) : Except Failure Int :=
  if base = 10 ∧ integerDigitLimit < digits.length ∧ digits.all isDigit then
    .error (.unreadable (integerDigitMessage digits.length))
  else
    match Integer.read? base digits with
    | some value => .ok value
    | none =>
        .error
          (unreadable s!"invalid literal for int() with base {base}" digits)

def colonParts : List Char → List (List Char)
  | [] => [[]]
  | c :: rest =>
      match colonParts rest with
      | [] => [[c]]
      | first :: others =>
          if c = ':' then [] :: first :: others else (c :: first) :: others

def integerMagnitude (version : Version) (digits : List Char) :
    Except Failure Int :=
  match digits with
  | ['0'] => .ok 0
  | '0' :: 'b' :: rest => magnitude 2 rest
  | '0' :: 'x' :: rest => magnitude 16 rest
  | '0' :: 'o' :: rest => magnitude 8 rest
  | '0' :: _ => magnitude (if version.isOld then 8 else 10) digits
  | _ =>
      if version.isOld && digits.contains ':' then
        ((colonParts digits).mapM (magnitude 10)).map fun parts =>
          parts.foldl (fun total part => 60 * total + part) 0
      else magnitude 10 digits

def integer (version : Version) (text : List Char) : Except Failure Datum :=
  match text.filter (· ≠ '_') with
  | [] => .error .emptyNumber
  | compact =>
      let (negative, digits) := Integer.splitSign compact
      (integerMagnitude version digits).map fun value =>
        .integer (if negative then -value else value)

def decimal? (text : List Char) : Option (Nat × Int) :=
  let whole := text.takeWhile isDigit
  let behind := text.dropWhile isDigit
  let (fraction, behind) := match behind with
    | '.' :: rest => (rest.takeWhile isDigit, rest.dropWhile isDigit)
    | rest => ([], rest)
  let digits := decimalNumber (whole ++ fraction)
  let power : Option Int := match behind with
    | [] => some 0
    | c :: rest =>
        let (negative, power) := Integer.splitSign rest
        if (c = 'e' || c = 'E') && !power.isEmpty && power.all isDigit then
          some (if negative then -decimalNumber power else decimalNumber power)
        else none
  if whole.isEmpty && fraction.isEmpty then none
  else power.map fun power => (digits, power - fraction.length)

def double? (negative : Bool) (text : List Char) : Option Json.Double :=
  let (inner, magnitude) := Integer.splitSign (trim text)
  let negative := negative != inner
  if ["inf", "infinity"].contains (String.ofList magnitude) then some
    (.infinity negative)
  else if magnitude = "nan".toList then some .nan
  else (decimal? magnitude).map fun (digits, power) =>
    .ofDecimal negative digits power

def sixtieths? (negative : Bool) (parts : List (List Char)) :
    Option Json.Double :=
  (parts.mapM decimal?).map fun values =>
    let least := values.foldl (fun least (_, power) => min least power) 0
    let total := values.foldl
      (fun total (digits, power) => 60 * total + digits * Nat.pow 10
        (power - least).toNat) 0
    .ofDecimal negative total least

def double (version : Version) (text : List Char) : Except Failure Datum :=
  match lowered (text.filter (· ≠ '_')) with
  | [] => .error .emptyNumber
  | compact =>
      let (negative, digits) := Integer.splitSign compact
      if digits = ".inf".toList then .ok (.double (.infinity negative))
      else if digits = ".nan".toList then .ok (.double .nan)
      else
        let read := if version.isOld && digits.contains ':' then
            sixtieths? negative (colonParts digits)
          else double? negative digits
        match read with
        | some value => .ok (.double value)
        | none => .error (unreadable "could not convert string to float" digits)

/-! ## All scalars -/

def binary (text : List Char) : Except Failure Datum :=
  if text.all (·.toNat < 0x80) then
    match Base64.decode? text with
    | some value => .ok (.bytes value)
    | none => .error (.problem .badBinary)
  else .error (.problem .badBinary)

def datum (version : Version) (tag : Tag) (text : List Char) :
    Except Failure Datum :=
  match tag with
  | .null => .ok .null
  | .boolean => boolean text
  | .integer => integer version text
  | .double => double version text
  | .binary => binary text
  | .timestamp => Timestamp.datum text
  | .text => .ok (.text (String.ofList text))
  | .merge | .value | .unknown => .error (.problem .unknownTag)
  | .sequence | .mapping | .set | .orderedMapping | .pairs =>
      .error (.problem .badShape)

end Scalar
end FencedJson.Yaml
