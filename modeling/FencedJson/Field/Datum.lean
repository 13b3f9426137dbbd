import FencedJson.Json.Shortest
import FencedJson.Text.Quoted

/-! # Data that fields are filled with

Options and reports are filled from data that may have any shape. A datum that
does not fit is quoted in the report, so every datum has a spelling.
-/

namespace FencedJson

structure Date where
  year : Nat
  month : Nat
  day : Nat
  deriving DecidableEq, Repr

structure Clock where
  hour : Nat
  minute : Nat
  second : Nat
  microsecond : Nat
  deriving DecidableEq, Repr

inductive Datum where
  | null
  | boolean (value : Bool)
  | integer (value : Int)
  | double (value : Json.Double)
  | text (value : String)
  | bytes (value : List UInt8)
  | date (day : Date)
  | moment (day : Date) (time : Clock)
  | sequence (items : List Datum)
  /-- A sequence of fixed length, which may be a key. -/
  | tuple (items : List Datum)
  | mapping (entries : List (Datum × Datum))
  /-- A mapping whose type says that its entries stand in order. -/
  | orderedMapping (entries : List (Datum × Datum))
  | set (items : List Datum)
  deriving Inhabited

namespace Datum

def kind : Datum → String
  | null => "NoneType"
  | boolean _ => "bool"
  | integer _ => "int"
  | double _ => "float"
  | text _ => "str"
  | bytes _ => "bytes"
  | date _ => "date"
  | moment _ _ => "datetime"
  | sequence _ => "list"
  | tuple _ => "tuple"
  | mapping _ => "dict"
  | orderedMapping _ => "ordereddict"
  | set _ => "set"

/-! ## Spelling -/

def quotedBytes (value : List UInt8) : List Char :=
  let characters := value.map fun byte => Char.ofNat byte.toNat
  let mark := Quoted.markFor characters
  let spelled (c : Char) : List Char :=
    if c.toNat < 0x80 then Quoted.char mark c else '\\' :: 'x' ::
      Quoted.hexDigits 2 c.toNat
  'b' :: mark :: characters.flatMap spelled ++ [mark]

/-- A decimal with its point: positional between a ten thousandth and ten to the
sixteenth, and with an exponent of at least two digits beyond. -/
def spelledDecimal (digits : List Char) (exponent : Int) : List Char :=
  let point : Int := digits.length + exponent
  if point < -3 ∨ 16 < point then
    let power := point - 1
    let magnitude := (toString power.natAbs).toList
    let fraction := match digits.drop 1 with
      | [] => []
      | rest => '.' :: rest
    digits.take 1 ++ fraction ++ ['e', if power < 0 then '-' else '+'] ++
      List.replicate (2 - magnitude.length) '0' ++ magnitude
  else if point ≤ 0 then '0' :: '.' :: List.replicate point.natAbs '0' ++ digits
  else
    let whole := digits.take point.toNat ++ List.replicate exponent.toNat '0'
    let fraction := match digits.drop point.toNat with
      | [] => ['0']
      | rest => rest
    whole ++ '.' :: fraction

def spelledDouble (x : Json.Double) : List Char :=
  if x.isNan then "nan".toList
  else
    let sign := if x.isNegative then ['-'] else []
    if x.isInfinite then sign ++ "inf".toList
    else
      let (digits, exponent) := x.shortest
      sign ++ spelledDecimal (toString digits).toList exponent

def separated : List (List Char) → List Char
  | [] => []
  | [last] => last
  | first :: rest => first ++ ',' :: ' ' :: separated rest

def spelledNumbers (numbers : List Nat) : List Char :=
  separated (numbers.map fun n => (toString n).toList)

def clockNumbers (time : Clock) : List Nat :=
  [time.hour, time.minute] ++
    (if time.microsecond ≠ 0 then [time.second, time.microsecond]
      else if time.second ≠ 0 then [time.second] else [])

mutual

def spelled : Datum → List Char
  | null => "None".toList
  | boolean value => (if value then "True" else "False").toList
  | integer value => (toString value).toList
  | double value => spelledDouble value
  | text value => Quoted.text value.toList
  | bytes value => quotedBytes value
  | date day =>
      "datetime.date(".toList ++
        spelledNumbers [day.year, day.month, day.day] ++ [')']
  | moment day time =>
      "datetime.datetime(".toList ++
        spelledNumbers ([day.year, day.month, day.day] ++ clockNumbers time) ++
          [')']
  | sequence items => '[' :: separated (spelledItems items) ++ [']']
  | tuple [item] => '(' :: item.spelled ++ [',', ')']
  | tuple items => '(' :: separated (spelledItems items) ++ [')']
  | mapping entries => '\x7b' :: separated (spelledEntries entries) ++ ['\x7d']
  | orderedMapping [] => "ordereddict()".toList
  | orderedMapping entries =>
      "ordereddict([".toList ++ separated (spelledPairs entries) ++ [']', ')']
  | set [] => "set()".toList
  | set items => '\x7b' :: separated (spelledItems items) ++ ['\x7d']

def spelledItems : List Datum → List (List Char)
  | [] => []
  | item :: rest => item.spelled :: spelledItems rest

def spelledEntries : List (Datum × Datum) → List (List Char)
  | [] => []
  | (key, value) :: rest =>
      (key.spelled ++ ':' :: ' ' :: value.spelled) :: spelledEntries rest

def spelledPairs : List (Datum × Datum) → List (List Char)
  | [] => []
  | (key, value) :: rest =>
      ('(' :: key.spelled ++ ',' :: ' ' :: value.spelled ++ [')']) ::
        spelledPairs rest

end

/-! ## Quotation in a report -/

def byteCount (text : List Char) : Nat :=
  text.foldl (fun total c => total + c.utf8Size) 0

def takeBytes : (limit : Nat) → List Char → List Char
  | _, [] => []
  | limit, c :: rest =>
      if c.utf8Size ≤ limit then c ::
        takeBytes (limit - c.utf8Size) rest else []

/-- A spelling of more than fifty bytes keeps twenty-five of them at the front
and twenty-four at the end. -/
def shortened (text : List Char) : List Char :=
  if byteCount text ≤ 50 then text
  else takeBytes 25 text ++ "...".toList ++ (takeBytes 24 text.reverse).reverse

def excerpt (datum : Datum) : String := String.ofList (shortened datum.spelled)

example : (mapping [(text "line", integer 1)]).excerpt =
    "\x7b'line': 1\x7d" := by
  decide +kernel

end Datum
end FencedJson
