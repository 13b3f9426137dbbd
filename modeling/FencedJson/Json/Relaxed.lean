import FencedJson.Json.Grammar
import FencedJson.Json.Value
import FencedJson.Stack
import FencedJson.Text.Category
import FencedJson.Text.Place
import FencedJson.Text.Reading

/-! # Relaxed JSON

JSON5: JSON with comments, trailing commas, names without quotation marks,
single quotation marks, more escapes and more forms of numbers. A text is
matched against the rules of the grammar first; its numerals are converted when
it matches as a whole.
-/

namespace FencedJson.Json.Relaxed

/-- A number as it is written. A point and an exponent need no digits to match
the grammar, so that there are numerals without a value. -/
inductive Numeral where
  | decimal (whole : Option (List Char)) (fraction : Option (List Char))
      (exponent : Option (Option Char × List Char))
  | hexadecimal (digits : List Char)
  | infinity
  | nan

inductive Tree where
  | null
  | boolean (value : Bool)
  | string (text : CodeText)
  | number (negative : Bool) (numeral : Numeral)
  | array (items : List Tree)
  | object (members : List (CodeText × Tree))

/-! ## Blanks and comments -/

def lineEnd : Rule Unit :=
  .firstOf [.word ['\r', '\n'], .word ['\r'], .word ['\n'],
    .word ['\u2028'], .word ['\u2029']]

def lineComment : Rule Unit :=
  (Rule.word ['/', '/']).before <|
    (Rule.many ((Rule.absent lineEnd).before (.char fun _ => true))).map
      fun _ => ()

def blockComment : Rule Unit :=
  (Rule.word ['/', '*']).before <|
    (Rule.many
      ((Rule.absent (.word ['*', '/'])).before (.char fun _ => true))).before
        (.word ['*', '/'])

def isBlank (c : Char) : Bool :=
  c = ' ' || c = '\t' || c = '\x0b' || c = '\x0c' || c = '\u00a0' ||
    c = '\ufeff' || Category.isSpaceSeparator c

def blanks : Rule Unit :=
  (Rule.many (.firstOf [(Rule.char isBlank).map fun _ => (), lineEnd,
    lineComment, blockComment])).map fun _ => ()

/-! ## Strings -/

def digit : Rule Char := .char isDigit

def hexDigit : Rule Char := .char fun c => (hexValue? c).isSome

def codeOf (digits : List Char) : CodePoint :=
  CodePoint.ofNat ((hexNumber? digits).getD 0)

def longEscape : Rule CodePoint :=
  (Rule.word ['u']).before <| hexDigit.andThen fun a =>
    hexDigit.andThen fun b =>
    hexDigit.andThen fun c => hexDigit.map fun d => codeOf [a, b, c, d]

def shortEscape : Rule CodePoint :=
  (Rule.word ['x']).before <| hexDigit.andThen fun a =>
    hexDigit.map fun b => codeOf [a, b]

def controlEscapes : List (Char × Char) :=
  [('b', '\x08'), ('f', '\x0c'), ('n', '\n'), ('r', '\r'), ('t', '\t'),
    ('v', '\x0b')]

def selfEscape : Rule CodePoint :=
  (Rule.absent
    (.firstOf [.word ['x'], .word ['u'], digit.map fun _ => (),
      lineEnd])).before <| (Rule.char fun _ => true).map CodePoint.ofChar

def escaped : Rule CodePoint :=
  .firstOf (controlEscapes.map (fun (letter, control) =>
      (Rule.word [letter]).map fun _ => CodePoint.ofChar control) ++
    [selfEscape,
      (Rule.word ['0']).before ((Rule.absent digit).map fun _ =>
        CodePoint.ofNat 0),
      shortEscape, longEscape])

/-- One character of a string, if it stands for one. A line end behind a
backslash stands for nothing; a bare carriage return or line feed is refused. -/
def stringPart (quote : Char) : Rule (Option CodePoint) :=
  .firstOf [
    (Rule.word ['\\']).before (escaped.map Option.some),
    (Rule.word ['\\']).before (lineEnd.map fun _ => none),
    (Rule.char fun c => c ≠ '\\' && c ≠ quote && c ≠ '\r' && c ≠ '\n').map
      fun c =>
      Option.some (CodePoint.ofChar c)]

def quoted (quote : Char) : Rule CodeText :=
  (Rule.word [quote]).before <|
    ((Rule.many (stringPart quote)).map (·.filterMap id)).closedBy
      (.word [quote])

def string : Rule CodeText := (quoted '\'').orElse (quoted '"')

/-! ## Names -/

def isPlainNameStart (c : Char) : Bool :=
  ('a' ≤ c && c ≤ 'z') || ('A' ≤ c && c ≤ 'Z') || c = '$' || c = '_'

def nameStart : Rule CodePoint :=
  .firstOf [
    (Rule.char isPlainNameStart).map CodePoint.ofChar,
    (Rule.charThen Category.isNameStart).map CodePoint.ofChar,
    (Rule.word ['\\']).before longEscape]

def namePart : Rule CodePoint :=
  .firstOf [
    (Rule.char fun c => isPlainNameStart c || isDigit c ||
      c = '\u200c' || c = '\u200d').map CodePoint.ofChar,
    (Rule.charThen fun c => Category.isNameStart c || Category.isNameMark c).map
      CodePoint.ofChar,
    (Rule.word ['\\']).before longEscape]

def name : Rule CodeText :=
  nameStart.andThen fun first => (Rule.many namePart).map (first :: ·)

/-! ## Numbers -/

def fraction : Rule (List Char) := (Rule.word ['.']).before (.many digit)

def exponent : Rule (Option Char × List Char) :=
  (Rule.char fun c => c = 'e' || c = 'E').before <|
    (Rule.optional (.char fun c => c = '+' || c = '-')).andThen fun sign =>
      (Rule.many digit).map (sign, ·)

def whole : Rule (List Char) :=
  ((Rule.char (· = '0')).closedBy (.absent digit)).map
    (fun zero => [zero]) |>.orElse <|
      (Rule.char fun c => isDigit c && c ≠ '0').andThen fun first =>
      (Rule.many digit).map (first :: ·)

def decimal : Rule Numeral :=
  (whole.andThen fun whole => (Rule.optional fraction).andThen fun fraction =>
      (Rule.optional exponent).map fun exponent =>
        .decimal (Option.some whole) fraction exponent).orElse <|
    fraction.andThen fun fraction => (Rule.optional exponent).map
      fun exponent =>
      .decimal none (Option.some fraction) exponent

def hexadecimal : Rule Numeral :=
  ((Rule.word ['0', 'x']).orElse (.word ['0', 'X'])).before <|
    (Rule.some hexDigit).map .hexadecimal

def numeral : Rule Numeral :=
  .firstOf [
    decimal.closedBy (.absent nameStart),
    hexadecimal,
    (Rule.word "Infinity".toList).map fun _ => .infinity,
    (Rule.word "NaN".toList).map fun _ => .nan]

def number : Rule Tree :=
  .firstOf [
    (Rule.word ['-']).before (numeral.map (.number true)),
    (Rule.word ['+']).before (numeral.map (.number false)),
    numeral.map (.number false)]

/-! ## Values -/

def comma : Rule Unit := blanks.before ((Rule.word [',']).before blanks)

def items {α : Type} (item : Rule α) : Rule (List α) :=
  (item.andThen fun first => (Rule.many (comma.before item)).map
    (first :: ·)).closedBy <| blanks.before (.optional (.word [',']))

def bracketed {α : Type} (opening close : Char) (item : Rule α) :
    Rule (List α) :=
  ((Rule.word [opening]).before <|
    blanks.before
      ((items item).closedBy (blanks.before (.word [close])))).orElse <|
  (Rule.word [opening]).before <|
    blanks.before ((Rule.word [close]).map fun _ => [])

def member (value : Rule Tree) : Rule (CodeText × Tree) :=
  let withKey (key : Rule CodeText) : Rule (CodeText × Tree) :=
    key.andThen fun key => blanks.before <| (Rule.word [':']).before <|
      blanks.before (value.map (key, ·))
  (withKey string).orElse (withKey name)

def value : Nat → Rule Tree
  | 0 => .giveUp
  | depth + 1 =>
      .firstOf [
        (Rule.word "null".toList).map fun _ => .null,
        (Rule.word "true".toList).map fun _ => .boolean true,
        (Rule.word "false".toList).map fun _ => .boolean false,
        (bracketed '\x7b' '\x7d' (member (value depth))).map .object,
        (bracketed '[' ']' (value depth)).map .array,
        string.map .string,
        number]

def document (depth : Nat) : Rule Tree :=
  blanks.before ((value depth).closedBy (blanks.before .finish))

/-! ## Conversion -/

inductive Error where
  | empty
  /-- The character that the grammar has no use for, or the end of the text. -/
  | unexpected (found : Option Char) (place : Place)
  | noNumber (written : String)
  | integerTooLong (digits : Nat)
  | tooDeep (overflow : Overflow)
  deriving DecidableEq, Repr

def Error.message : Error → String
  | .empty => "Empty strings are not legal JSON5"
  | .unexpected none place =>
      s!"<string>:{place.line} Unexpected end of input at column {place.column}"
  | .unexpected (some c) place =>
      s!"<string>:{place.line} Unexpected \"" ++ String.singleton c ++
        s!"\" at column {place.column}"
  | .noNumber written => s!"could not convert string to float: '{written}'"
  | .integerTooLong digits => integerDigitMessage digits
  | .tooDeep overflow => overflow.message

/-- The line and the column that can be read off the message, which stays on one
line for that. Both are zero when there are none. -/
def Error.lineColumn : Error → Nat × Nat
  | .unexpected (some '\n') _ => (0, 0)
  | .unexpected _ place => (place.line, place.column)
  | _ => (0, 0)

/-! ## Places named in messages -/

def frontDigits? (text : List Char) : Option (List Char × List Char) :=
  match text.takeWhile isDigit with
  | [] => none
  | digits => some (digits, text.dropWhile isDigit)

def columnDigits? : List Char → Option (List Char)
  | [] => none
  | c :: rest =>
      (if c = '\n' then none else columnDigits? rest).or <|
        (after? " at column ".toList (c :: rest)).bind fun behind =>
          (frontDigits? behind).map (·.1)

/-- The digits of a line and of a column. A colon stands before the first ones,
a space behind them, and the column is announced further on in the same line of
the message. -/
def placeDigits? : List Char → Option (List Char × List Char)
  | [] => none
  | c :: rest =>
      (if c = ':' then
        match frontDigits? rest with
        | some (line, ' ' :: words) => (columnDigits? words).map (line, ·)
        | _ => none
      else none).or (placeDigits? rest)

def namedPlace (message : String) : Nat × Nat :=
  match placeDigits? message.toList with
  | none => (0, 0)
  | some (line, column) => (decimalNumber line, decimalNumber column)

def writtenDecimal (negative : Bool) (whole fraction : Option (List Char))
    (exponent : Option (Option Char × List Char)) : String :=
  String.ofList <|
    (if negative then ['-'] else []) ++ whole.getD [] ++
      (match fraction with
        | none => []
        | some digits => '.' :: digits) ++
      (match exponent with
        | none => []
        | some (sign, digits) => 'e' :: sign.toList ++ digits)

def Numeral.convert (negative : Bool) : Numeral → Except Error Value
  | .infinity => .ok (.double (.infinity negative))
  | .nan => .ok (.double .nan)
  | .hexadecimal digits =>
      let magnitude : Int := (hexNumber? digits).getD 0
      .ok (.integer (if negative then -magnitude else magnitude))
  | .decimal whole fraction exponent =>
      let literal : Decimal :=
        ⟨negative, whole.getD [], fraction, exponent.map fun (sign, digits) =>
          (sign = some '-', digits)⟩
      if literal.isInteger then
        if integerDigitLimit < literal.whole.length then
          .error (.integerTooLong literal.whole.length)
        else .ok (.integer literal.toInt)
      else if (literal.whole ++ fraction.getD []).isEmpty ||
          (match exponent with
            | some (_, []) => true
            | _ => false) then
        .error (.noNumber (writtenDecimal negative whole fraction exponent))
      else .ok (.double literal.toDouble)

mutual

def Tree.convert : Tree → Except Error Value
  | .null => .ok .null
  | .boolean value => .ok (.boolean value)
  | .string text => .ok (.string text)
  | .number negative numeral => numeral.convert negative
  | .array items => (convertItems items).map .array
  | .object members =>
      (convertMembers members).map fun members => .object (entriesOf members)

def convertItems : List Tree → Except Error (List Value)
  | [] => .ok []
  | first :: rest =>
      match first.convert with
      | .error error => .error error
      | .ok value => (convertItems rest).map (value :: ·)

def convertMembers : List (CodeText × Tree) →
    Except Error (List (CodeText × Value))
  | [] => .ok []
  | (key, first) :: rest =>
      match first.convert with
      | .error error => .error error
      | .ok value => (convertMembers rest).map ((key, value) :: ·)

end

def unexpectedAt (text : List Char) (offset : Nat) : Error :=
  .unexpected text[offset]? (Place.ofOffset text offset)

def parse (stack : Stack) (text : String) : Except Error Value :=
  if text.isEmpty then .error .empty
  else
    let attempt := document (stack.relaxedLevels text) text.toList
    match attempt.outcome with
    | .matched found => found.value.convert
    | .refused => .error (unexpectedAt text.toList attempt.reach)
    | .tooDeep => .error (.tooDeep (stack.relaxedOverflow text))

end FencedJson.Json.Relaxed
