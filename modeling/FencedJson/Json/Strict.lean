import FencedJson.Json.Constant
import FencedJson.Json.Value
import FencedJson.Stack
import FencedJson.Text.Place

/-! # Strict JSON

The reader of JSON texts as RFC 8259 defines them. A refusal names the place at
which no JSON text can go on. `parse` is the entry point; the readers before it
each read one construct from the front of a text.
-/

namespace FencedJson.Json.Strict

inductive Fault where
  | byteOrderMark
  | valueExpected
  | nameExpected
  | colonExpected
  | commaExpected
  | extraData
  | unterminatedString
  | controlCharacter
  | unknownEscape
  | badCodeEscape
  | constant (name : String)
  deriving DecidableEq, Repr

def Fault.message : Fault → String
  | .byteOrderMark => "Unexpected UTF-8 BOM (decode using utf-8-sig)"
  | .valueExpected => "Expecting value"
  | .nameExpected => "Expecting property name enclosed in double quotes"
  | .colonExpected => "Expecting ':' delimiter"
  | .commaExpected => "Expecting ',' delimiter"
  | .extraData => "Extra data"
  | .unterminatedString => "Unterminated string starting at"
  | .controlCharacter => "Invalid control character at"
  | .unknownEscape => "Invalid \\escape"
  | .badCodeEscape => "Invalid \\uXXXX escape"
  | .constant name => s!"Unexpected token {name}"

/-- Why a reader gave up. A fault is located by the end of the text that begins
where it was found. -/
inductive Failure where
  | fault (fault : Fault) (following : List Char)
  | constant (constant : Constant)
  | integerTooLong (digits : Nat)
  | tooDeep (overflow : Overflow)

namespace Failure

/-- The calls, one inside the other, that it takes to tell of a failure where it
was met. Some are told of further out, where there is room. -/
def calls : Failure → List Overflow
  | fault .valueExpected _ | fault .extraData _ | fault .byteOrderMark _ => []
  | fault _ _ => [.object, .function, .object]
  | constant _ => [.function, .function, .object, .function, .object]
  | integerTooLong _ | tooDeep _ => []

def told (depth : Nat) (failure : Failure) : Failure :=
  match failure.calls[depth]? with
  | some overflow => .tooDeep overflow
  | none => failure

end Failure

abbrev Reader (α : Type) := (text : List Char) → Except Failure (Reading α text)

def telling {α : Type} {text : List Char} (depth : Nat)
    (result : Except Failure (Reading α text)) :
    Except Failure (Reading α text) :=
  result.mapError (Failure.told depth)

def isBlank (c : Char) : Bool := c = ' ' || c = '\t' || c = '\n' || c = '\r'

def skipBlank (text : List Char) : List Char := text.dropWhile isBlank

theorem length_skipBlank_le (text : List Char) :
    (skipBlank text).length ≤ text.length :=
  length_dropWhile_le isBlank text

theorem length_lt_of_skipBlank {text rest : List Char} {head : Char}
    (found : skipBlank text = head :: rest) : rest.length < text.length :=
  length_lt_of_dropWhile_eq_cons found

/-! ## Strings -/

def simpleEscape? : Char → Option Char
  | '"' => some '"'
  | '\\' => some '\\'
  | '/' => some '/'
  | 'b' => some '\x08'
  | 'f' => some '\x0c'
  | 'n' => some '\n'
  | 'r' => some '\r'
  | 't' => some '\t'
  | _ => none

def codeOf? (a b c d : Char) : Option CodePoint :=
  (hexNumber? [a, b, c, d]).map CodePoint.ofNat

/-- The rest of a string after its opening quotation mark, up to and including
the closing one. `opening` is the text from the opening mark on. An escape by
code is read only when more characters follow it, and a high surrogate joins
with a low one written right behind it. -/
def stringBody (opening : List Char) :
    (text : List Char) → Except Failure (Reading CodeText text)
  | [] => .error (.fault .unterminatedString opening)
  | '"' :: rest => .ok ⟨[], rest, by simp⟩
  | ['\\'] => .error (.fault .unterminatedString opening)
  | '\\' :: 'u' :: a :: b :: c :: d :: '\\' :: 'u' :: e :: f :: g :: h ::
      next :: rest =>
      match codeOf? a b c d with
      | none => .error (.fault .badCodeEscape
          ('u' :: a :: b :: c :: d :: '\\' :: 'u' :: e :: f :: g :: h ::
            next :: rest))
      | some code =>
          if code.isHighSurrogate then
            match codeOf? e f g h with
            | none =>
                .error
                  (.fault .badCodeEscape
                    ('u' :: e :: f :: g :: h :: next :: rest))
            | some second =>
                if second.isLowSurrogate then
                  (stringBody opening (next :: rest)).map fun tail =>
                    (tail.map (CodePoint.join code second :: ·)).widen
                      (by simp +arith)
                else
                  (stringBody opening
                      ('\\' :: 'u' :: e :: f :: g :: h :: next :: rest)).map
                        fun tail =>
                    (tail.map (code :: ·)).widen (by simp)
          else
            (stringBody opening
                ('\\' :: 'u' :: e :: f :: g :: h :: next :: rest)).map
                  fun tail =>
              (tail.map (code :: ·)).widen (by simp)
  | '\\' :: 'u' :: a :: b :: c :: d :: next :: rest =>
      match codeOf? a b c d with
      | none =>
          .error
            (.fault .badCodeEscape ('u' :: a :: b :: c :: d :: next :: rest))
      | some code =>
          (stringBody opening (next :: rest)).map fun tail =>
            (tail.map (code :: ·)).widen (by simp +arith)
  | '\\' :: 'u' :: rest => .error (.fault .badCodeEscape ('u' :: rest))
  | '\\' :: escaped :: rest =>
      match simpleEscape? escaped with
      | none => .error (.fault .unknownEscape ('\\' :: escaped :: rest))
      | some c =>
          (stringBody opening rest).map fun tail =>
            (tail.map (CodePoint.ofChar c :: ·)).widen (by simp +arith)
  | c :: rest =>
      if c.toNat ≤ 0x1f then .error (.fault .controlCharacter (c :: rest))
      else
        (stringBody opening rest).map fun tail =>
          (tail.map (CodePoint.ofChar c :: ·)).widen (by simp)

/-! ## Numbers -/

def fraction (text : List Char) : Option (List Char) × List Char :=
  match text with
  | '.' :: digit :: rest =>
      if isDigit digit then
        (some (digit :: rest.takeWhile isDigit), rest.dropWhile isDigit)
      else (none, text)
  | _ => (none, text)

def minusSign (text : List Char) : Bool × List Char :=
  match text with
  | '-' :: rest => (true, rest)
  | _ => (false, text)

def exponentSign (text : List Char) : Bool × List Char :=
  match text with
  | '+' :: rest => (false, rest)
  | _ => minusSign text

/-- The exponent at the front of a text: the letter, maybe a sign, and at least
one digit. -/
def exponent (text : List Char) : Option (Bool × List Char) × List Char :=
  match text with
  | letter :: rest =>
      if letter = 'e' ∨ letter = 'E' then
        match (exponentSign rest).2.takeWhile isDigit with
        | [] => (none, text)
        | digits =>
            (some ((exponentSign rest).1, digits),
              (exponentSign rest).2.dropWhile isDigit)
      else (none, text)
  | [] => (none, text)

def wholePart? (text : List Char) : Option (List Char × List Char) :=
  match text with
  | '0' :: rest => some (['0'], rest)
  | digit :: rest =>
      if isDigit digit then
        some (digit :: rest.takeWhile isDigit, rest.dropWhile isDigit)
      else none
  | [] => none

def literal? (text : List Char) : Option (Decimal × List Char) :=
  (wholePart? (minusSign text).2).map fun (whole, afterWhole) =>
    let (fraction, afterFraction) := fraction afterWhole
    let (exponent, rest) := exponent afterFraction
    (⟨(minusSign text).1, whole, fraction, exponent⟩, rest)

theorem length_minusSign_le (text : List Char) :
    (minusSign text).2.length ≤ text.length := by
  unfold minusSign
  split <;> simp

theorem length_exponentSign_le (text : List Char) :
    (exponentSign text).2.length ≤ text.length := by
  unfold exponentSign
  split
  · simp
  · exact length_minusSign_le text

theorem length_fraction_le (text : List Char) :
    (fraction text).2.length ≤ text.length := by
  unfold fraction
  split
  · next digit rest =>
      have := length_dropWhile_le isDigit rest
      split <;> simp
      omega
  · simp

theorem length_exponent_le (text : List Char) :
    (exponent text).2.length ≤ text.length := by
  unfold exponent
  split
  · next letter rest =>
      have dropBound := length_dropWhile_le isDigit (exponentSign rest).2
      have signBound := length_exponentSign_le rest
      split
      · split
        · simp
        · simp only [List.length_cons]
          omega
      · simp
  · simp

theorem length_wholePart?_lt {text whole rest : List Char}
    (found : wholePart? text = some (whole, rest)) :
    rest.length < text.length := by
  unfold wholePart? at found
  split at found
  · simp_all
  · next digit tail _ =>
      have bound := length_dropWhile_le isDigit tail
      split at found
      · cases found
        exact Nat.lt_succ_of_le bound
      · cases found
  · simp at found

theorem length_literal?_lt {text rest : List Char} {literal : Decimal}
    (found : literal? text = some (literal, rest)) :
    rest.length < text.length := by
  unfold literal? at found
  obtain ⟨⟨whole, afterWhole⟩, wholeFound, found⟩ :=
    Option.map_eq_some_iff.1 found
  have wholeBound := length_wholePart?_lt wholeFound
  have signBound := length_minusSign_le text
  have fractionBound := length_fraction_le afterWhole
  have exponentBound := length_exponent_le (fraction afterWhole).2
  simp only [Prod.mk.injEq] at found
  rw [← found.2]
  omega

/-- The number at the front of a text. An integer is converted at once, so that
one with too many digits ends the reading. -/
def number : Reader Value := fun text =>
  match found : literal? text with
  | none => .error (.fault .valueExpected text)
  | some (literal, rest) =>
      if literal.isInteger then
        if integerDigitLimit < literal.whole.length then
          .error (.integerTooLong literal.whole.length)
        else .ok ⟨.integer literal.toInt, rest, length_literal?_lt found⟩
      else .ok ⟨.double literal.toDouble, rest, length_literal?_lt found⟩

/-! ## Arrays, objects and values -/

/-- Items separated by commas, up to and including the closing character. The
text begins with the first item. -/
def itemsUntil {α : Type} (close : Char) (item : Reader α) :
    Reader (List α) := fun text =>
  match item text with
  | .error failure => .error failure
  | .ok first =>
      match found : skipBlank first.rest with
      | [] => .error (.fault .commaExpected [])
      | head :: rest =>
          have shorter : rest.length < text.length :=
            Nat.lt_trans (length_lt_of_skipBlank found) first.shorter
          if head = close then .ok ⟨[first.value], rest, shorter⟩
          else if head = ',' then
            have blankBound := length_skipBlank_le rest
            (itemsUntil close item (skipBlank rest)).map fun others =>
              (others.map (first.value :: ·)).widen
                (Nat.le_trans blankBound (Nat.le_of_lt shorter))
          else .error (.fault .commaExpected (head :: rest))
termination_by text => text.length

def bracketed {α : Type} (close : Char) (item : Reader α) :
    Reader (List α) := fun text =>
  match found : skipBlank text with
  | [] => (item []).map fun reading => absurd reading.shorter (by simp)
  | head :: rest =>
      if head = close then .ok ⟨[], rest, length_lt_of_skipBlank found⟩
      else
        (itemsUntil close item (head :: rest)).map fun items =>
          items.widen (by rw [← found]; exact length_skipBlank_le text)

def member (value : Reader Value) : Reader (CodeText × Value)
  | '"' :: text =>
      match stringBody ('"' :: text) text with
      | .error failure => .error failure
      | .ok name =>
          match found : skipBlank name.rest with
          | ':' :: rest =>
              have restBound := length_lt_of_skipBlank found
              have nameBound := name.shorter
              have blankBound := length_skipBlank_le rest
              (value (skipBlank rest)).map fun reading =>
                (reading.map (name.value, ·)).widen (by simp; omega)
          | following => .error (.fault .colonExpected following)
  | text => .error (.fault .nameExpected text)

/-- A value with at most `depth` brackets open at a time. Inside of a bracket
one call less is left to tell of a failure. -/
def value (depth : Nat) : Reader Value
  | '"' :: rest =>
      telling depth <| (stringBody ('"' :: rest) rest).map fun reading =>
        (reading.map Value.string).widen (by simp)
  | '[' :: rest =>
      match depth with
      | 0 => .error (.tooDeep .array)
      | depth + 1 =>
          telling depth <| (bracketed ']' (value depth) rest).map fun reading =>
            (reading.map Value.array).widen (by simp)
  | '\x7b' :: rest =>
      match depth with
      | 0 => .error (.tooDeep .mapping)
      | depth + 1 =>
          telling depth <| (bracketed '\x7d' (member (value depth)) rest).map
            fun reading =>
            (reading.map fun members => Value.object (entriesOf members)).widen
              (by simp)
  | 'n' :: 'u' :: 'l' :: 'l' :: rest => .ok ⟨.null, rest, by simp; omega⟩
  | 't' :: 'r' :: 'u' :: 'e' :: rest =>
      .ok ⟨.boolean true, rest, by simp; omega⟩
  | 'f' :: 'a' :: 'l' :: 's' :: 'e' :: rest =>
      .ok ⟨.boolean false, rest, by simp; omega⟩
  | text =>
      match Constant.atFront? text with
      | some (constant, _) => telling depth (.error (.constant constant))
      | none => number text

/-! ## Whole texts -/

inductive Error where
  | fault (fault : Fault) (place : Place)
  | integerTooLong (digits : Nat)
  | tooDeep (overflow : Overflow)
  deriving DecidableEq, Repr

def Error.message : Error → String
  | .fault reason place => reason.message ++ place.suffix
  | .integerTooLong digits => integerDigitMessage digits
  | .tooDeep overflow => overflow.message

def refuseConstant (name : String) (text : List Char) : Error :=
  .fault (.constant name) (Place.ofOffset text (Constant.reportedOffset text))

def Failure.toError (text : List Char) : Failure → Error
  | .fault reason following =>
      .fault reason (Place.ofOffset text (text.length - following.length))
  | .constant word => refuseConstant word.word text
  | .integerTooLong digits => .integerTooLong digits
  | .tooDeep overflow => .tooDeep overflow

def document (depth : Nat) (text : List Char) : Except Failure Value :=
  match text with
  | '\ufeff' :: _ => .error (.fault .byteOrderMark text)
  | _ =>
      match value depth (skipBlank text) with
      | .error failure => .error failure
      | .ok reading =>
          match skipBlank reading.rest with
          | [] => .ok reading.value
          | following => .error (.fault .extraData following)

def parse (stack : Stack) (text : String) : Except Error Value :=
  (document stack.strictLevels text.toList).mapError
    (Failure.toError text.toList)

end FencedJson.Json.Strict
