import FencedJson.Json.Strict
import FencedJson.Proofs.Entries

/-! # The grammar of JSON

The grammar of RFC 8259. A phrase is what a text says: its brackets, strings and
numerals, without the blanks between them. A phrase spells many texts, which
differ in blanks and in how exponents are written, and denotes one value.
-/

namespace FencedJson.Json

open Strict (isBlank)

/-! ## Strings -/

inductive Escape where
  | quotationMark
  | reverseSolidus
  | solidus
  | backspace
  | formFeed
  | lineFeed
  | carriageReturn
  | tab
  deriving DecidableEq, Repr

namespace Escape

def letter : Escape → Char
  | quotationMark => '"'
  | reverseSolidus => '\\'
  | solidus => '/'
  | backspace => 'b'
  | formFeed => 'f'
  | lineFeed => 'n'
  | carriageReturn => 'r'
  | tab => 't'

def meaning : Escape → Char
  | quotationMark => '\x22'
  | reverseSolidus => '\x5c'
  | solidus => '\x2f'
  | backspace => '\x08'
  | formFeed => '\x0c'
  | lineFeed => '\x0a'
  | carriageReturn => '\x0d'
  | tab => '\x09'

end Escape

abbrev HexDigit := { c : Char // (hexValue? c).isSome }

def HexDigit.value (digit : HexDigit) : Nat :=
  (hexValue? digit.val).get digit.property

def IsUnescaped (c : Char) : Prop := 0x20 ≤ c.toNat ∧ c ≠ '"' ∧ c ≠ '\\'

inductive StringPart where
  | plain (c : Char) (unescaped : IsUnescaped c)
  | escape (kind : Escape)
  | code (a b c d : HexDigit)

namespace StringPart

def text : StringPart → List Char
  | plain c _ => [c]
  | escape kind => ['\\', kind.letter]
  | code a b c d => ['\\', 'u', a.val, b.val, c.val, d.val]

def point : StringPart → CodePoint
  | plain c _ => .ofChar c
  | escape kind => .ofChar kind.meaning
  | code a b c d => .ofNat (numberOf 16 [a.value, b.value, c.value, d.value])

end StringPart

def joinPairs : List CodePoint → CodeText
  | first :: second :: rest =>
      if first.isHighSurrogate ∧ second.isLowSurrogate then
        CodePoint.join first second :: joinPairs rest
      else first :: joinPairs (second :: rest)
  | short => short

def spelled (parts : List StringPart) : List Char :=
  parts.flatMap StringPart.text

def decoded (parts : List StringPart) : CodeText :=
  joinPairs (parts.map StringPart.point)

def quoted (parts : List StringPart) : List Char :=
  '"' :: (spelled parts ++ ['"'])

/-! ## Numbers -/

def IsDigits (digits : List Char) : Prop :=
  digits ≠ [] ∧ ∀ c ∈ digits, isDigit c

namespace Decimal

/-- The parts of a decimal literal have digits, and no zero leads the whole
part. -/
structure IsWellFormed (literal : Decimal) : Prop where
  whole : literal.whole = ['0'] ∨ IsDigits literal.whole ∧
      literal.whole.head? ≠ some '0'
  fraction : ∀ digits ∈ literal.fraction, IsDigits digits
  exponent : ∀ exponent ∈ literal.exponent, IsDigits exponent.2

def signText (negative : Bool) : List Char := if negative then ['-'] else []

def fractionText : Option (List Char) → List Char
  | none => []
  | some digits => '.' :: digits

def SpellsExponent : Option (Bool × List Char) → List Char → Prop
  | none, text => text = []
  | some (negative, digits),
      text => ∃ letter sign, (letter = 'e' ∨ letter = 'E') ∧
      (sign = signText negative ∨ negative = false ∧ sign = ['+']) ∧
      text = letter :: (sign ++ digits)

def Spells (literal : Decimal) (text : List Char) : Prop :=
  literal.IsWellFormed ∧ ∃ exponentText, SpellsExponent literal.exponent
    exponentText ∧ text = signText literal.negative ++
      (literal.whole ++ (fractionText literal.fraction ++ exponentText))

def value (literal : Decimal) : Value :=
  if literal.isInteger then .integer literal.toInt else .double literal.toDouble

end Decimal

/-! ## Phrases -/

inductive Phrase where
  | null
  | boolean (value : Bool)
  | number (literal : Decimal)
  | string (parts : List StringPart)
  | array (items : List Phrase)
  | object (members : List (List StringPart × Phrase))

def IsGap (text : List Char) : Prop := ∀ c ∈ text, isBlank c

def IsPadded (spells : List Char → Prop) (text : List Char) : Prop :=
  ∃ before inner after, IsGap before ∧ spells inner ∧ IsGap after ∧
    text = before ++ (inner ++ after)

def IsMember (name : List StringPart) (spells : List Char → Prop)
    (text : List Char) : Prop :=
  ∃ before inner after, IsGap before ∧ IsGap after ∧ spells inner ∧
    text = quoted name ++ (before ++ ':' :: (after ++ inner))

mutual

def Phrase.Spells : Phrase → List Char → Prop
  | .null, text => text = ['n', 'u', 'l', 'l']
  | .boolean true, text => text = ['t', 'r', 'u', 'e']
  | .boolean false, text => text = ['f', 'a', 'l', 's', 'e']
  | .number literal, text => literal.Spells text
  | .string parts, text => text = quoted parts
  | .array items,
      text => ∃ body, SpellItems items body ∧ text = '[' :: (body ++ [']'])
  | .object members, text =>
      ∃ body, SpellMembers members body ∧ text = '\x7b' :: (body ++ ['\x7d'])

def SpellItems : List Phrase → List Char → Prop
  | [], body => IsGap body
  | [item], body => IsPadded item.Spells body
  | item :: next :: rest, body => ∃ front back, IsPadded item.Spells front ∧
      SpellItems (next :: rest) back ∧ body = front ++ ',' :: back

def SpellMembers : List (List StringPart × Phrase) → List Char → Prop
  | [], body => IsGap body
  | [(name, item)], body => IsPadded (IsMember name item.Spells) body
  | (name, item) :: next :: rest, body => ∃ front back,
      IsPadded (IsMember name item.Spells) front ∧
      SpellMembers (next :: rest) back ∧ body = front ++ ',' :: back

end

mutual

def Phrase.value : Phrase → Value
  | .null => .null
  | .boolean value => .boolean value
  | .number literal => literal.value
  | .string parts => .string (decoded parts)
  | .array items => .array (itemValues items)
  | .object members => .object (lastEntries (memberValues members))

def itemValues : List Phrase → List Value
  | [] => []
  | item :: rest => item.value :: itemValues rest

def memberValues : List (List StringPart × Phrase) → List (CodeText × Value)
  | [] => []
  | (name, item) :: rest => (decoded name, item.value) :: memberValues rest

end

mutual

def Phrase.nesting : Phrase → Nat
  | .array items => itemNesting items + 1
  | .object members => memberNesting members + 1
  | _ => 0

def itemNesting : List Phrase → Nat
  | [] => 0
  | item :: rest => max item.nesting (itemNesting rest)

def memberNesting : List (List StringPart × Phrase) → Nat
  | [] => 0
  | (_, item) :: rest => max item.nesting (memberNesting rest)

end

mutual

def Phrase.literals : Phrase → List Decimal
  | .number literal => [literal]
  | .array items => itemLiterals items
  | .object members => memberLiterals members
  | _ => []

def itemLiterals : List Phrase → List Decimal
  | [] => []
  | item :: rest => item.literals ++ itemLiterals rest

def memberLiterals : List (List StringPart × Phrase) → List Decimal
  | [] => []
  | (_, item) :: rest => item.literals ++ memberLiterals rest

end

def StringPart.isSurrogate (part : StringPart) : Bool :=
  part.point.isHighSurrogate || part.point.isLowSurrogate

mutual

def Phrase.strings : Phrase → List (List StringPart)
  | .string parts => [parts]
  | .array items => itemStrings items
  | .object members => memberStrings members
  | _ => []

def itemStrings : List Phrase → List (List StringPart)
  | [] => []
  | item :: rest => item.strings ++ itemStrings rest

def memberStrings : List (List StringPart × Phrase) → List (List StringPart)
  | [] => []
  | (name, item) :: rest => name :: item.strings ++ memberStrings rest

end

def Phrase.IsWhole (phrase : Phrase) : Prop :=
  ∀ parts ∈ phrase.strings, ∀ part ∈ parts, part.isSurrogate = false

def Phrase.IsTextOf (phrase : Phrase) (text : String) : Prop :=
  IsPadded phrase.Spells text.toList

end FencedJson.Json
