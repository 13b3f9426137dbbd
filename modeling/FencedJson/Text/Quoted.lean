import FencedJson.Text.Printable

/-! # Quoted texts

Reports quote texts between marks, and write characters that cannot be seen by
their number.
-/

namespace FencedJson.Quoted

def hexDigits (width number : Nat) : List Char :=
  let digits := Nat.toDigits 16 number
  List.replicate (width - digits.length) '0' ++ digits

def char (mark c : Char) : List Char :=
  let n := c.toNat
  if c = mark ∨ c = '\\' then ['\\', c]
  else if c = '\n' then ['\\', 'n']
  else if c = '\r' then ['\\', 'r']
  else if c = '\t' then ['\\', 't']
  else if Category.isPrintable c then [c]
  else if n < 0x100 then '\\' :: 'x' :: hexDigits 2 n
  else if n < 0x10000 then '\\' :: 'u' :: hexDigits 4 n
  else '\\' :: 'U' :: hexDigits 8 n

def markFor (text : List Char) : Char :=
  if '\'' ∈ text ∧ '"' ∉ text then '"' else '\''

def text (text : List Char) : List Char :=
  let mark := markFor text
  mark :: text.flatMap (char mark) ++ [mark]

def ofString (value : String) : String := String.ofList (text value.toList)

example : ofString "it's" = "\"it's\"" := by decide +kernel

end FencedJson.Quoted
