import FencedJson.Text.Digits
import FencedJson.Text.Reading
import FencedJson.Yaml.Lines
import FencedJson.Yaml.Problem

/-! # Quoted scalars -/

namespace FencedJson.Yaml

def simpleEscape? : Char → Option Char
  | '0' => some '\x00'
  | 'a' => some '\x07'
  | 'b' => some '\x08'
  | 't' => some '\t'
  | '\t' => some '\t'
  | 'n' => some '\n'
  | 'v' => some '\x0b'
  | 'f' => some '\x0c'
  | 'r' => some '\r'
  | 'e' => some '\x1b'
  | ' ' => some ' '
  | '"' => some '"'
  | '/' => some '/'
  | '\\' => some '\\'
  | 'N' => some '\x85'
  | '_' => some '\xa0'
  | 'L' => some '\u2028'
  | 'P' => some '\u2029'
  | _ => none

def codeLength? : Char → Option Nat
  | 'x' => some 2
  | 'u' => some 4
  | 'U' => some 8
  | _ => none

def characterOfCode (code : Nat) : Except Failure Char :=
  if 0x110000 ≤ code then .error (.codeTooLarge (0x80000000 ≤ code))
  else if code.isValidChar then .ok (Char.ofNat code)
  else .ok '\ufffd'

def codeEscape (length : Nat) (text : List Char) : Except Failure Char :=
  match hexNumber? (text.take length) with
  | none => .error (.problem .badEscape)
  | some code =>
      if text.length < length then .error
        (.problem .badEscape) else characterOfCode code

/-- A line break of a quoted scalar, with the blank lines and the blanks behind
it. An escaped break stands for nothing, and others are folded. -/
def lineBreak (escaped : Bool) (first : Char) (rest : List Char) :
    Except Failure (Reading (List Char) (first :: rest)) :=
  let found := interval isBlank 0 rest
  if found.separated then .error (.problem .separatorInQuotes)
  else .ok
    ⟨if escaped then found.breaks else folded (breakValue first) found.breaks,
      found.rest, Nat.lt_succ_of_le (length_rest_interval_le isBlank 0 rest)⟩

def escape (text : List Char) : Except Failure (Reading (List Char) text) :=
  match text with
  | [] => .error (.problem .badEscape)
  | c :: rest =>
      match simpleEscape? c, codeLength? c with
      | some value, _ => .ok (.ofHead [value] c rest)
      | none, some length =>
          (codeEscape length rest).map fun value =>
            ⟨[value], rest.drop length,
              Nat.lt_succ_of_le (List.drop_suffix length rest).length_le⟩
      | none, none =>
          if isBreak c then lineBreak true c rest else .error
            (.problem .badEscape)

def blanks (c : Char) (rest : List Char) :
    Except Failure (Reading (List Char) (c :: rest)) :=
  match found : rest.dropWhile isBlank with
  | [] => .error (.problem .unclosedQuote)
  | next :: after =>
      have within := length_dropWhile_le isBlank rest
      if isBreak next then
        (lineBreak false next after).map fun reading =>
          reading.widen (by
            rw [found] at within
            exact Nat.le_succ_of_le within)
      else
        .ok ⟨c :: rest.takeWhile isBlank, next :: after, by
          rw [found] at within
          exact Nat.lt_succ_of_le within⟩

/-- One part of a quoted scalar, or nothing where the closing mark stands.
Between double marks a backslash escapes, and between single ones the mark
itself is written twice. -/
def quotedPart (double : Bool) (text : List Char) :
    Except Failure (Option (Reading (List Char) text)) :=
  match text with
  | [] => .error (.problem .unclosedQuote)
  | '\'' :: '\'' :: rest =>
      .ok (some
        (if double then .ofHead ['\''] '\'' ('\'' :: rest)
        else .behind '\'' (.ofHead ['\''] '\'' rest)))
  | c :: rest =>
      if c = (if double then '"' else '\'') then .ok none
      else if double && c = '\\' then
        (escape rest).map fun reading => some (reading.behind c)
      else if isBlank c then (blanks c rest).map some
      else if isBreak c then (lineBreak false c rest).map some
      else .ok (some (.ofHead [c] c rest))

def quotedBody (double : Bool) (text : List Char) :
    Except Failure (Reading (List Char) text) :=
  match quotedPart double text with
  | .error failure => .error failure
  | .ok none =>
      match text with
      | [] => .error (.problem .unclosedQuote)
      | mark :: rest => .ok (.ofHead [] mark rest)
  | .ok (some part) =>
      have := part.shorter
      (quotedBody double part.rest).map fun reading =>
        (reading.map (part.value ++ ·)).widen (Nat.le_of_lt part.shorter)
termination_by text.length

end FencedJson.Yaml
