import FencedJson.Text.Digits
import FencedJson.Text.Reading
import FencedJson.Yaml.Lines
import FencedJson.Yaml.Problem

/-! # Block scalars

The lines of a block scalar are those that are indented as far as its first
line.
-/

namespace FencedJson.Yaml

/-- What becomes of the line breaks at the end of a block scalar. -/
inductive Chomping where
  | strip
  | clip
  | keep
  deriving DecidableEq, Repr

structure BlockHeader where
  chomping : Chomping
  /-- How far the text is indented beyond its parent, if this is given. -/
  increment : Option Nat

def chomping? : Char → Option Chomping
  | '+' => some .keep
  | '-' => some .strip
  | _ => none

def increment? (c : Char) : Option Nat :=
  if isDigit c then some (digitValue c) else none

def blockIndicators (text : List Char) : BlockHeader × List Char :=
  match text with
  | [] => (⟨.clip, none⟩, [])
  | c :: rest =>
      match chomping? c, increment? c with
      | some chomping, _ =>
          match rest.head?.bind increment? with
          | some increment => (⟨chomping, some increment⟩, rest.tail)
          | none => (⟨chomping, none⟩, rest)
      | none, some increment =>
          match rest.head?.bind chomping? with
          | some chomping => (⟨chomping, some increment⟩, rest.tail)
          | none => (⟨.clip, some increment⟩, rest)
      | none, none => (⟨.clip, none⟩, c :: rest)

def afterComment? (text : List Char) : Option (List Char) :=
  let text := text.dropWhile (· = ' ')
  let text := if text.head? = some '#' then text.dropWhile fun c =>
      !isFeed c else text
  match text with
  | [] => some []
  | c :: rest => if isBreak c then some rest else none

def blockHeader (text : List Char) : Except Problem (BlockHeader × List Char) :=
  let (header, rest) := blockIndicators text
  if header.increment = some 0 || !endsWord rest.head? then .error .badHeader
  else
    match afterComment? rest with
    | some rest => .ok (header, rest)
    | none => .error .badHeader

/-- The blank lines in front of the first line of a block scalar. -/
structure Opening where
  breaks : List Char
  column : Nat
  rest : List Char
  first : Option Nat
  /-- The width of the widest line so far, the first line's indentation
  included. -/
  widest : Nat

def opening (first : Option Nat) (widest column : Nat) : List Char → Opening
  | [] => ⟨[], column, [], first, widest⟩
  | c :: rest =>
      if c = ' ' then opening first (max widest (column + 1)) (column + 1) rest
      else if isBreak c then
        let found := opening (first.or (some column)) widest 0 rest
        { found with breaks := breakValue c :: found.breaks }
      else ⟨[], column, c :: rest, first, widest⟩

def Opening.isUneven (opening : Opening) : Bool :=
  match opening.first with
  | some width => 0 < width && width < opening.widest
  | none => false

structure BlankLines where
  breaks : List Char
  column : Nat
  rest : List Char

def blankLines (limit column : Nat) : List Char → BlankLines
  | [] => ⟨[], column, []⟩
  | c :: rest =>
      if c = ' ' ∧ column < limit then blankLines limit (column + 1) rest
      else if isBreak c then
        let found := blankLines limit 0 rest
        { found with breaks := breakValue c :: found.breaks }
      else ⟨[], column, c :: rest⟩

theorem length_rest_blankLines_le (limit column : Nat) (text : List Char) :
    (blankLines limit column text).rest.length ≤ text.length := by
  fun_induction blankLines <;> grind

structure BlockStyle where
  /-- A single line break between two lines of text is read as a space. -/
  folded : Bool
  indent : Nat
  separable : Bool

structure BlockText where
  value : List Char
  final : List Char
  trailing : List Char
  rest : List Char

/-- What a line break between two lines of text is read as. Lines that begin
with a blank keep the breaks around them. -/
def BlockStyle.joined (style : BlockStyle) (line : List Char)
    (found : BlankLines) (lineBreak : Char) : List Char :=
  let indented (text : List Char) : Bool := (text.head?.map isBlank).getD true
  if style.folded && lineBreak = '\n' && !indented line &&
    !indented found.rest then
    if found.breaks.isEmpty then [' '] else []
  else [lineBreak]

def blockLines (style : BlockStyle) (before : BlankLines) : BlockText :=
  if before.column ≠ style.indent ∨
    before.rest = [] then ⟨[], [], before.breaks, before.rest⟩
  else
    let line := before.rest.takeWhile fun c => !isFeed c
    match found : before.rest.dropWhile fun c => !isFeed c with
    | [] => ⟨before.breaks ++ line, [], [], []⟩
    | c :: rest =>
        let after := blankLines style.indent 0 rest
        have : after.rest.length < before.rest.length :=
          Nat.lt_of_le_of_lt (length_rest_blankLines_le style.indent 0 rest)
            (length_lt_of_dropWhile_eq_cons found)
        let value := before.breaks ++ line
        if (style.separable && after.column = 0 && isSeparator after.rest) ||
            after.column ≠ style.indent || after.rest.isEmpty then
          ⟨value, [breakValue c], after.breaks, after.rest⟩
        else
          let further := blockLines style after
          let joined := style.joined line after (breakValue c)
          { further with value := value ++ joined ++ further.value }
termination_by before.rest.length

def BlockText.chomped (text : BlockText) : Chomping → List Char
  | .strip => text.value
  | .clip => text.value ++ text.final
  | .keep => text.value ++ text.final ++ text.trailing

/-- The block scalar behind its mark, with a parent whose content is indented by
`least`, and the text after it. -/
def blockScalar (folded : Bool) (least : Nat) (text : List Char) :
    Except Failure (List Char × List Char) :=
  match blockHeader text with
  | .error problem => .error (.problem problem)
  | .ok (header, rest) =>
      match header.increment with
      | some increment =>
          let indent := max least 1 + increment - 1
          let read := blockLines ⟨folded, indent, false⟩
              (blankLines indent 0 rest)
          .ok (read.chomped header.chomping, read.rest)
      | none =>
          let start := opening none 0 0 rest
          if start.isUneven then .error (.problem .badIndentation)
          else
            let read := blockLines ⟨folded, max least start.widest, least = 0⟩
              ⟨start.breaks, start.column, start.rest⟩
            .ok (read.chomped header.chomping, read.rest)

end FencedJson.Yaml
