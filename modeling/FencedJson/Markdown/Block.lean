import FencedJson.Markdown.Definition
import FencedJson.Markdown.Html
import FencedJson.Markdown.Line

/-! # Blocks

A document is a sequence of blocks, and so is what a block quote or a list item
holds. At each line the rules are tried in order, and the first one that applies
makes a block of that line and of some that follow.
-/

namespace FencedJson.Markdown

inductive Block where
  | paragraph (line : Nat) (text : List Char)
  | heading (line : Nat) (text : List Char)
  | rule (line : Nat)
  | html (line : Nat)
  | code (line : Nat) (lines : List (List Char))
  /-- A fenced code block, with what follows its opening fence on the line, and
  whether a closing fence ends it. -/
  | fence (line : Nat) (info : List Char) (lines : List (List Char))
      (closed : Bool)
  | quote (line : Nat) (children : List Block)
  | list (ordered : Bool) (line : Nat) (items : List Block)
  | item (line : Nat) (children : List Block)
  | definition (label : List Char)

structure Frame where
  indent : Nat
  /-- The column of the list around it, if there is one. -/
  listIndent : Option Nat

structure Parsed where
  blocks : List Block
  used : Nat

/-- What a rule made of a line and of `further` lines after it. -/
structure Step where
  block : Block
  further : Nat

namespace Frame

def top : Frame := ⟨0, none⟩

def isCode (frame : Frame) (line : Line) : Bool :=
  4 ≤ line.indent - frame.indent

def isOutside (frame : Frame) (line : Line) : Bool := line.indent < frame.indent

end Frame

/-! ## Lines that begin a block -/

def runLength (marker : Char) (text : List Char) : Nat :=
  (text.takeWhile (· = marker)).length

structure Opening where
  marker : Char
  length : Nat
  info : List Char

def Opening.ofBody? (body : List Char) : Option Opening :=
  match body with
  | [] => none
  | marker :: _ =>
      let length := runLength marker body
      let info := body.drop length
      if (marker = '`' ∨ marker = '~') ∧ 3 ≤ length ∧
        ¬(marker = '`' ∧ '`' ∈ info) then
        some ⟨marker, length, info⟩
      else none

def Opening.isClosedBy (opening : Opening) (body : List Char) : Bool :=
  let length := runLength opening.marker body
  opening.length ≤ length && (body.drop length).all isIndent

def isThematicBreak (body : List Char) : Bool :=
  match body with
  | [] => false
  | marker :: _ =>
      (marker = '*' || marker = '-' || marker = '_') &&
        (body.all fun c => c = marker || isIndent c) && 3 ≤ body.count marker

def headingText? (body : List Char) : Option (List Char) :=
  let level := runLength '#' body
  let rest := body.drop level
  let opens : Bool := match rest with
    | [] => true
    | c :: _ => isIndent c
  if 1 ≤ level ∧ level ≤ 6 ∧ opens then
    let text := (rest.reverse.dropWhile isIndent)
    let untagged := text.dropWhile (· = '#')
    let closed := match untagged with
      | c :: _ => isIndent c
      | [] => false
    some (trim (if closed then untagged else text).reverse)
  else none

def isUnderline (body : List Char) : Bool :=
  match body with
  | [] => false
  | marker :: _ =>
      (marker = '-' || marker = '=') &&
        (body.dropWhile (· = marker)).all isIndent

structure Marker where
  number : Option Nat
  /-- The last character, which all items of a list share. -/
  mark : Char
  width : Nat

namespace Marker

def isFollowed (rest : List Char) : Bool :=
  match rest with
  | [] => true
  | c :: _ => isIndent c

def ofBody? (body : List Char) : Option Marker :=
  let digits := body.takeWhile isDigit
  match digits with
  | [] =>
      match body with
      | [] => none
      | mark :: rest =>
          if (mark = '*' ∨ mark = '-' ∨ mark = '+') ∧ isFollowed rest then
            some ⟨none, mark, 1⟩
          else none
  | _ =>
      match body.drop digits.length with
      | [] => none
      | mark :: rest =>
          if digits.length ≤ 9 ∧ (mark = '.' ∨ mark = ')') ∧
            isFollowed rest then
            some ⟨some (decimalNumber digits), mark, digits.length + 1⟩
          else none

def sameList (first second : Marker) : Bool :=
  first.number.isSome == second.number.isSome && first.mark == second.mark

end Marker

inductive Interrupted where
  | paragraph
  | definition
  | quote
  | listItem
  deriving DecidableEq, Repr

/-- The marker with which a line begins a list, where it can. Below a paragraph
the item must not be empty and its number must be one. -/
def listMarker? (frame : Frame) (belowParagraph : Bool) (line : Line) :
    Option Marker :=
  let tooDeep := match frame.listIndent with
    | some listIndent => 4 ≤ line.indent - listIndent && frame.isOutside line
    | none => false
  if frame.isCode line || tooDeep then none
  else
    (Marker.ofBody? line.body).bind fun marker =>
      let restricted := belowParagraph && !frame.isOutside line
      let numbered := match marker.number with
        | some number => number ≠ 1
        | none => false
      if restricted && (numbered || (line.body.drop marker.width).all isIndent)
        then none
      else some marker

/-- Does the line begin a block of its own in spite of what goes on above it? -/
def interrupts (frame : Frame) (above : Interrupted) (line : Line) : Bool :=
  !frame.isCode line &&
    ((Opening.ofBody? line.body).isSome || line.body.head? == some '>' ||
      isThematicBreak line.body ||
      (above ≠ .listItem &&
        ((listMarker? frame (above = .paragraph) line).isSome ||
          (match Html.BlockKind.ofBody? line.body with
            | some kind => kind.interrupts
            | none => false) ||
          (headingText? line.body).isSome)))

def continues (frame : Frame) (above : Interrupted) (line : Line) : Bool :=
  !line.isBlank &&
    (frame.isCode line || line.indent < 0 || !interrupts frame above line)

/-! ## Blocks of lines alone -/

def codeExtent (frame : Frame) : List Line → Nat
  | [] => 0
  | line :: rest =>
      if line.isBlank then
        match codeExtent frame rest with
        | 0 => 0
        | further + 1 => further + 2
      else if frame.isCode line then codeExtent frame rest + 1
      else 0

def codeStep? (frame : Frame) (line : Line) (rest : List Line) : Option Step :=
  if frame.isCode line then
    let further := codeExtent frame rest
    some
      ⟨.code line.number
        ((line :: rest.take further).map (·.content (4 + frame.indent))),
        further⟩
  else none

def fenceExtent (frame : Frame) (opening : Opening) : List Line → Nat × Bool
  | [] => (0, false)
  | line :: rest =>
      if (!line.isBlank && frame.isOutside line) ||
        (line.isBlank && !line.ended) then
        (0, false)
      else if !line.isBlank && !frame.isCode line &&
        opening.isClosedBy line.body then
        (0, true)
      else
        let (inside, closed) := fenceExtent frame opening rest
        (inside + 1, closed)

def fenceStep? (frame : Frame) (line : Line) (rest : List Line) : Option Step :=
  if frame.isCode line then none
  else
    (Opening.ofBody? line.body).map fun opening =>
      let (inside, closed) := fenceExtent frame opening rest
      ⟨.fence line.number opening.info
          ((rest.take inside).map (·.content line.indent.toNat)) closed,
        if closed then inside + 1 else inside⟩

def ruleStep? (frame : Frame) (line : Line) (_ : List Line) : Option Step :=
  if !frame.isCode line && isThematicBreak line.body then some
    ⟨.rule line.number, 0⟩
  else none

def definitionStep? (frame : Frame) (line : Line) (rest : List Line) :
    Option Step :=
  if frame.isCode line then none
  else
    let text (line : Line) : List Char :=
      line.body ++ (if line.ended then ['\n'] else [])
    let lines := (rest.takeWhile (continues frame .definition)).map text
    (Definition.parse? (text line) lines).map fun (label, further) =>
      ⟨.definition label, further⟩

def htmlExtent (frame : Frame) (kind : Html.BlockKind) : List Line → Nat
  | [] => 0
  | line :: rest =>
      if !line.isBlank && frame.isOutside line then 0
      else if kind.ends line.body then (if line.isBlank then 0 else 1)
      else htmlExtent frame kind rest + 1

def htmlStep? (frame : Frame) (line : Line) (rest : List Line) : Option Step :=
  if frame.isCode line then none
  else
    (Html.BlockKind.ofBody? line.body).map fun kind =>
      ⟨.html line.number, if kind.ends line.body then 0 else htmlExtent
        frame kind rest⟩

def headingStep? (frame : Frame) (line : Line) (_ : List Line) : Option Step :=
  if frame.isCode line then none
  else (headingText? line.body).map fun text => ⟨.heading line.number text, 0⟩

def underlineExtent? (frame : Frame) : List Line → Option Nat
  | [] => none
  | line :: rest =>
      if line.isBlank then none
      else if frame.isCode line then (underlineExtent? frame rest).map (· + 1)
      else if !frame.isOutside line && isUnderline line.body then some 0
      else if line.indent < 0 || !interrupts frame .paragraph line then
        (underlineExtent? frame rest).map (· + 1)
      else none

def textOf (frame : Frame) (lines : List Line) : List Char :=
  trim (joinLines (lines.map (·.content frame.indent)))

def underlinedStep? (frame : Frame) (line : Line) (rest : List Line) :
    Option Step :=
  (underlineExtent? frame rest).map fun between =>
    ⟨.heading line.number (textOf frame (line :: rest.take between)),
      between + 1⟩

def paragraphStep (frame : Frame) (line : Line) (rest : List Line) : Step :=
  let others := rest.takeWhile (continues frame .paragraph)
  ⟨.paragraph line.number (textOf frame (line :: others)), others.length⟩

/-! ## Block quotes -/

/-- A line inside of a block quote, without the marker. A tab behind the marker
counts as one blank that belongs to it; what the tab takes beyond that stays. -/
def unquote (line : Line) : Line :=
  let column := line.indent.toNat + 1
  let rest := line.body.drop 1
  let (inner, begin, shift, spaced) := match rest with
    | ' ' :: inner => (inner, column + 1, 0, 1)
    | '\t' :: inner =>
        if (line.start + column) % 4 = 3 then (inner, column + 1, 0, 1)
        else (rest, column, 1, 1)
    | _ => (rest, column, 0, 0)
  let lead := inner.takeWhile isIndent
  { line with
    lead
    body := inner.dropWhile isIndent
    indent := (columnAfter (line.start + shift) begin lead : Nat) -
      (begin : Nat)
    start := column + spaced }

/-- The lines of a block quote without their markers. Unmarked lines go on with
a paragraph, unless the line before was blank or a block of its own begins. -/
def quoteLines (frame : Frame) (afterBlank : Bool) : List Line → List Line
  | [] => []
  | line :: rest =>
      if line.isBlank then []
      else if line.body.head? == some '>' && !frame.isOutside line then
        let inner := unquote line
        inner :: quoteLines frame inner.isBlank rest
      else if afterBlank || interrupts frame .quote line then []
      else { line with indent := -1 } :: quoteLines frame false rest

abbrev Nested := Frame → List Line → Parsed

def quoteStep? (nested : Nested) (frame : Frame) (line : Line)
    (rest : List Line) :
    Option Step :=
  if !frame.isCode line && line.body.head? == some '>' then
    let first := unquote line
    let inner := nested { frame with indent := 0 }
      (first :: quoteLines frame first.isBlank rest)
    some ⟨.quote line.number inner.blocks, inner.used - 1⟩
  else none

/-! ## Lists -/

/-- The first line of an item without its marker, and the column of the content.
The blanks behind the marker belong to it, unless they begin indented code. -/
def unmark (marker : Marker) (line : Line) : Line × Nat :=
  let column := line.indent.toNat + marker.width
  let rest := line.body.drop marker.width
  let gap := rest.takeWhile isIndent
  let body := rest.dropWhile isIndent
  let indent := columnAfter line.start column gap
  let width := if body.isEmpty ∨ 4 < indent - column then 1 else indent - column
  ({ line with
      lead := line.lead ++ line.body.take marker.width ++ gap, body,
      indent := indent },
    column + width)

/-- The blocks of an item. An item without content ends with a blank line, if
the container has one more line. -/
def itemContent (nested : Nested) (frame : Frame)
    (marker : Marker) (line : Line) (rest : List Line) : Parsed :=
  let (first, indent) := unmark marker line
  let emptyBelow := match rest with
    | [] => true
    | next :: _ => next.isBlank
  if first.isBlank && emptyBelow then ⟨[], min 2 (rest.length + 1)⟩
  else nested ⟨indent, some frame.indent⟩ (first :: rest)

/-- The items of a list from one whose first line is `line` on, and how many of
the following lines they take. -/
def listItems (nested : Nested) (frame : Frame) (marker : Marker) (line : Line)
    (rest : List Line) : List Block × Nat :=
  let content := itemContent nested frame marker line rest
  let further := content.used - 1
  let item := Block.item line.number content.blocks
  match left : rest.drop further with
  | [] => ([item], further)
  | next :: following =>
      if frame.isOutside next || frame.isCode next ||
        interrupts frame .listItem next then
        ([item], further)
      else
        match Marker.ofBody? next.body with
        | none => ([item], further)
        | some nextMarker =>
            if marker.sameList nextMarker then
              have : following.length < rest.length := by
                have := congrArg List.length left
                simp only [List.length_drop, List.length_cons] at this
                omega
              let (items, more) :=
                listItems nested frame nextMarker next following
              (item :: items, further + 1 + more)
            else ([item], further)
termination_by rest.length

def listStep? (nested : Nested) (frame : Frame) (line : Line)
    (rest : List Line) :
    Option Step :=
  (listMarker? frame false line).map fun marker =>
    let (items, further) := listItems nested frame marker line rest
    ⟨.list marker.number.isSome line.number items, further⟩

/-! ## Sequences of blocks -/

def step (quoteContent itemContent : Nested) (frame : Frame) (line : Line)
    (rest : List Line) : Step :=
  ([codeStep?, fenceStep?, quoteStep? quoteContent, ruleStep?,
    listStep? itemContent,
      definitionStep?, htmlStep?, headingStep?, underlinedStep?].findSome?
        fun rule =>
    rule frame line rest).getD (paragraphStep frame line rest)

def sequence (step : Frame → Line → List Line → Step) (frame : Frame)
    (lines : List Line) :
    Parsed :=
  let blank := (lines.takeWhile Line.isBlank).length
  match left : lines.dropWhile Line.isBlank with
  | [] => ⟨[], blank⟩
  | line :: rest =>
      if frame.isOutside line then ⟨[], blank⟩
      else
        let made := step frame line rest
        let others := sequence step frame (rest.drop made.further)
        ⟨made.block :: others.blocks, blank + 1 + made.further + others.used⟩
termination_by lines.length
decreasing_by
  have shorter := length_lt_of_dropWhile_eq_cons left
  simp only [List.length_drop]
  omega

def skipAll (frame : Frame) (lines : List Line) : Parsed :=
  match lines.dropWhile Line.isBlank with
  | [] => ⟨[], lines.length⟩
  | line :: _ =>
      if frame.isOutside line then ⟨[], (lines.takeWhile Line.isBlank).length⟩
      else ⟨[], lines.length⟩

/-- The blocks of a container with room for `depth` containers inside of it. A
list and its item count as two. -/
def blocksOf : (depth : Nat) → Nested
  | 0 => skipAll
  | depth + 1 =>
      sequence (step (blocksOf depth)
        (match depth with
          | 0 => skipAll
          | inner + 1 => blocksOf inner))

def nestingLimit : Nat := 20

/-- A text as its blocks see it: every line end is a line feed, and no character
is the null character. -/
def visibleText (text : List Char) : List Char :=
  (unifyNewlines text).map fun c => if c = '\x00' then '\ufffd' else c

def parseBlocks (text : List Char) : List Block :=
  (blocksOf nestingLimit Frame.top (documentLines (visibleText text))).blocks

end FencedJson.Markdown
