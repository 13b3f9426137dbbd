import FencedJson.Markdown.Delimiter
import FencedJson.Markdown.Html
import FencedJson.Markdown.Link
import Std.Data.HashMap

/-! # The inside of a paragraph

The text of a paragraph or heading is cut into pieces from left to right. A link
holds pieces of its own. Afterwards the delimiters among the pieces are paired,
and the pieces become a tree.

How far a construct reaches from a place is remembered, since brackets are
looked at again and again. A memory that was made deep inside of brackets is
used elsewhere too.
-/

namespace FencedJson.Markdown

inductive Inline where
  | text
  | softBreak
  | hardBreak
  | code
  | html
  | emphasis (children : List Inline)
  | strong (children : List Inline)
  | link (children : List Inline)
  | image (children : List Inline)

inductive Piece where
  | text
  | delimiter (marker : Char) (runLength : Nat) (opens closes : Bool)
  | softBreak
  | hardBreak
  | code
  | html
  | link (children : List Piece)
  | image (description : List Char)

namespace Inline

def nestingLimit : Nat := 20

/-! ## The text and what is remembered of it -/

structure Source where
  chars : Array Char
  /-- Is a link label, in its normal form, defined somewhere? -/
  isDefined : List Char → Bool
  hasDefinitions : Bool

namespace Source

def char? (source : Source) (place : Nat) : Option Char := source.chars[place]?

def is (source : Source) (place : Nat) (c : Char) : Bool :=
  source.char? place == some c

def slice (source : Source) (first last : Nat) : List Char :=
  (source.chars.extract first last).toList

def skipWhile (source : Source) (test : Char → Bool)
    (place limit : Nat) : Nat :=
  if place < limit then
    match source.char? place with
    | some c =>
        if test c then skipWhile source test (place + 1) limit else place
    | none => place
  else place
termination_by limit - place

end Source

structure Memory where
  /-- How many characters beyond its first a construct takes, by place. -/
  extents : Std.HashMap Nat Nat
  /-- The last place at which a run of so many backticks was seen. -/
  tickRuns : List (Nat × Nat)
  ticksSeen : Bool

def Memory.empty : Memory := ⟨∅, [], false⟩

inductive Found where
  | text
  | lineBreak
  | hardBreak
  | escaped
  | code
  | literalTicks
  | delimiters (marker : Char) (count : Nat) (opens closes : Bool)
  | link (first last : Nat)
  | image (first last : Nat)
  | address
  | html

abbrev Sighting := Found × Nat

abbrev Remembering := StateM Memory

/-! ## Constructs that need no look inside -/

def isSpecial (c : Char) : Bool :=
  c = '\n' || c = '!' || c = '&' || c = '*' || c = '<' || c = '[' || c = '\\' ||
    c = ']' || c = '_' || c = '`' || c = '#' || c = '$' || c = '%' || c = '+' ||
    c = '-' || c = ':' || c = '=' || c = '>' || c = '@' ||
      c = '^' || c = '\x7b' ||
    c = '\x7d' || c = '~'

def escape? (source : Source) (place limit : Nat) : Option Sighting :=
  if place + 1 < limit then
    if source.is (place + 1) '\n' then
      some (.hardBreak, source.skipWhile isInlineBlank (place + 2) limit)
    else some (.escaped, place + 2)
  else none

/-- Look for a run of `length` backticks from `place` on. The length of a run is
measured up to `limit`, and runs of other lengths are remembered. -/
def closingTicks (source : Source) (length limit place : Nat) :
    Remembering (Option Nat) := do
  let start := source.skipWhile (· ≠ '`') place source.chars.size
  if ahead : place ≤ start ∧ start < source.chars.size then
    let stop := max (start + 1) (source.skipWhile (· = '`') (start + 1) limit)
    if stop - start = length then return some stop
    else
      modify fun memory =>
        { memory with tickRuns := (stop - start, start) :: memory.tickRuns }
      closingTicks source length limit stop
  else return none
termination_by source.chars.size + limit - place
decreasing_by
  have : start < max (start + 1)
      (source.skipWhile (· = '`') (start + 1) limit) := by omega
  omega

def ticks (source : Source) (place limit : Nat) : Remembering Sighting := do
  let stop := source.skipWhile (· = '`') place limit
  let length := stop - place
  let memory ← get
  let lastRun :=
    ((memory.tickRuns.find? fun run => run.1 = length).map (·.2)).getD 0
  if memory.ticksSeen && lastRun ≤ place then return (.literalTicks, stop)
  match ← closingTicks source length limit stop with
  | some close => return (.code, close)
  | none =>
      modify fun memory => { memory with ticksSeen := true }
      return (.literalTicks, stop)

def delimiters (source : Source) (marker : Char) (place limit : Nat) :
    Sighting :=
  let stop := source.skipWhile (· = marker) place limit
  let before := if place = 0 then ' ' else (source.char? (place - 1)).getD ' '
  let after := if stop < limit then (source.char? stop).getD ' ' else ' '
  let (opens, closes) := Delimiter.flanking marker before after
  (.delimiters marker (stop - place) opens closes, stop)

/-- The scheme and the rest of an address in angle brackets. A line end at the
very end of it is overlooked. -/
def isAddress (text : List Char) : Bool :=
  let scheme := text.takeWhile fun c =>
    Html.isAlphanumeric c || c = '+' || c = '.' || c = '-'
  let named := match scheme with
    | first :: others =>
        Html.isLetter first && 1 ≤ others.length && others.length ≤ 31
    | [] => false
  named && match text.drop scheme.length with
    | ':' :: rest =>
        let bare := if rest.getLast? = some '\n' then rest.dropLast else rest
        bare.all fun c => 0x20 < c.toNat && c ≠ '<' && c ≠ '>'
    | _ => false

def isDomainLabel (label : List Char) : Bool :=
  label.length ≤ 63 && label.all (fun c => Html.isAlphanumeric c || c = '-') &&
    match label.head?, label.getLast? with
    | some first, some last => first ≠ '-' && last ≠ '-'
    | _, _ => false

def splitAtPoints : List Char → List (List Char)
  | [] => [[]]
  | c :: rest =>
      match splitAtPoints rest with
      | [] => [[c]]
      | first :: others =>
          if c = '.' then [] :: first :: others else (c :: first) :: others

def isMailAddress (text : List Char) : Bool :=
  let bare := if text.getLast? = some '\n' then text.dropLast else text
  let user := bare.takeWhile (· ≠ '@')
  !user.isEmpty &&
    user.all
      (fun c => Html.isAlphanumeric c ||
        ".!#$%&'*+/=?^_`\x7b|\x7d~-".toList.contains c) &&
    match bare.drop user.length with
    | '@' :: domain => (splitAtPoints domain).all isDomainLabel
    | _ => false

def address? (source : Source) (place limit : Nat) : Option Sighting :=
  let stop := source.skipWhile (fun c => c ≠ '<' && c ≠ '>') (place + 1) limit
  if stop < limit && source.is stop '>' then
    let held := source.slice (place + 1) stop
    if isAddress held then
      if isAdmitted held then some (.address, stop + 1) else none
    else if isMailAddress held then some (.address, stop + 1)
    else none
  else none

def html? (source : Source) (place limit : Nat) : Option Sighting :=
  if place + 2 < limit then
    let text := source.slice place source.chars.size
    (Html.afterInline? text).map fun rest =>
      (.html, place + (text.length - rest.length))
  else none

/-- A named reference or a reference by number. References to nothing known are
plain text, which makes no difference here. -/
def reference? (source : Source) (place limit : Nat) : Option Sighting :=
  if place + 1 < limit then
    let body := (source.slice (place + 1) source.chars.size).takeWhile fun c =>
      Html.isAlphanumeric c || c = '#'
    let isReference := match body with
      | '#' :: number => number.length ≤ 7 && (referenceNumber? number).isSome
      | name => (referenced? name).isSome
    let stop := place + 1 + body.length
    if isReference && source.is stop ';' then some
      (.escaped, stop + 1) else none
  else none

/-! ## Links and images -/

/-- How many characters beyond its first the construct at a place takes. -/
abbrev Skip := (place limit : Nat) → Remembering Nat

/-- The place of the bracket that closes a label, from `place` on, with `depth`
brackets open. A label of a link holds no other link. -/
def labelEnd (source : Source) (skip : Skip) (forLink : Bool)
    (limit place depth : Nat) : Remembering (Option Nat) := do
  if place < limit then
    let closing := source.is place ']'
    if closing && depth ≤ 1 then return some place
    let depth := if closing then depth - 1 else depth
    let extent ← skip place limit
    if source.is place '[' then
      if extent = 0 then
        labelEnd source skip forLink limit (place + 1) (depth + 1)
      else if forLink then return none
      else labelEnd source skip forLink limit (place + 1 + extent) depth
    else labelEnd source skip forLink limit (place + 1 + extent) depth
  else return none
termination_by limit - place

/-- The place after the parenthesised part of an inline link or image, or the
place at which reading it failed. The text begins after the opening parenthesis.
-/
def inlineTarget (source : Source) (place limit : Nat) : Bool × Nat :=
  let text := source.slice place limit
  let placeOf (rest : List Char) : Nat := limit - rest.length
  let text := text.dropWhile isPartBlank
  match text with
  | [] => (false, limit)
  | _ =>
      let afterAddress := match destination? text with
        | some (address, rest) => if isAdmitted address then some rest else none
        | none => none
      let known := (destination? text).isSome
      let start := afterAddress.getD text
      let title := start.dropWhile isPartBlank
      let afterTitle :=
        if title.length < start.length then
          match afterTitle? title with
          | some rest => rest.dropWhile isPartBlank
          | none => title
        else title
      let stop := if known then afterTitle else start
      match stop with
      | ')' :: _ => (true, placeOf stop + 1)
      | _ => (false, placeOf stop)

/-- The label behind a link's text or an image's description, if it is written
out: its bounds. -/
def writtenLabel? (source : Source) (skip : Skip) (place limit : Nat) :
    Remembering (Option (Nat × Nat)) := do
  if place < limit && source.is place '[' then
    match ← labelEnd source skip false limit (place + 1) 1 with
    | some stop => return some (place + 1, stop)
    | none => return none
  else return none

/-- The stop of a link or image by reference. `place` is where a label may be
written out; without one the text in brackets itself is the label. -/
def byReference? (source : Source) (skip : Skip)
    (first last place limit : Nat) :
    Remembering (Option Nat) := do
  if !source.hasDefinitions then return none
  let written ← writtenLabel? source skip place limit
  let stop := match written with
    | some (_, stop) => stop + 1
    | none => last + 1
  let label := match written with
    | some (start, stop) =>
        if start = stop then source.slice first last
          else source.slice start stop
    | none => source.slice first last
  return if source.isDefined (normalLabel label) then some stop else none

/-- A link whose opening bracket is at `place`. A parenthesis that gives no
valid target leaves the place at which the label is then looked for. -/
def link? (source : Source) (skip : Skip) (place limit : Nat) :
    Remembering (Option Sighting) := do
  match ← labelEnd source skip true limit (place + 1) 1 with
  | none => return none
  | some last =>
      let first := place + 1
      let sighting (stop : Nat) : Sighting := (.link first last, stop)
      if last + 1 < limit && source.is (last + 1) '(' then
        let (valid, stop) := inlineTarget source (last + 2) limit
        if valid then return some (sighting stop)
        else if (source.slice (last + 2) limit).all isPartBlank then return none
        else
          return (← byReference? source skip first last (stop + 1) limit).map
            sighting
      else
        return (← byReference? source skip first last (last + 1) limit).map
          sighting

def image? (source : Source) (skip : Skip) (place limit : Nat) :
    Remembering (Option Sighting) := do
  if place + 1 < limit && source.is (place + 1) '[' then
    match ← labelEnd source skip false limit (place + 2) 1 with
    | none => return none
    | some last =>
        let first := place + 2
        let sighting (stop : Nat) : Sighting := (.image first last, stop)
        if last + 1 < limit && source.is (last + 1) '(' then
          let (valid, stop) := inlineTarget source (last + 2) limit
          return if valid then some (sighting stop) else none
        else
          return (← byReference? source skip first last (last + 1) limit).map
            sighting
  else return none

/-! ## One construct after the other -/

def sight? (source : Source) (skip : Skip) (place limit : Nat) :
    Remembering (Option Sighting) := do
  match source.char? place with
  | none => return none
  | some c =>
      if !isSpecial c then
        return some
          (.text, source.skipWhile (fun d => !isSpecial d) place limit)
      else if c = '\n' then
        return some
          (.lineBreak, source.skipWhile isInlineBlank (place + 1) limit)
      else if c = '\\' then return escape? source place limit
      else if c = '`' then return some (← ticks source place limit)
      else if c = '*' || c = '_' then
        return some (delimiters source c place limit)
      else if c = '[' then link? source skip place limit
      else if c = '!' then image? source skip place limit
      else if c = '<' then
        return (address? source place limit).or (html? source place limit)
      else if c = '&' then return reference? source place limit
      else return none

/-- How far the construct at a place reaches, looked up or found out with
`depth` levels of brackets left. Without a level left the rest of the text is
one construct. Delimiters are taken one by one. -/
def skip (source : Source) : (depth : Nat) → Skip
  | 0, place, limit => do
      match (← get).extents[place]? with
      | some extent => return extent
      | none =>
          modify fun memory =>
            { memory with
              extents := memory.extents.insert place (limit - place) }
          return limit - place
  | depth + 1, place, limit => do
      match (← get).extents[place]? with
      | some extent => return extent
      | none =>
          let sighting ← sight? source (skip source depth) place limit
          let extent := match sighting with
            | some (.delimiters .., _) | none => 0
            | some (_, stop) => stop - (place + 1)
          modify fun memory =>
            { memory with extents := memory.extents.insert place extent }
          return extent

/-- Text that has not become a piece yet, last character first. -/
abbrev Pending := List Char

def flush (pending : Pending) (pieces : List Piece) : List Piece :=
  if pending.isEmpty then pieces else .text :: pieces

/-- The pieces from `place` on to `limit`, after those in `done`. The last of
`done` comes first. -/
def cut (source : Source) (skip : Skip)
    (inside : (first last : Nat) → Remembering (List Piece)) (limit place : Nat)
    (pending : Pending) (done : List Piece) : Remembering (List Piece) := do
  if place < limit then
    match ← sight? source skip place limit with
    | none =>
        cut source skip inside limit (place + 1)
          ((source.char? place).toList ++ pending) done
    | some (found, stop) =>
        let next := max stop (place + 1)
        match found with
        | .text | .literalTicks =>
            cut source skip inside limit next
              ((source.slice place stop).reverse ++ pending) done
        | .lineBreak =>
            let kept := pending.dropWhile (· = ' ')
            let piece :=
              if 2 ≤ pending.length - kept.length then Piece.hardBreak
              else .softBreak
            cut source skip inside limit next [] (piece :: flush kept done)
        | .hardBreak =>
            cut source skip inside limit next []
              (.hardBreak :: flush pending done)
        | .escaped =>
            cut source skip inside limit next [] (.text :: flush pending done)
        | .code =>
            cut source skip inside limit next [] (.code :: flush pending done)
        | .html =>
            cut source skip inside limit next [] (.html :: flush pending done)
        | .address =>
            cut source skip inside limit next []
              (.link [.text] :: flush pending done)
        | .delimiters marker count opens closes =>
            cut source skip inside limit next []
              (List.replicate count (.delimiter marker count opens closes) ++
                flush pending done)
        | .link first last =>
            let children ← inside first last
            cut source skip inside limit next []
              (.link children :: flush pending done)
        | .image first last =>
            cut source skip inside limit next []
              (.image (source.slice first last) :: flush pending done)
  else return (flush pending done).reverse
termination_by limit - place

/-- The pieces between two places with `depth` levels of links left. Without a
level left all is text. -/
def pieces (source : Source) : (depth : Nat) → (place limit : Nat) →
    Remembering (List Piece)
  | 0, place, limit => return if place < limit then [.text] else []
  | depth + 1, place, limit =>
      cut source (skip source (depth + 1))
      (pieces source depth) limit place [] []

/-! ## From pieces to a tree -/

def delimitersOf (pieces : List Piece) : Array Delimiter :=
  (pieces.zipIdx.filterMap fun (piece, index) =>
    match piece with
    | .delimiter marker runLength opens closes =>
        some ⟨marker, runLength, index, opens, closes, none⟩
    | _ => none).toArray

inductive Mark where
  | node (node : Inline)
  | opening
  | closing (isStrong : Bool)

def joinTexts : List Mark → List Mark
  | .node .text :: .node .text :: rest => joinTexts (.node .text :: rest)
  | mark :: rest => mark :: joinTexts rest
  | [] => []

/-- The nodes that marks write. `done` holds the finished nodes of the innermost
open level, `outer` those of the levels around it, the last one first in each.
-/
def buildTree (done : List Inline) (outer : List (List Inline)) :
    List Mark → List Inline
  | [] => (outer.foldl (fun inner level => inner ++ level) done).reverse
  | .node node :: rest => buildTree (node :: done) outer rest
  | .opening :: rest => buildTree [] (done :: outer) rest
  | .closing isStrong :: rest =>
      let node :=
        if isStrong then Inline.strong done.reverse else .emphasis done.reverse
      match outer with
      | level :: outer => buildTree (node :: level) outer rest
      | [] => buildTree [node] [] rest

def assemble (pieces : List Piece) (held : List (Option Inline)) :
    List Inline :=
  let roles := Std.HashMap.ofList
      (Delimiter.roles (Delimiter.pairUp (delimitersOf pieces))
    (delimitersOf pieces).size)
  let marks := held.zipIdx.map fun (node, index) =>
    match node with
    | some node => Mark.node node
    | none =>
        match roles.getD index .plain with
        | .plain => .node .text
        | .opening _ => .opening
        | .closing isStrong => .closing isStrong
  buildTree [] [] (joinTexts marks)

mutual

def heldNodes (describe : List Char → List Inline) : List Piece →
    List (Option Inline)
  | [] => []
  | piece :: rest => heldNode describe piece :: heldNodes describe rest

def heldNode (describe : List Char → List Inline) : Piece → Option Inline
  | .text => some .text
  | .delimiter .. => none
  | .softBreak => some .softBreak
  | .hardBreak => some .hardBreak
  | .code => some .code
  | .html => some .html
  | .link children =>
      some (.link (assemble children (heldNodes describe children)))
  | .image description => some (.image (describe description))

end

def nodesOf (describe : List Char → List Inline) (pieces : List Piece) :
    List Inline :=
  assemble pieces (heldNodes describe pieces)

def parseTo (isDefined : List Char → Bool) (hasDefinitions : Bool) :
    (depth : Nat) → (content : List Char) → List Inline
  | 0, _ => []
  | depth + 1, content =>
      let source : Source := ⟨content.toArray, isDefined, hasDefinitions⟩
      let found :=
        (pieces source nestingLimit 0 content.length).run' Memory.empty
      nodesOf (parseTo isDefined hasDefinitions depth) (Id.run found)

/-- The nodes of a text. A description is shorter than the text that it stands
in, so no description is cut off. -/
def parse (isDefined : List Char → Bool) (hasDefinitions : Bool)
    (content : List Char) :
    List Inline :=
  parseTo isDefined hasDefinitions (content.length + 1) content

end Inline
end FencedJson.Markdown
