import FencedJson.Text.Category
import FencedJson.Markdown.Link

/-! # Emphasis

Each asterisk or underscore that may open or close emphasis is a delimiter. An
opening and a closing delimiter of one kind become a pair when the rules for
their runs allow it, the innermost first, and two pairs side by side become
strong emphasis.
-/

namespace FencedJson.Markdown

def isFlankBlank (c : Char) : Bool :=
  let n := c.toNat
  (0x2000 ≤ n && n ≤ 0x200a) || (0x09 ≤ n && n ≤ 0x0d) ||
    n == 0x20 || n == 0xa0 || n == 0x1680 || n == 0x202f ||
      n == 0x205f || n == 0x3000

def isFlankPunctuation (c : Char) : Bool :=
  isAsciiPunctuation c || Category.isPunctuation c || Category.isSymbol c

structure Delimiter where
  marker : Char
  runLength : Nat
  piece : Nat
  opens : Bool
  closes : Bool
  partner : Option Nat
  deriving Inhabited

namespace Delimiter

/-- Whether a run between two characters may open and may close emphasis. Only
asterisks may do so inside of a word. -/
def flanking (marker before after : Char) : Bool × Bool :=
  let blankBefore := isFlankBlank before
  let blankAfter := isFlankBlank after
  let markBefore := isFlankPunctuation before
  let markAfter := isFlankPunctuation after
  let left := !(blankAfter || (markAfter && !(blankBefore || markBefore)))
  let right := !(blankBefore || (markBefore && !(blankAfter || markAfter)))
  let splits := marker = '*'
  (left && (splits || !right || markBefore),
    right && (splits || !left || markAfter))

/-- Runs of which one can both open and close do not match when their lengths
add up to a multiple of three, unless both lengths are such multiples. -/
def oddMatch (opener closer : Delimiter) : Bool :=
  (opener.closes || closer.opens) &&
    (opener.runLength + closer.runLength) % 3 == 0 &&
      (opener.runLength % 3 != 0 || closer.runLength % 3 != 0)

/-- The state of the search for pairs, which goes through the delimiters once.
-/
structure Search where
  delimiters : Array Delimiter
  /-- How many delimiters before this one need no second look. -/
  jumps : Array Nat
  header : Nat
  /-- The piece of the delimiter before, unless a pair was just made. -/
  lastPiece : Option Nat
  /-- Below these bounds no opener is left, by kind of closer. -/
  floors : Array Nat

def floorIndex (closer : Delimiter) : Nat :=
  (if closer.marker = '*' then 6 else 0) + (if closer.opens then 3 else 0) +
    closer.runLength % 3

def findOpener (search : Search) (closer : Delimiter) (floor bound : Nat) :
    Option Nat :=
  if bound ≤ floor then none
  else
    let candidate := bound - 1
    let opener := search.delimiters.getD candidate default
    if opener.marker = closer.marker && opener.opens && opener.partner.isNone &&
        !oddMatch opener closer then
      some candidate
    else findOpener search closer floor
      (candidate - search.jumps.getD candidate 0)
termination_by bound

def visit (search : Search) (index : Nat) : Search :=
  let closer := search.delimiters.getD index default
  let jumps := search.jumps.push 0
  let sameRun :=
    (search.delimiters.getD search.header default).marker = closer.marker &&
      search.lastPiece.map (· + 1) = some closer.piece
  let header := if sameRun then search.header else index
  let search := { search with jumps, header, lastPiece := some closer.piece }
  if !closer.closes then search
  else
    let floor := search.floors.getD (floorIndex closer) 0
    let bound := header - jumps.getD header 0
    match findOpener search closer floor bound with
    | some found =>
        let lastJump :=
          if 0 < found &&
            !(search.delimiters.getD (found - 1) default).opens then
            jumps.getD (found - 1) 0 + 1
          else 0
        { search with
          jumps :=
            (jumps.setIfInBounds index (index - found + lastJump)).setIfInBounds
              found lastJump
          delimiters :=
            (search.delimiters.modify index
              fun d => { d with opens := false }).modify found
              fun d => { d with partner := some index, closes := false }
          lastPiece := none }
    | none =>
        { search with
          floors := search.floors.setIfInBounds (floorIndex closer) bound }

def pairUp (delimiters : Array Delimiter) : Array Delimiter :=
  ((List.range delimiters.size).foldl visit
    ⟨delimiters, #[], 0, none, Array.replicate 12 0⟩).delimiters

inductive Role where
  | plain
  | opening (strong : Bool)
  | closing (strong : Bool)
  deriving DecidableEq, Repr, Inhabited

def isStrong (delimiters : Array Delimiter) (index partner : Nat) : Bool :=
  let inner := delimiters.getD index default
  let outer := delimiters.getD (index - 1) default
  let innerClose := delimiters.getD partner default
  let outerClose := delimiters.getD (partner + 1) default
  0 < index && outer.partner == some (partner + 1) &&
    outer.marker == inner.marker && outer.piece + 1 == inner.piece &&
      outerClose.piece == innerClose.piece + 1

def roles (delimiters : Array Delimiter) : (count : Nat) → List (Nat × Role)
  | 0 => []
  | index + 1 =>
      let opener := delimiters.getD index default
      match opener.partner with
      | none => roles delimiters index
      | some partner =>
          let strong := isStrong delimiters index partner
          (opener.piece, .opening strong) ::
            ((delimiters.getD partner default).piece, .closing strong) ::
            (if strong then roles delimiters
              (index - 1) else roles delimiters index)

end Delimiter
end FencedJson.Markdown
