import FencedJson.Yaml.Cursor
import FencedJson.Yaml.Plain
import FencedJson.Yaml.Quoted
import FencedJson.Yaml.Tag

/-! # The tokens of a text

A text is read token by token. Two things are told only in hindsight: that a
token was the key of a mapping, by a colon behind it, and that a collection
ended, by the indentation of what follows.
-/

namespace FencedJson.Yaml

/-- A token that may turn out to be the start of a key. -/
structure Candidate where
  index : Nat
  required : Bool
  line : Nat
  column : Nat
  offset : Nat

def Candidate.isFresh (candidate : Candidate) (cursor : Cursor) : Bool :=
  candidate.line = cursor.line && cursor.offset ≤ candidate.offset + 1024

structure Bracket where
  opening : Char
  candidate : Option Candidate

structure Scan where
  cursor : Cursor
  tokens : List Token
  brackets : List Bracket
  candidate : Option Candidate
  /-- The indentation of the innermost block collection, below zero for none. -/
  indent : Int
  outer : List Int
  keyAllowed : Bool
  version : Version

namespace Scan

def start (text : List Char) : Scan where
  cursor := .start text
  tokens := []
  brackets := []
  candidate := none
  indent := -1
  outer := []
  keyAllowed := true
  version := .standard

def inFlow (scan : Scan) : Bool := !scan.brackets.isEmpty

def push (scan : Scan) (token : Token) : Scan :=
  { scan with tokens := token :: scan.tokens }

def insert (scan : Scan) (index : Nat) (token : Token) : Scan :=
  { scan with
    tokens := scan.tokens.insertIdx (scan.tokens.length - index) token }

def goto (scan : Scan) (rest : List Char) : Scan :=
  { scan with cursor := scan.cursor.goto rest }

/-! ## Blanks between tokens -/

/-- Pass over blanks, comments and line breaks. Behind a line break outside of
flow collections, a key may stand. -/
def skipBlank (inFlow : Bool) (keyAllowed inComment : Bool) :
    List Char → List Char × Bool
  | [] => ([], keyAllowed)
  | c :: rest =>
      if inComment then
        if isFeed c then skipBlank inFlow (keyAllowed || !inFlow) false rest
        else skipBlank inFlow keyAllowed true rest
      else if c = ' ' || (inFlow && c = '\t') then skipBlank inFlow
        keyAllowed false rest
      else if c = '#' then skipBlank inFlow keyAllowed true rest
      else if isBreak c then skipBlank inFlow (keyAllowed || !inFlow) false rest
      else (c :: rest, keyAllowed)

def toNextToken (scan : Scan) : Scan :=
  let (rest, keyAllowed) :=
    skipBlank scan.inFlow scan.keyAllowed false scan.cursor.rest
  { scan.goto rest with keyAllowed }

/-! ## Candidates -/

def dropped : Option Candidate → Except Problem (Option Candidate)
  | none => .ok none
  | some candidate =>
      if candidate.required then .error .colonExpected else .ok none

/-- Give up a candidate that a colon can no longer reach. -/
def refreshed (cursor : Cursor) (candidate : Option Candidate) :
    Except Problem (Option Candidate) :=
  if candidate.all (·.isFresh cursor) then .ok candidate else dropped candidate

def refreshedBrackets (cursor : Cursor) :
    List Bracket → Except Problem (List Bracket)
  | [] => .ok []
  | bracket :: rest =>
      match refreshed cursor bracket.candidate,
        refreshedBrackets cursor rest with
      | .ok candidate, .ok rest => .ok ({ bracket with candidate } :: rest)
      | .error problem, _ => .error problem
      | _, .error problem => .error problem

def refresh (scan : Scan) : Except Problem Scan :=
  match refreshed scan.cursor scan.candidate,
    refreshedBrackets scan.cursor scan.brackets with
  | .ok candidate, .ok brackets => .ok { scan with candidate, brackets }
  | .error problem, _ => .error problem
  | _, .error problem => .error problem

def hasCandidate (scan : Scan) : Bool :=
  scan.candidate.isSome || scan.brackets.any (·.candidate.isSome)

def dropCandidate (scan : Scan) : Except Problem Scan :=
  (dropped scan.candidate).map fun candidate => { scan with candidate }

def addCandidate (scan : Scan) : Except Problem Scan :=
  if scan.keyAllowed then
    (dropped scan.candidate).map fun _ =>
      { scan with
        candidate := some
          { index := scan.tokens.length
            required := !scan.inFlow && scan.indent = scan.cursor.column
            line := scan.cursor.line
            column := scan.cursor.column
            offset := scan.cursor.offset } }
  else .ok scan

/-! ## Indentation -/

def unwindTo (column : Int) (indent : Int) (tokens : List Token) :
    List Int → Int × List Token × List Int
  | [] => (indent, tokens, [])
  | parent :: outer =>
      if column < indent then unwindTo column parent (.blockEnd :: tokens) outer
      else (indent, tokens, parent :: outer)

def unwind (scan : Scan) (column : Int) : Scan :=
  if scan.inFlow then scan
  else
    let (indent, tokens, outer) :=
      unwindTo column scan.indent scan.tokens scan.outer
    { scan with indent, tokens, outer }

/-- Open a block collection at a column, unless it is open. Its start token goes
behind the first `index` tokens. -/
def openBlock (scan : Scan) (column : Nat) (index : Nat) (start : Token) :
    Scan :=
  if !scan.inFlow && scan.indent < column then
    { scan.insert index start with indent := column, outer :=
      scan.indent :: scan.outer }
  else scan

/-! ## Tokens -/

def take (scan : Scan) (count : Nat) (token : Token) (keyAllowed : Bool) :
    Scan :=
  { scan.push token with cursor := scan.cursor.skip count, keyAllowed }

def documentMark (scan : Scan) (token : Token) : Except Problem Scan :=
  (scan.unwind (-1)).dropCandidate.map fun scan => scan.take 3 token false

def directive (scan : Scan) (rest : List Char) : Except Failure Scan :=
  match (scan.unwind (-1)).dropCandidate, readDirective scan.version rest with
  | .ok scan, .ok (token, rest) =>
      let version := match token with
        | .version version => version
        | _ => scan.version
      .ok { (scan.push token).goto rest with version, keyAllowed := false }
  | .error problem, _ => .error (.problem problem)
  | _, .error failure => .error failure

def openBracket (scan : Scan) (opening : Char) (token : Token) :
    Except Problem Scan :=
  scan.addCandidate.map fun scan =>
    { scan.take 1 token true with
      brackets := ⟨opening, scan.candidate⟩ :: scan.brackets
      candidate := none }

def closeBracket (scan : Scan) (token : Token) : Except Problem Scan :=
  scan.dropCandidate.map fun scan =>
    let scan := scan.take 1 token false
    match scan.brackets with
    | [] => scan
    | bracket :: brackets =>
        { scan with brackets, candidate := bracket.candidate }

def flowEntry (scan : Scan) : Except Problem Scan :=
  scan.dropCandidate.map fun scan => scan.take 1 .flowEntry true

def marked (scan : Scan) (problem : Problem) (start token : Token)
    (keyAllowed : Bool) :
    Except Problem Scan :=
  if !scan.inFlow && !scan.keyAllowed then .error problem
  else
    (scan.openBlock scan.cursor.column scan.tokens.length
      start).dropCandidate.map fun scan => scan.take 1 token keyAllowed

def blockEntry (scan : Scan) : Except Problem Scan :=
  scan.marked .misplacedEntry .blockSequenceStart .blockEntry true

def key (scan : Scan) : Except Problem Scan :=
  scan.marked .misplacedKey .blockMappingStart .key (!scan.inFlow)

def value (scan : Scan) : Except Problem Scan :=
  match scan.candidate with
  | some candidate =>
      let scan :=
        ({ scan with candidate := none }.insert candidate.index .key).openBlock
          candidate.column candidate.index .blockMappingStart
      .ok (scan.take 1 .value false)
  | none => scan.marked .misplacedValue .blockMappingStart .value (!scan.inFlow)

def node (scan : Scan) (read : Except Failure (Token × List Char)) :
    Except Failure Scan :=
  match scan.addCandidate, read with
  | .ok scan, .ok (token, rest) =>
      .ok { (scan.push token).goto rest with keyAllowed := false }
  | .error problem, _ => .error (.problem problem)
  | _, .error failure => .error failure

def blockText (scan : Scan) (folded : Bool) (rest : List Char) :
    Except Failure Scan :=
  match scan.dropCandidate, blockScalar folded (scan.indent + 1).toNat rest with
  | .ok scan, .ok (text, rest) =>
      .ok { (scan.push (.scalar false text)).goto rest with keyAllowed := true }
  | .error problem, _ => .error (.problem problem)
  | _, .error failure => .error failure

def quotedText (scan : Scan) (double : Bool) (rest : List Char) :
    Except Failure Scan :=
  scan.node ((quotedBody double rest).map fun read =>
    (.scalar false read.value, read.rest))

def plainContext (scan : Scan) : PlainContext where
  inFlow := scan.inFlow
  old := scan.version.isOld
  column := (scan.indent + 1).toNat

def plainText (scan : Scan) : Except Failure Scan :=
  let read := readPlain scan.plainContext scan.cursor.rest
  (scan.node (.ok (.scalar true read.value, read.rest))).map fun scan =>
    { scan with keyAllowed := read.broken }

def nameToken (make : String → Token) (rest : List Char) :
    Except Failure (Token × List Char) :=
  match readName rest with
  | .ok (name, rest) => .ok (make name, rest)
  | .error problem => .error (.problem problem)

def tagToken (version : Version) (rest : List Char) :
    Except Failure (Token × List Char) :=
  match readTag version rest with
  | .ok (tag, rest) => .ok (.tag tag, rest)
  | .error problem => .error (.problem problem)

/-- Is a colon in front of `next` an indicator? Between braces it needs no gap
behind it, unless it follows another colon while what stands in front may still
be a key. -/
def isValue (scan : Scan) (pending : Bool) (next : Option Char) : Bool :=
  match scan.brackets with
  | [] => isGap next
  | bracket :: _ =>
      if scan.version.isOld then true
      else if bracket.opening = '[' ||
        (pending && scan.tokens.head? = some .value) then
        isGap next
      else true

def token (scan : Scan) (pending : Bool) (c : Char) (rest : List Char) :
    Except Failure Scan :=
  let simple (read : Except Problem Scan) : Except Failure Scan :=
    read.mapError .problem
  let next := rest.head?
  let separates := scan.cursor.column = 0 && isSeparator (c :: rest)
  if c = '%' && scan.cursor.column = 0 then scan.directive rest
  else if c = '-' && separates then simple (scan.documentMark .documentStart)
  else if c = '.' && separates then simple (scan.documentMark .documentEnd)
  else if c = '[' then simple (scan.openBracket c .flowSequenceStart)
  else if c = '\x7b' then simple (scan.openBracket c .flowMappingStart)
  else if c = ']' then simple (scan.closeBracket .flowSequenceEnd)
  else if c = '\x7d' then simple (scan.closeBracket .flowMappingEnd)
  else if c = ',' then simple scan.flowEntry
  else if c = '-' && isGap next then simple scan.blockEntry
  else if c = '?' && (scan.inFlow || isGap next) then simple scan.key
  else if c = ':' && scan.isValue pending next then simple scan.value
  else if c = '*' then scan.node (nameToken .alias rest)
  else if c = '&' then scan.node (nameToken .anchor rest)
  else if c = '!' then scan.node (tagToken scan.version rest)
  else if c = '|' && !scan.inFlow then scan.blockText false rest
  else if c = '>' && !scan.inFlow then scan.blockText true rest
  else if c = '\'' then scan.quotedText false rest
  else if c = '"' then scan.quotedText true rest
  else if scan.plainContext.starts c next then scan.plainText
  else .error (.problem .badCharacter)

def finish (scan : Scan) : Except Failure (List Token) :=
  match (scan.unwind (-1)).dropCandidate with
  | .ok scan => .ok scan.tokens.reverse
  | .error problem => .error (.problem problem)

/-- Read on to the end. A step that left the text as it is would end it as well.
-/
def toEnd (scan : Scan) : Except Failure (List Token) :=
  match scan.refresh with
  | .error problem => .error (.problem problem)
  | .ok before =>
      match before.toNextToken.refresh with
      | .error problem => .error (.problem problem)
      | .ok here =>
          match here.cursor.rest with
          | [] => here.finish
          | c :: rest =>
              match (here.unwind here.cursor.column).token
                before.hasCandidate c rest with
              | .error failure => .error failure
              | .ok next =>
                  if next.cursor.rest.length <
                    scan.cursor.rest.length then next.toEnd
                  else next.finish
termination_by scan.cursor.rest.length

end Scan

def tokens (text : List Char) : Except Failure (List Token) :=
  if text.all isPrintable then (Scan.start text).toEnd else .error
    (.problem .unprintable)

end FencedJson.Yaml
