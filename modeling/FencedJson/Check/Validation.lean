import FencedJson.Check.BlockError
import FencedJson.Check.Extraction
import FencedJson.Check.Position
import FencedJson.Json.Relaxed
import FencedJson.Json.Strict

/-! # Validation of a block

A block is parsed strictly when its language is `json`, and as relaxed JSON
otherwise. The two parsers report places in different ways: the strict one only
by an offset in its message, the relaxed one by a line and a column of the
block.
-/

namespace FencedJson.Check

inductive Rejection where
  | refused (message : String)
  /-- A refusal that comes with a line and a column, zero where they are not
  known. -/
  | located (message : String) (line column : Int)
  | tooDeep (message : String)

def Rejection.message : Rejection → String
  | refused message | located message _ _ | tooDeep message => message

def Rejection.lineColumn : Rejection → Int × Int
  | located _ line column => (line, column)
  | refused _ | tooDeep _ => (0, 0)

inductive Breakdown where
  | general
  | overflow
  deriving DecidableEq, Repr

/-- What a parser can say of a text other than that it is fine. A breakdown is
no verdict on the text. -/
inductive ParserFailure where
  | rejected (rejection : Rejection)
  | broken (kind : Breakdown) (message : String)

/-- The two parsers of a validator. Only whether they accept a text counts. -/
structure Parsers where
  strict : String → Except ParserFailure Unit
  relaxed : String → Except ParserFailure Unit

namespace Parsers

def acceptStrict (stack : Stack) (text : String) : Except ParserFailure Unit :=
  match Json.Strict.parse stack text with
  | .ok _ => .ok ()
  | .error (.tooDeep overflow) => .error (.rejected (.tooDeep overflow.message))
  | .error error => .error (.rejected (.refused error.message))

def acceptRelaxed (stack : Stack) (text : String) : Except ParserFailure Unit :=
  match Json.Relaxed.parse stack text with
  | .ok _ => .ok ()
  | .error (.tooDeep overflow) => .error (.rejected (.tooDeep overflow.message))
  | .error error =>
      let (line, column) := Json.Relaxed.namedPlace error.message
      .error (.rejected (.located error.message line column))

def standard (stack : Stack) : Parsers :=
  ⟨acceptStrict stack, acceptRelaxed stack⟩

end Parsers

inductive ValidationFailure where
  | broken (kind : Breakdown) (message : String)
  | offset (digits : Nat)
  /-- The place of the error is not in the file. -/
  | place (refusal : Refusal)

def ValidationFailure.message : ValidationFailure → String
  | broken _ message => message
  | offset digits => integerDigitMessage digits
  | place refusal => refusal.message

def isStrict (block : Node) : Bool := block.lang == some "json"

def blockText (block : Node) : String := block.value.getD ""

/-- The error of a block whose text was rejected. Lines count from the line of
the block, and the first column stands for one that is not known. -/
def locate (block : Node) (rejection : Rejection) :
    Except ValidationFailure BlockError :=
  let placed (line column : Int) :=
    (BlockError.ofParts (block.startLine + line)
      (max column 1) rejection.message).mapError ValidationFailure.place
  if isStrict block then
    match Position.recover rejection.message (blockText block).toList with
    | .error tooLong => .error (.offset tooLong.digits)
    | .ok position => placed position.line position.column
  else
    let (line, column) := rejection.lineColumn
    placed line column

def validate (parsers : Parsers) (block : Node) :
    Except ValidationFailure (Option BlockError) :=
  let parser := if isStrict block then parsers.strict else parsers.relaxed
  match parser (blockText block) with
  | .ok () => .ok none
  | .error (.broken kind message) => .error (.broken kind message)
  | .error (.rejected rejection) => (locate block rejection).map some

structure Finding where
  block : Node
  error : BlockError

def findings (parsers : Parsers) : List Node →
    Except ValidationFailure (List Finding)
  | [] => .ok []
  | block :: rest =>
      match validate parsers block with
      | .error failure => .error failure
      | .ok none => findings parsers rest
      | .ok (some error) => (findings parsers rest).map (⟨block, error⟩ :: ·)

/-- What is wrong with the JSON blocks of a Markdown text, in document order.
The parsers are four calls further in. -/
def checkText (stack : Stack) (markdown : String) :
    Except ValidationFailure (List Finding) :=
  findings (.standard (stack.call 4)) (Markdown.parse markdown).jsonBlocks

end FencedJson.Check
