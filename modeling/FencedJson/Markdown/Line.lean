import FencedJson.Text.Newline

/-! # Lines of a Markdown document

A block sees a line from the place on where the containers around it end. The
columns of that line are counted with tab stops at every fourth column of the
document, so that a tab after a marker may reach into the content.
-/

namespace FencedJson.Markdown

def isIndent (c : Char) : Bool := c = ' ' || c = '\t'

structure Line where
  number : Nat
  /-- What stands before the first character that is not blank: blanks, and the
  marker where a list item begins. -/
  lead : List Char
  body : List Char
  /-- The column of the body, negative on a line that only continues a
  paragraph. -/
  indent : Int
  /-- The column at which the line begins, as far as tab stops are concerned. -/
  start : Nat
  ended : Bool
  deriving DecidableEq, Repr

def nextColumn (start column : Nat) (c : Char) : Nat :=
  if c = '\t' then column + 4 - (column + start) % 4 else column + 1

def columnAfter (start column : Nat) (run : List Char) : Nat :=
  run.foldl (nextColumn start) column

namespace Line

def isBlank (line : Line) : Bool := line.body.isEmpty

def ofRaw (number : Nat) (raw : RawLine) : Line :=
  let lead := raw.text.takeWhile isIndent
  ⟨number, lead, raw.text.dropWhile isIndent,
    columnAfter 0 0 lead, 0, raw.ended⟩

/-- Take up to `wanted` columns off the front of a line's lead. Columns of a tab
that are not wanted stay as spaces. Characters of a marker count one column. -/
def cutLead (start wanted : Nat) : (column : Nat) → List Char → List Char
  | column, [] => List.replicate (column - wanted) ' '
  | column, c :: rest =>
      if column < wanted then cutLead start wanted
        (nextColumn start column c) rest
      else List.replicate (column - wanted) ' ' ++ c :: rest

def content (line : Line) (columns : Nat) : List Char :=
  cutLead line.start columns 0 line.lead ++ line.body

end Line

def joinLines : List (List Char) → List Char
  | [] => []
  | [last] => last
  | first :: rest => first ++ '\n' :: joinLines rest

/-- The lines of a document whose line ends are line feeds. A last line that
holds blanks only and is not ended does not count. -/
def documentLines (text : List Char) : List Line :=
  let raw := rawLines text
  let counted := raw.filter fun line => line.ended || !line.text.all isIndent
  counted.zipIdx.map fun (line, index) => .ofRaw (index + 1) line

end FencedJson.Markdown
