/-! # Places in a text

A place is an offset counted in characters, with the line and the column that it
falls on. Only a line feed ends a line here.
-/

namespace FencedJson

/-- A place in a text. Lines and columns count from one, offsets from zero. -/
structure Place where
  line : Nat
  column : Nat
  offset : Nat
  deriving DecidableEq, Repr

namespace Place

def columnAfter (before : List Char) : Nat :=
  (before.reverse.takeWhile (· != '\n')).length + 1

def after (before : List Char) : Place :=
  ⟨before.count '\n' + 1, columnAfter before, before.length⟩

/-- The place of an offset of `text`. Offsets past the end count on in the last
line. -/
def ofOffset (text : List Char) (offset : Nat) : Place :=
  let place := after (text.take offset)
  { place with column := place.column + (offset - place.offset), offset }

def suffix (place : Place) : String :=
  s!": line {place.line} column {place.column} (char {place.offset})"

end Place
end FencedJson
