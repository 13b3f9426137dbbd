/-! # Tokens of YAML

The structure that indentation gives to a text shows in its tokens: a collection
that indentation opens has a start token, and a `blockEnd` where the indentation
ends.
-/

namespace FencedJson.Yaml

structure Version where
  major : Nat
  minor : Nat
  deriving DecidableEq, Repr

namespace Version

def standard : Version := ⟨1, 2⟩

def old : Version := ⟨1, 1⟩

def isOld (version : Version) : Bool := version = old

end Version

/-- A tag as it is written: the handle is short for the front of the whole name.
-/
structure WrittenTag where
  handle : Option String
  name : String
  deriving DecidableEq, Repr

inductive Token where
  | version (version : Version)
  | handle (handle front : String)
  | otherDirective
  | documentStart
  | documentEnd
  | blockSequenceStart
  | blockMappingStart
  | blockEnd
  | blockEntry
  | flowSequenceStart
  | flowSequenceEnd
  | flowMappingStart
  | flowMappingEnd
  | flowEntry
  | key
  | value
  | alias (name : String)
  | anchor (name : String)
  | tag (tag : WrittenTag)
  /-- A scalar. Only those that are plain may stand for something else than a
  text. -/
  | scalar (plain : Bool) (text : List Char)
  deriving DecidableEq, Repr

end FencedJson.Yaml
