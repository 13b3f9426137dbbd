import FencedJson.Yaml.Character

/-! # Breaks between the lines of a scalar -/

namespace FencedJson.Yaml

structure Interval where
  breaks : List Char
  column : Nat
  rest : List Char
  /-- The text does not go on, because a document separator was met. -/
  separated : Bool

def interval (blank : Char → Bool) (column : Nat) : List Char → Interval
  | [] => ⟨[], column, [], false⟩
  | c :: rest =>
      if column = 0 && isSeparator (c :: rest) then ⟨[], 0, c :: rest, true⟩
      else if blank c then interval blank (column + 1) rest
      else if isBreak c then
        let found := interval blank 0 rest
        { found with breaks := breakValue c :: found.breaks }
      else ⟨[], column, c :: rest, false⟩

theorem length_rest_interval_le (blank : Char → Bool) (column : Nat)
    (text : List Char) :
    (interval blank column text).rest.length ≤ text.length := by
  fun_induction interval <;> grind

/-- A line break between two lines of text becomes a space, unless empty lines
follow it, of which each keeps its break. -/
def folded (first : Char) (more : List Char) : List Char :=
  if first ≠ '\n' then first :: more else if more.isEmpty then [' '] else more

end FencedJson.Yaml
