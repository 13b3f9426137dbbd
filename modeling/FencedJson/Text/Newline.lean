/-! # Line ends

A line ends at a line feed, at a carriage return, or at the two in this order.
-/

namespace FencedJson

def unifyNewlines : List Char → List Char
  | [] => []
  | '\r' :: '\n' :: rest => '\n' :: unifyNewlines rest
  | '\r' :: rest => '\n' :: unifyNewlines rest
  | c :: rest => c :: unifyNewlines rest

structure RawLine where
  text : List Char
  ended : Bool
  deriving DecidableEq, Repr

/-- The lines of a text. Only the last one may lack its line feed, and then it
is not empty. -/
def rawLines : List Char → List RawLine
  | [] => []
  | c :: rest =>
      if c = '\n' then ⟨[], true⟩ :: rawLines rest
      else
        match rawLines rest with
        | [] => [⟨[c], false⟩]
        | first :: others => { first with text := c :: first.text } :: others

end FencedJson
