import FencedJson.Text.Reading

/-! # Wildcard patterns

A pattern is matched against a text as a whole. A star stands for any run of
characters, a question mark for any one character, and a class in brackets for
one character of those that it lists.
-/

namespace FencedJson

structure CharClass where
  negated : Bool
  singles : List Char
  ranges : List (Char × Char)
  deriving DecidableEq, Repr

namespace CharClass

def holds (members : CharClass) (c : Char) : Bool :=
  let listed := members.singles.contains c ||
    members.ranges.any fun (low, high) => low ≤ c && c ≤ high
  listed != members.negated

def any : CharClass := ⟨true, [], []⟩

def only (c : Char) : CharClass := ⟨false, [c], []⟩

/-- The content of a class cut at the hyphens that write a range. The first
`kept` characters of a piece stay together. -/
def pieces (kept : Nat) (content : List Char) : List (List Char) :=
  match _left : (content.drop kept).dropWhile (· != '-') with
  | [] => [content]
  | _ :: rest =>
      (content.take kept ++ (content.drop kept).takeWhile (· != '-')) ::
        pieces 2 rest
termination_by content.length
decreasing_by
  have shorter := length_lt_of_dropWhile_eq_cons _left
  simp only [List.length_drop] at shorter
  omega

def mendEnd : List (List Char) → List (List Char)
  | [] => []
  | [last] => [last]
  | [first, []] => [first ++ ['-']]
  | first :: rest => first :: mendEnd rest

def dropDownward : List (List Char) → List (List Char)
  | [] => []
  | piece :: rest =>
      match dropDownward rest with
      | [] => [piece]
      | next :: others =>
          match piece.getLast?, next.head? with
          | some low, some high =>
              if high < low then (piece.dropLast ++ next.drop 1) :: others
              else piece :: next :: others
          | _, _ => piece :: next :: others

inductive Mark where
  | plain (c : Char)
  | upTo
  deriving DecidableEq, Repr

def marks : List (List Char) → List Mark
  | [] => []
  | [last] => last.map .plain
  | first :: rest => first.map .plain ++ .upTo :: marks rest

def ofMarks (negated : Bool) : List Mark → CharClass
  | [] => ⟨negated, [], []⟩
  | .plain low :: .upTo :: .plain high :: rest =>
      let others := ofMarks negated rest
      { others with ranges := (low, high) :: others.ranges }
  | .plain c :: rest =>
      let others := ofMarks negated rest
      { others with singles := c :: others.singles }
  | .upTo :: rest =>
      let others := ofMarks negated rest
      { others with singles := '-' :: others.singles }

def ofContent (content : List Char) : CharClass :=
  let kept := if content.head? = some '!' then 2 else 1
  match marks (dropDownward (mendEnd (pieces kept content))) with
  | .plain '!' :: rest => ofMarks true rest
  | all => ofMarks false all

/-- What stands between an opening bracket and the closing one, and what
follows. A closing bracket in the first place is part of the content. -/
def content? (text : List Char) : Option (List Char × List Char) :=
  let sign := if text.head? = some '!' then 1 else 0
  let lead := if (text.drop sign).head? = some ']' then sign + 1 else sign
  match (text.drop lead).dropWhile (· != ']') with
  | [] => none
  | _ :: rest =>
      some (text.take lead ++ (text.drop lead).takeWhile (· != ']'), rest)

theorem length_lt_of_content? {text content rest : List Char}
    (found : content? text = some (content, rest)) :
    rest.length < text.length := by
  simp only [content?] at found
  split at found
  · contradiction
  · rename_i after
    have shorter := length_lt_of_dropWhile_eq_cons after
    simp only [Option.some.injEq, Prod.mk.injEq] at found
    rw [found.2, List.length_drop] at shorter
    omega

example : (ofContent "a-c-e".toList).holds '-' := by decide +kernel

example : ¬ (ofContent "z-a".toList).holds 'b' := by decide +kernel

example : (ofContent "!z-a".toList).holds 'b' := by decide +kernel

end CharClass

inductive Wildcard where
  | star
  | one (members : CharClass)
  deriving DecidableEq, Repr

abbrev Pattern := List Wildcard

namespace Pattern

def ofChars (text : List Char) : Pattern :=
  match text with
  | [] => []
  | '*' :: rest => .star :: ofChars rest
  | '?' :: rest => .one .any :: ofChars rest
  | '[' :: rest =>
      match _found : CharClass.content? rest with
      | none => .one (.only '[') :: ofChars rest
      | some (content, following) =>
          .one (.ofContent content) :: ofChars following
  | c :: rest => .one (.only c) :: ofChars rest
termination_by text.length
decreasing_by
  all_goals simp only [List.length_cons]
  all_goals first
    | omega
    | (have shorter := CharClass.length_lt_of_content? _found; omega)

def ofString (text : String) : Pattern := ofChars text.toList

/-- For each suffix of `text`, from the whole text on: does the pattern match
it? One pass over the text for each part keeps the work in bounds however many
stars there are. -/
def suffixMatches : Pattern → (text : List Char) → List Bool
  | [], text => text.map (fun _ => false) ++ [true]
  | .one members :: rest, text =>
      List.zipWith (fun c next => members.holds c && next) text
        ((suffixMatches rest text).drop 1) ++ [false]
  | .star :: rest, text =>
      (suffixMatches rest text).foldr (fun now later =>
        (now || later.headD false) :: later) []

def accepts (pattern : Pattern) (text : List Char) : Bool :=
  (suffixMatches pattern text).headD false

example : accepts (ofString "*.m?") "docs/a.md".toList := by decide +kernel

example : ¬ accepts (ofString "[!ab]*") "b.md".toList := by decide +kernel

end Pattern
end FencedJson
