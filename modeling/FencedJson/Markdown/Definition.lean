import FencedJson.Markdown.Link

/-! # Link definitions

A definition gives a label to an address. It may go over several lines, of which
one is fetched whenever the end of the line before is reached.
-/

namespace FencedJson.Markdown.Definition

/-- What is left to read of a definition: the rest of the current line, and the
lines that may still be fetched. -/
structure Input where
  rest : List Char
  lines : List (List Char)
  fetched : Nat

namespace Input

def nextLine (rest : List Char) (lines : List (List Char)) (fetched : Nat) :
    Input :=
  match lines with
  | [] => ⟨rest, [], fetched⟩
  | line :: lines => ⟨rest ++ line, lines, fetched + 1⟩

end Input

def label? (held : List Char) (rest : List Char) (lines : List (List Char))
    (fetched : Nat) : Option (List Char × Input) :=
  match rest with
  | [] => none
  | '[' :: _ => none
  | ']' :: rest => some (held.reverse, ⟨rest, lines, fetched⟩)
  | '\n' :: rest =>
      match lines with
      | [] => label? ('\n' :: held) rest [] fetched
      | line :: lines =>
          label? ('\n' :: held) (rest ++ line) lines (fetched + 1)
  | '\\' :: '\n' :: rest =>
      match lines with
      | [] => label? ('\n' :: '\\' :: held) rest [] fetched
      | line :: lines =>
          label? ('\n' :: '\\' :: held) (rest ++ line) lines (fetched + 1)
  | '\\' :: c :: rest => label? (c :: '\\' :: held) rest lines fetched
  | c :: rest => label? (c :: held) rest lines fetched
termination_by (lines.length, rest.length)

def skipBlanks (rest : List Char) (lines : List (List Char)) (fetched : Nat) :
    Input :=
  match rest with
  | [] => ⟨[], lines, fetched⟩
  | c :: rest =>
      if c = '\n' then
        match lines with
        | [] => skipBlanks rest [] fetched
        | line :: lines => skipBlanks (rest ++ line) lines (fetched + 1)
      else if isInlineBlank c then skipBlanks rest lines fetched
      else ⟨c :: rest, lines, fetched⟩
termination_by (lines.length, rest.length)

def title? (close : Char) (held : Bool) (rest : List Char) :
    (lines : List (List Char)) → (fetched : Nat) → Option (Bool × Input)
  | lines, fetched =>
      match titleRest close held rest with
      | .closed held rest => some (held, ⟨rest, lines, fetched⟩)
      | .broken => none
      | .unfinished held =>
          match lines with
          | [] => none
          | line :: lines => title? close held line lines (fetched + 1)

/-- The input after a definition's address, its title included if there is one
that is followed by nothing else on its line. -/
def afterTitle? (input : Input) : Option Input :=
  let ends (input : Input) : Option Input :=
    let rest := input.rest.dropWhile isInlineBlank
    match rest with
    | [] | '\n' :: _ => some { input with rest }
    | _ => none
  let gap := skipBlanks input.rest input.lines input.fetched
  let titled : Option (Bool × Input) :=
    match gap.rest with
    | opening :: rest =>
        if gap.rest.length < input.rest.length ∨
          input.fetched < gap.fetched then
          (titleClose? opening).bind fun close =>
            title? close false rest gap.lines gap.fetched
        else none
    | [] => none
  match titled with
  | none => ends input
  | some (held, after) =>
      match ends after with
      | some after => some after
      | none => if held then ends input else none

/-- The definition at the front of a paragraph: its label in normal form and how
many of the following lines belong to it. -/
def parse? (first : List Char) (lines : List (List Char)) :
    Option (List Char × Nat) :=
  match first with
  | '[' :: rest =>
      match label? [] rest lines 0 with
      | some (label, ⟨':' :: rest, lines, fetched⟩) =>
          let input := skipBlanks rest lines fetched
          match destination? input.rest with
          | none => none
          | some (address, rest) =>
              if isAdmitted address then
                match afterTitle? { input with rest } with
                | none => none
                | some after =>
                    let label := normalLabel label
                    if label.isEmpty then none else some (label, after.fetched)
              else none
      | _ => none
  | _ => none

end FencedJson.Markdown.Definition
