/-! # Rules of ordered choice

A rule tries to match the front of a text. Alternatives are tried in order and
the first that matches is taken for good. Beside its outcome, each attempt tells
how far into the text it looked before a character was refused; the farthest
such place is where a text that matches nowhere is reported.
-/

namespace FencedJson.Json

/-- What a rule matched at the front of `text`: `size` characters, of the given
value, with `rest` after them. -/
structure Match (α : Type) (text : List Char) where
  value : α
  size : Nat
  rest : List Char
  size_le : size ≤ text.length
  rest_eq : rest = text.drop size

inductive Outcome (α : Type) (text : List Char) where
  | matched (found : Match α text)
  | refused
  | tooDeep

/-- An attempt to match the front of `text`. Its `reach` counts the characters
in front of the farthest one that was refused. -/
structure Attempt (α : Type) (text : List Char) where
  outcome : Outcome α text
  reach : Nat

abbrev Rule (α : Type) := (text : List Char) → Attempt α text

namespace Match

theorem length_rest {α : Type} {text : List Char} (found : Match α text) :
    found.rest.length = text.length - found.size := by
  rw [found.rest_eq, List.length_drop]

def followedBy {α β : Type} {text : List Char} (first : Match α text)
    (second : Match β first.rest) : Match β text where
  value := second.value
  size := first.size + second.size
  rest := second.rest
  size_le := by
    have := first.size_le
    have := second.size_le
    have := first.length_rest
    omega
  rest_eq := by
    have dropped := second.rest_eq
    simp only [first.rest_eq, List.drop_drop] at dropped
    exact dropped

def map {α β : Type} {text : List Char} (transform : α → β)
    (found : Match α text) :
    Match β text :=
  { found with value := transform found.value }

def empty {α : Type} (value : α) (text : List Char) : Match α text :=
  ⟨value, 0, text, Nat.zero_le _, rfl⟩

end Match

namespace Rule

def pure {α : Type} (value : α) : Rule α :=
  fun text => ⟨.matched (.empty value text), 0⟩

def fail {α : Type} : Rule α := fun _ => ⟨.refused, 0⟩

def giveUp {α : Type} : Rule α := fun _ => ⟨.tooDeep, 0⟩

def char (test : Char → Bool) : Rule Char
  | [] => ⟨.refused, 0⟩
  | c :: rest =>
      if test c then ⟨.matched ⟨c, 1, rest, by simp, rfl⟩, 0⟩ else ⟨.refused, 0⟩

/-- One character that is read before it is tested, so that a refusal is
reported behind it. -/
def charThen (test : Char → Bool) : Rule Char
  | [] => ⟨.refused, 0⟩
  | c :: rest =>
      if test c then ⟨.matched ⟨c, 1, rest, by simp, rfl⟩, 0⟩ else ⟨.refused, 1⟩

def map {α β : Type} (transform : α → β) (rule : Rule α) : Rule β := fun text =>
  let attempt := rule text
  match attempt.outcome with
  | .matched found => ⟨.matched (found.map transform), attempt.reach⟩
  | .refused => ⟨.refused, attempt.reach⟩
  | .tooDeep => ⟨.tooDeep, attempt.reach⟩

def andThen {α β : Type} (first : Rule α) (next : α → Rule β) :
    Rule β := fun text =>
  let attempt := first text
  match attempt.outcome with
  | .matched found =>
      let further := next found.value found.rest
      let reach := max attempt.reach (found.size + further.reach)
      match further.outcome with
      | .matched second => ⟨.matched (found.followedBy second), reach⟩
      | .refused => ⟨.refused, reach⟩
      | .tooDeep => ⟨.tooDeep, reach⟩
  | .refused => ⟨.refused, attempt.reach⟩
  | .tooDeep => ⟨.tooDeep, attempt.reach⟩

def before {α β : Type} (first : Rule α) (second : Rule β) : Rule β :=
  first.andThen fun _ => second

def closedBy {α β : Type} (first : Rule α) (second : Rule β) : Rule α :=
  first.andThen fun value => second.map fun _ => value

def orElse {α : Type} (first second : Rule α) : Rule α := fun text =>
  let attempt := first text
  match attempt.outcome with
  | .refused =>
      let further := second text
      ⟨further.outcome, max attempt.reach further.reach⟩
  | outcome => ⟨outcome, attempt.reach⟩

def firstOf {α : Type} (rules : List (Rule α)) : Rule α :=
  rules.foldr orElse fail

/-- Match nothing where the rule does not match. Where it does, the refusal is
reported at the front, wherever the rule itself had looked. -/
def absent {α : Type} (rule : Rule α) : Rule Unit := fun text =>
  let attempt := rule text
  match attempt.outcome with
  | .matched _ => ⟨.refused, 0⟩
  | .refused => ⟨.matched (.empty () text), attempt.reach⟩
  | .tooDeep => ⟨.tooDeep, attempt.reach⟩

def many {α : Type} (rule : Rule α) : Rule (List α) := fun text =>
  let attempt := rule text
  match attempt.outcome with
  | .matched found =>
      if progress : found.size =
        0 then ⟨.matched (.empty [] text), attempt.reach⟩
      else
        have : found.rest.length < text.length := by
          have := found.length_rest
          have := found.size_le
          omega
        let further := many rule found.rest
        let reach := max attempt.reach (found.size + further.reach)
        match further.outcome with
        | .matched others =>
            ⟨.matched ((found.followedBy others).map (found.value :: ·)), reach⟩
        | .refused => ⟨.refused, reach⟩
        | .tooDeep => ⟨.tooDeep, reach⟩
  | .refused => ⟨.matched (.empty [] text), attempt.reach⟩
  | .tooDeep => ⟨.tooDeep, attempt.reach⟩
termination_by text => text.length

def some {α : Type} (rule : Rule α) : Rule (List α) :=
  rule.andThen fun first => (many rule).map (first :: ·)

def optional {α : Type} (rule : Rule α) : Rule (Option α) :=
  (rule.map Option.some).orElse (pure none)

def word : List Char → Rule Unit
  | [] => pure ()
  | c :: rest => (char (· = c)).before (word rest)

def finish : Rule Unit := absent (char fun _ => true)

end Rule
end FencedJson.Json
