import FencedJson.Text.Reading
import FencedJson.Yaml.Lines

/-! # Plain scalars

Scalars without quotes go on until something ends them that the context decides.
-/

namespace FencedJson.Yaml

structure PlainContext where
  inFlow : Bool
  old : Bool
  /-- The least column at which a line may go on outside of flow collections. -/
  column : Nat

namespace PlainContext

def starts (context : PlainContext) (c : Char) (next : Option Char) : Bool :=
  if !(isIndicator c || isBlank c || isBreak c) then true
  else if context.inFlow then
    (c = '-' && !isGap next) ||
      (c = ':' && !context.old && next ≠ some ' ' && next ≠ some '\t')
  else (c = '-' || c = ':' || c = '?') && !isGap next

def ends (context : PlainContext) (c : Char) (next : Option Char) : Bool :=
  if c = ':' then isGap next
  else if c = '?' then context.inFlow && context.old
  else isGap (some c) || (context.inFlow && isFlowIndicator c)

def run (context : PlainContext) : List Char → List Char × List Char
  | [] => ([], [])
  | c :: rest =>
      if context.ends c rest.head? then ([], c :: rest)
      else
        let (front, after) := context.run rest
        (c :: front, after)

theorem append_run (context : PlainContext) (text : List Char) :
    (context.run text).1 ++ (context.run text).2 = text := by
  induction text with
  | nil => rfl
  | cons c rest induction => grind [run]

end PlainContext

structure PlainGap where
  /-- What it stands for. The scalar ends where this is empty. -/
  value : List Char
  rest : List Char
  broken : Bool
  column : Nat

def plainGap (text : List Char) : PlainGap :=
  let width := (text.takeWhile (· = ' ')).length
  match text.dropWhile (· = ' ') with
  | [] => ⟨List.replicate width ' ', [], false, 0⟩
  | c :: rest =>
      if isBreak c then
        let found := interval (· = ' ') 0 rest
        ⟨if found.separated then [] else folded (breakValue c) found.breaks,
          found.rest, true, found.column⟩
      else ⟨List.replicate width ' ', c :: rest, false, 0⟩

theorem length_rest_plainGap_le (text : List Char) :
    (plainGap text).rest.length ≤ text.length := by
  have within := length_dropWhile_le (fun c => decide (c = ' ')) text
  unfold plainGap
  split
  · simp
  · next c rest found =>
    rw [found, List.length_cons] at within
    have := length_rest_interval_le (fun c => decide (c = ' ')) 0 rest
    split
    · simp only; omega
    · simpa using within

structure PlainScalar where
  value : List Char
  rest : List Char
  broken : Bool

def PlainContext.endsAfter (context : PlainContext) (gap : PlainGap) : Bool :=
  gap.value.isEmpty || gap.rest.head? = some '#' ||
    (!context.inFlow && gap.broken && gap.column < context.column)

def plainScalar (context : PlainContext) (before : PlainGap) : PlainScalar :=
  match _found : context.run before.rest with
  | ([], rest) => ⟨[], rest, before.broken⟩
  | (c :: run, rest) =>
      have : rest.length < before.rest.length := by
        have whole := congrArg List.length (context.append_run before.rest)
        simp_all +arith
        omega
      let gap := plainGap rest
      have := length_rest_plainGap_le rest
      let value := before.value ++ c :: run
      if context.endsAfter gap then ⟨value, gap.rest, gap.broken⟩
      else
        let further := plainScalar context gap
        { further with value := value ++ further.value }
termination_by before.rest.length

def readPlain (context : PlainContext) (text : List Char) : PlainScalar :=
  plainScalar context ⟨[], text, false, 0⟩

end FencedJson.Yaml
