import FencedJson.Proofs.Check.Located
import FencedJson.Proofs.Check.NamedPlace
import FencedJson.Proofs.Markdown.Fence

/-! # Verdicts on fences

A JSON fence is accepted by the parser of its language, or it is refused and has
one report with the words of that parser. The line of the report is that of the
fence where the parser knows no place.
-/

namespace FencedJson.Check

open Markdown (Fence)

inductive ParseError where
  | strict (error : Json.Strict.Error)
  | relaxed (error : Json.Relaxed.Error)
  deriving DecidableEq

namespace ParseError

def message : ParseError → String
  | strict error => error.message
  | relaxed error => error.message

def line (text : String) : ParseError → Nat
  | strict error => (strictPosition text.toList error).line
  | relaxed error => error.lineColumn.1

/-- The refused character is a line feed of a relaxed text. -/
def IsAtLineFeed : ParseError → Prop
  | relaxed (.unexpected (some '\n') _) => True
  | _ => False

end ParseError

/-- Why the parser of its language refuses a fence, if it does. -/
def refusal? (stack : Stack) (fence : Fence) : Option ParseError :=
  match fence.language with
  | some "json" =>
      match Json.Strict.parse stack fence.text with
      | .ok _ => none
      | .error error => some (.strict error)
  | some "json5" =>
      match Json.Relaxed.parse stack fence.text with
      | .ok _ => none
      | .error error => some (.relaxed error)
  | _ => none

/-! ## The verdict on a fence -/

section

variable {stack : Stack} {fence : Fence} {error : ParseError}

theorem refusal?_eq_some_iff : refusal? stack fence = some error ↔
    (fence.language = some "json" ∧
      ∃ reason, Json.Strict.parse stack fence.text = .error reason ∧
      error = .strict reason) ∨
    (fence.language = some "json5" ∧
      ∃ reason, Json.Relaxed.parse stack fence.text = .error reason ∧
      error = .relaxed reason) := by
  unfold refusal?
  split
  · next json =>
        cases Json.Strict.parse stack fence.text <;> simp [json, eq_comm]
  · next json =>
        cases Json.Relaxed.parse stack fence.text <;> simp [json, eq_comm]
  · next notStrict notRelaxed =>
      have other : fence.language ≠ some "json" ∧
          fence.language ≠ some "json5" :=
        ⟨notStrict, notRelaxed⟩
      simp [other]

theorem language_of_isJson (json : fence.isJson) :
    fence.language = some "json" ∨ fence.language = some "json5" := by
  unfold Fence.isJson at json
  split at json
  · next lang found => simpa [found, jsonLanguages] using json
  · simp at json

theorem refusal?_eq_none_iff (json : fence.isJson) :
    refusal? stack fence = none ↔
    if fence.language = some "json" then ∃ value, Json.Strict.parse stack
      fence.text = .ok value
    else ∃ value, Json.Relaxed.parse stack fence.text = .ok value := by
  unfold refusal?
  rcases language_of_isJson json with found | found
  · cases Json.Strict.parse stack fence.text <;> simp [found]
  · cases Json.Relaxed.parse stack fence.text <;> simp [found]

theorem isJson_of_refusal? (refused : refusal? stack fence = some error) :
    fence.isJson := by
  rcases refusal?_eq_some_iff.1 refused with ⟨found, -⟩ | ⟨found, -⟩ <;>
    simp [Fence.isJson, found, jsonLanguages]

theorem isStrict_node : isStrict fence.node = (fence.language == some "json") :=
  rfl

theorem rejection_of_relaxed {text : String} {reason : Json.Relaxed.Error}
    (refused : Json.Relaxed.parse stack text = .error reason) :
    ∃ rejection, Parsers.acceptRelaxed stack text =
      .error (.rejected rejection) ∧ rejection.message = reason.message ∧
      rejection.lineColumn = ((reason.lineColumn.1 : Int),
        (reason.lineColumn.2 : Int)) := by
  have named := Json.Relaxed.namedPlace_of_parse refused
  unfold Parsers.acceptRelaxed
  rw [refused]
  cases reason with
  | tooDeep => exact ⟨_, rfl, rfl, rfl⟩
  | _ =>
      dsimp only
      rw [named]
      exact ⟨_, rfl, rfl, rfl⟩

theorem validate_of_accepted (json : fence.isJson)
    (accepted : refusal? stack fence = none) :
    validate (.standard stack) fence.node = .ok none := by
  have parsed := (refusal?_eq_none_iff json).1 accepted
  split at parsed
  · next found =>
      rcases parsed with ⟨value, parsed⟩
      have text : blockText fence.node = fence.text := rfl
      simp [validate, isStrict_node, found, Parsers.standard,
        Parsers.acceptStrict, text, parsed]
  · next other =>
      rcases parsed with ⟨value, parsed⟩
      have text : blockText fence.node = fence.text := rfl
      simp [validate, isStrict_node, other, Parsers.standard,
        Parsers.acceptRelaxed, text, parsed]

/-- A refused fence has one report, with the words of its parser, and its lines
count from the line of the fence. -/
theorem exists_validate_of_refused (starts : 1 ≤ fence.line)
    (short : fence.text.length < 10 ^ integerDigitLimit)
    (refused : refusal? stack fence = some error) :
    ∃ report, validate (.standard stack) fence.node = .ok (some report) ∧
      report.line = fence.line + error.line fence.text ∧
      report.message = error.message := by
  have begins : (1 : Int) ≤ fence.node.startLine := Int.ofNat_le.2 starts
  rcases refusal?_eq_some_iff.1 refused with ⟨found, reason, parsed, rfl⟩ |
    ⟨found, reason, parsed, rfl⟩
  · have strict : isStrict fence.node := by simp [isStrict_node, found]
    rcases exists_validate_of_strict strict begins short parsed with
      ⟨report, validated, line, -, message⟩
    exact ⟨report, validated, Int.ofNat_inj.1 line, message⟩
  · have relaxed : isStrict fence.node = false := by simp [isStrict_node, found]
    rcases rejection_of_relaxed parsed with ⟨rejection, rejected, message, same⟩
    have nonneg : 0 ≤ rejection.lineColumn.1 := by
      rw [same]
      exact Int.natCast_nonneg _
    rcases exists_locate_of_not_isStrict relaxed begins nonneg with
      ⟨report, located, line, -, words⟩
    rw [same] at line
    refine ⟨report, ?_, Int.ofNat_inj.1 line, words.trans message⟩
    have text : blockText fence.node = fence.text := rfl
    simp [validate, relaxed, Parsers.standard, text, rejected,
      located, Except.map]

/-! ## The line of a refusal -/

end

end FencedJson.Check
