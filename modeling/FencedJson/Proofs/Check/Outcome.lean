import FencedJson.Proofs.Check.Located
import FencedJson.Proofs.Check.Markers

/-! # What comes of an answer

A validator asks the parser for the language of a block. Whatever that parser
answers, there is no error, or one error at a place in the file, or the parser
has broken down.
-/

namespace FencedJson.Check

open Position (Names)

variable {parsers : Parsers} {block : Node}

/-! ## The parser that is asked -/

theorem isStrict_iff : isStrict block ↔ block.lang = some "json" := beq_iff_eq

/-- What the parser for the language of a block says of its text. -/
def Parsers.answer (parsers : Parsers) (block : Node) :
    Except ParserFailure Unit :=
  (if block.lang = some "json" then parsers.strict else parsers.relaxed)
  (block.value.getD "")

theorem validate_eq (parsers : Parsers) (block : Node) :
    validate parsers block =
    match parsers.answer block with
    | .ok () => .ok none
    | .error (.broken kind message) => .error (.broken kind message)
    | .error (.rejected rejection) => (locate block rejection).map some := by
  have asked : (if isStrict block then parsers.strict else parsers.relaxed)
      (blockText block) = parsers.answer block := by
    simp only [Parsers.answer, isStrict_iff, blockText]
  rcases answered : parsers.answer block with failure | accepted
  · cases failure <;> simp only [validate, asked, answered]
  · simp only [validate, asked, answered]

theorem validate_eq_none_iff :
    validate parsers block = .ok none ↔ parsers.answer block = .ok () := by
  rw [validate_eq]
  split
  · next accepted => simp [accepted]
  · next broken => simp [broken]
  · next rejection rejected =>
        cases locate block rejection <;> simp [rejected, Except.map]

theorem exists_verdict_ne (parsers : Parsers) (block : Node) :
    ∃ contrary : Except ParserFailure Unit, ∀ other :
    Parsers, other.answer block = contrary →
      validate other block ≠ validate parsers block := by
  by_cases accepted : validate parsers block = .ok none
  · refine ⟨.error (.broken .general ""), fun other answered same => ?_⟩
    rw [validate_eq_none_iff.1 (same.trans accepted)] at answered
    cases answered
  · refine ⟨.ok (), fun other answered same => accepted ?_⟩
    rw [← same, validate_eq_none_iff, answered]

theorem exists_strict_iff (parsers : Parsers) (block : Node) :
    (∃ strict, validate ⟨strict, parsers.relaxed⟩ block ≠
      validate parsers block) ↔ block.lang = some "json" := by
  constructor
  · rintro ⟨strict, differs⟩
    by_contra other
    exact differs (by simp only [validate_eq, Parsers.answer, if_neg other])
  · intro json
    rcases exists_verdict_ne parsers block with ⟨contrary, differs⟩
    exact ⟨fun _ => contrary, differs _ (by rw [Parsers.answer, if_pos json])⟩

theorem exists_relaxed_iff (parsers : Parsers) (block : Node) :
    (∃ relaxed, validate ⟨parsers.strict, relaxed⟩ block ≠
      validate parsers block) ↔ block.lang ≠ some "json" := by
  constructor
  · rintro ⟨relaxed, differs⟩ json
    exact differs (by simp only [validate_eq, Parsers.answer, if_pos json])
  · intro other
    rcases exists_verdict_ne parsers block with ⟨contrary, differs⟩
    exact ⟨fun _ => contrary, differs _ (by rw [Parsers.answer, if_neg other])⟩

/-! ## Rejections -/

/-- How the error of a rejected block is placed. -/
structure IsPlaced (block : Node) (rejection : Rejection) (error : BlockError) :
    Prop where
  message : error.message = rejection.message
  column_pos : 1 ≤ error.column
  line_le : block.startLine ≤ error.line
  /-- The strict parser names an offset, by the first marker in its message. -/
  marked : block.lang = some "json" →
      ∀ digits, Names rejection.message.toList digits →
    let position := Position.ofOffset (blockText block).toList
        (decimalNumber digits)
    (error.line : Int) = block.startLine + position.line ∧
    error.column = position.column
  unmarked : block.lang = some "json" →
      (∀ digits, ¬ Names rejection.message.toList digits) →
    (error.line : Int) = block.startLine ∧ error.column = 1
  numbered : block.lang ≠ some "json" → ∀ words line column,
    rejection = .located words line column →
      (error.line : Int) = block.startLine + line ∧
      (error.column : Int) = max column 1
  unnumbered : block.lang ≠ some "json" →
    (∀ words line column, rejection = .located words line column →
      line = 0 ∧ column = 0) →
    (error.line : Int) = block.startLine ∧ error.column = 1

theorem exists_isPlaced_of_strict {rejection : Rejection}
    (json : block.lang = some "json") (starts : 1 ≤ block.startLine)
    (short : ∀ digits, Names rejection.message.toList digits →
      digits.length ≤ integerDigitLimit) :
    ∃ error, locate block rejection = .ok error ∧
    IsPlaced block rejection error := by
  have strict := isStrict_iff.2 json
  by_cases marked : ∃ digits, Names rejection.message.toList digits
  · rcases marked with ⟨digits, names⟩
    have recovered := Position.recover_of_names names (short digits names)
        (blockText block).toList
    rcases exists_locate_of_isStrict strict starts recovered with
      ⟨error, located, line, column, message⟩
    have inside :
        1 ≤ (Position.ofOffset (blockText block).toList
          (decimalNumber digits)).column :=
      Nat.le_add_left ..
    refine ⟨error, located, message,
      error.column_pos, by
        omega, fun _ others names' => ?_, fun _ unmarked =>
          absurd names (unmarked digits), absurd json, absurd json⟩
    rw [names'.unique names]
    exact ⟨line, by omega⟩
  · have unmarked := not_exists.1 marked
    have recovered := Position.recover_of_unmarked unmarked
        (blockText block).toList
    rcases exists_locate_of_isStrict strict starts recovered with
      ⟨error, located, line, column, message⟩
    refine ⟨error, located, message, error.column_pos, by omega,
      fun _ digits names => absurd names (unmarked digits), fun _ _ => ?_,
      absurd json, absurd json⟩
    exact ⟨by simpa [Position.none] using line, column⟩

theorem exists_isPlaced_of_relaxed {rejection : Rejection}
    (other : block.lang ≠ some "json") (starts : 1 ≤ block.startLine)
    (nonneg : ∀ words line column, rejection = .located words line column →
      0 ≤ line) :
    ∃ error, locate block rejection = .ok error ∧
    IsPlaced block rejection error := by
  have relaxed : isStrict block = false :=
    Bool.eq_false_iff.2 (isStrict_iff.not.2 other)
  have forward : 0 ≤ rejection.lineColumn.1 := by
    cases rejection with
    | located words line column => exact nonneg words line column rfl
    | refused | tooDeep => exact Int.le_refl 0
  rcases exists_locate_of_not_isStrict relaxed starts forward with
    ⟨error, located, line, column, message⟩
  refine ⟨error, located, message,
    error.column_pos, by
      omega, fun json => absurd json other, fun json => absurd json other,
      fun _ words first second same => ?_, fun _ none => ?_⟩
  · subst same
    exact ⟨line, column⟩
  · have unnumbered : rejection.lineColumn = (0, 0) := by
      cases rejection with
      | located words first second =>
          exact Prod.ext_iff.2 (none words first second rfl)
      | refused | tooDeep => rfl
    rw [unnumbered] at line column
    dsimp only at line column
    omega

/-- The parser that is asked is the strict one just for blocks in JSON. If it
accepts the text, there is no error. If it rejects the text, there is one error,
in the words of the rejection, at a place in the file from the fence on. If it
breaks down, nothing comes of the block. -/
theorem validate_outcome (parsers : Parsers) {block : Node}
    (starts : 1 ≤ block.startLine) :
    ((∃ strict, validate ⟨strict, parsers.relaxed⟩ block ≠
      validate parsers block) ↔ block.lang = some "json") ∧
    ((∃ relaxed, validate ⟨parsers.strict, relaxed⟩ block ≠
      validate parsers block) ↔ block.lang ≠ some "json") ∧
    match parsers.answer block with
    | .ok () => validate parsers block = .ok none
    | .error (.broken kind message) =>
        validate parsers block = .error (.broken kind message)
    | .error (.rejected rejection) =>
        (block.lang = some "json" →
          ∀ digits, Names rejection.message.toList digits →
          digits.length ≤ integerDigitLimit) →
        (block.lang ≠ some "json" → ∀ message line column,
          rejection = .located message line column → 0 ≤ line) →
        ∃ error, validate parsers block = .ok (some error) ∧
        IsPlaced block rejection error := by
  refine ⟨exists_strict_iff parsers block, exists_relaxed_iff parsers block, ?_⟩
  rw [validate_eq]
  split
  · rfl
  · rfl
  · next rejection rejected =>
      intro short nonneg
      have placed : ∃ error, locate block rejection = .ok error ∧
          IsPlaced block rejection error := by
        by_cases json : block.lang = some "json"
        · exact exists_isPlaced_of_strict json starts (short json)
        · exact exists_isPlaced_of_relaxed json starts (nonneg json)
      rcases placed with ⟨error, located, placed⟩
      exact ⟨error, congrArg (Except.map some) located, placed⟩

/-- The first marker lacks its digits, and the second one names an offset past
the end. The other block has no text, no line and no language. -/
theorem validate_outcome_past_end :
    let message := "bad (char x) at position 07 (char 1)"
    let parsers : Parsers :=
      ⟨fun _ => .error (.rejected (.refused message)),
        fun _ => .error (.rejected (.located "odd" 2 (-4)))⟩
    let strict := Node.mk none (some "json") (some "[\n\r\n1]") (some 5) []
    let bare := Node.mk none none none none []
    Names message.toList ['0', '7'] ∧
      (∃ error, validate parsers strict = .ok (some error) ∧
        error.message = message ∧ error.line = 7 ∧ error.column = 3) ∧
      ∃ error, validate parsers bare = .ok (some error) ∧
      error.message = "odd" ∧ error.line = 3 ∧ error.column = 1 := by
  intro message parsers strict bare
  have names : Names message.toList ['0', '7'] :=
    Position.namedDigits?_eq_some_iff.1 (by decide +kernel)
  have short : ∀ digits, Names message.toList digits →
      digits.length ≤ integerDigitLimit := by
    intro digits names'
    rw [names'.unique names]
    decide
  rcases (validate_outcome parsers (show 1 ≤ strict.startLine by decide)).2.2
    (fun _ => short) (absurd rfl) with ⟨error, validated, placed⟩
  rcases (validate_outcome parsers (show 1 ≤ bare.startLine by decide)).2.2
    nofun (fun _ _ _ _ same => by cases same; decide) with
      ⟨error', validated', placed'⟩
  refine ⟨names, ⟨error, validated, placed.message, ?_⟩, error', validated',
    placed'.message, ?_⟩
  · have position : Position.ofOffset (blockText strict).toList
        (decimalNumber ['0', '7']) = ⟨2, 3, 7⟩ := by decide
    rcases placed.marked rfl _ names with ⟨line, column⟩
    rw [position] at line column
    have start : strict.startLine = 5 := rfl
    dsimp only at line column
    omega
  · rcases placed'.numbered nofun "odd" 2 (-4) rfl with ⟨line, column⟩
    have start : bare.startLine = 1 := rfl
    omega

end FencedJson.Check
