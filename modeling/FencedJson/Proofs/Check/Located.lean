import FencedJson.Check.Validation
import FencedJson.Proofs.Check.NamedOffset

/-! # Where an error is reported

The error of a rejected block stands at the line of the block plus the line that
the rejection names. For the strict parser that is the line of the named offset.
-/

namespace FencedJson.Check

/-- A text that a memory with addresses of sixty-four bits can hold. -/
def IsAddressable (text : String) : Prop := text.length < 2 ^ 63

instance (text : String) : Decidable (IsAddressable text) :=
  inferInstanceAs (Decidable (text.length < 2 ^ 63))

/-! ## Rejections -/

theorem BlockError.exists_ofParts (line column : Int) (message : String)
    (line_pos : 1 ≤ line) (column_pos : 1 ≤ column) :
    ∃ error, ofParts line column message = .ok error ∧
    (error.line : Int) = line ∧
      (error.column : Int) = column ∧ error.message = message :=
  ⟨_, ofParts_of_pos message line_pos column_pos,
    Int.toNat_of_nonneg (by omega), Int.toNat_of_nonneg (by omega), rfl⟩

theorem exists_locate_of_isStrict {block : Node} {rejection : Rejection}
    {position : Position} (strict : isStrict block)
    (starts : 1 ≤ block.startLine)
    (recovered : Position.recover rejection.message (blockText block).toList =
      .ok position) :
    ∃ error, locate block rejection = .ok error ∧
      (error.line : Int) = block.startLine + position.line ∧
      error.column = max position.column 1 ∧
      error.message = rejection.message := by
  rcases BlockError.exists_ofParts
    (block.startLine + position.line) (max position.column 1) rejection.message
    (by omega) (by omega) with ⟨error, made, line, column, message⟩
  refine ⟨error, ?_, line, by omega, message⟩
  simp only [locate, strict, if_true, recovered, made, Except.mapError]

theorem exists_locate_of_not_isStrict {block : Node} {rejection : Rejection}
    (relaxed : isStrict block = false) (starts : 1 ≤ block.startLine)
    (line_nonneg : 0 ≤ rejection.lineColumn.1) :
    ∃ error, locate block rejection = .ok error ∧
      (error.line : Int) = block.startLine + rejection.lineColumn.1 ∧
      (error.column : Int) = max rejection.lineColumn.2 1 ∧
      error.message = rejection.message := by
  rcases BlockError.exists_ofParts
    (block.startLine + rejection.lineColumn.1)
    (max rejection.lineColumn.2 1) rejection.message (by omega) (by omega) with
      ⟨error, made, line, column, message⟩
  refine ⟨error, ?_, line, column, message⟩
  simp [locate, relaxed, made, Except.mapError]

/-! ## The strict parser -/

def strictPosition (text : List Char) : Json.Strict.Error → Position
  | .fault _ place => Position.ofOffset text place.offset
  | _ => Position.none

theorem recover_of_parse {stack : Stack} {text : String}
    {error : Json.Strict.Error} (short : text.length < 10 ^ integerDigitLimit)
    (refused : Json.Strict.parse stack text = .error error) :
    Position.recover error.message text.toList =
      .ok (strictPosition text.toList error) := by
  cases error with
  | fault reason place =>
      rcases Json.Strict.place_of_parse refused with ⟨known, within, -⟩
      exact Position.recover_fault known (Nat.lt_of_le_of_lt within short) _
  | integerTooLong digits => exact Position.recover_integerDigitMessage digits _
  | tooDeep overflow => exact Position.recover_overflow overflow _

theorem rejection_of_strict {stack : Stack} {text : String}
    {error : Json.Strict.Error}
    (refused : Json.Strict.parse stack text = .error error) :
    ∃ rejection, Parsers.acceptStrict stack text =
      .error (.rejected rejection) ∧ rejection.message = error.message := by
  unfold Parsers.acceptStrict
  rw [refused]
  cases error <;> exact ⟨_, rfl, rfl⟩

theorem exists_validate_of_strict {stack : Stack} {block : Node}
    {error : Json.Strict.Error} (strict : isStrict block)
    (starts : 1 ≤ block.startLine)
    (short : (blockText block).length < 10 ^ integerDigitLimit)
    (refused : Json.Strict.parse stack (blockText block) = .error error) :
    ∃ report, validate (.standard stack) block = .ok (some report) ∧
      (report.line : Int) =
        block.startLine + (strictPosition (blockText block).toList error).line ∧
      report.column =
        max (strictPosition (blockText block).toList error).column 1 ∧
      report.message = error.message := by
  rcases rejection_of_strict refused with ⟨rejection, rejected, same⟩
  have recovered := recover_of_parse short refused
  rw [← same] at recovered
  rcases exists_locate_of_isStrict strict starts recovered with
    ⟨report, located, line, column, message⟩
  refine ⟨report, ?_, line, column, message.trans same⟩
  simp only [validate, strict, if_true, Parsers.standard, rejected,
    located, Except.map]

theorem lt_pow_of_isAddressable {text : String}
    (addressable : IsAddressable text) :
    text.length < 10 ^ integerDigitLimit :=
  calc text.length
    _ < 2 ^ 63 := addressable
    _ < 10 ^ 63 := Nat.pow_lt_pow_left (by decide) (by decide)
    _ ≤ 10 ^ integerDigitLimit := Nat.pow_le_pow_right (by decide) (by decide)

/-- A refused block whose text has no carriage returns is reported in the true
column. Its line falls short of the true one by the line feeds in front of the
place that directly follow another one. A refusal without a place is reported at
the fence. -/
theorem strict_error_position {stack : Stack} {block : Node}
    {error : Json.Strict.Error} (strict : block.lang = some "json")
    (starts : 1 ≤ block.startLine)
    (addressable : IsAddressable (blockText block))
    (plain : '\r' ∉ (blockText block).toList)
    (refused : Json.Strict.parse stack (blockText block) = .error error) :
    ∃ report, validate (.standard stack) block = .ok (some report) ∧
      report.message = error.message ∧
      match error with
      | .fault _ place =>
          let before := (blockText block).toList.take place.offset
          place.offset ≤ (blockText block).length ∧
          place.line = 1 + before.count '\n' ∧
            place.column = Place.columnAfter before ∧
            (∃ position,
              Position.recover error.message (blockText block).toList =
                .ok position ∧ position.offset = place.offset) ∧
            report.column = place.column ∧
            (report.line : Int) =
              block.startLine + place.line - Position.repeatedBreaks before ∧
            ((report.line : Int) = block.startLine + place.line ↔
              ¬ ['\n', '\n'] <:+: before)
      | _ => (report.line : Int) = block.startLine ∧ report.column = 1 := by
  have isStrict : isStrict block := by simp [isStrict, strict]
  have short := lt_pow_of_isAddressable addressable
  rcases exists_validate_of_strict isStrict starts short refused with
    ⟨report, validated, line, column, message⟩
  refine ⟨report, validated, message, ?_⟩
  cases error with
  | fault reason place =>
      rcases Json.Strict.place_of_parse refused with ⟨-, within, placed⟩
      rcases Position.ofOffset_of_plain plain place.offset with ⟨lines, columns⟩
      rw [← placed] at lines columns
      simp only [strictPosition] at line column
      have distance : (report.line : Int) = block.startLine + place.line -
          Position.repeatedBreaks
            ((blockText block).toList.take place.offset) := by omega
      have inside : 1 ≤ place.column := by
        rw [placed]
        exact Nat.le_add_left ..
      refine ⟨within, ?_, ?_,
        ⟨_, recover_of_parse short refused, rfl⟩, by omega, distance, ?_⟩
      · rw [Nat.add_comm]
        exact congrArg Place.line placed
      · exact congrArg Place.column placed
      · rw [← Position.repeatedBreaks_eq_zero_iff]
        omega
  | integerTooLong digits =>
      exact ⟨by simpa [strictPosition, Position.none] using line, column⟩
  | tooDeep =>
      exact ⟨by simpa [strictPosition, Position.none] using line, column⟩

/-- The second of two line feeds in a row is not counted: the bracket stands on
line ten of the file. -/
theorem strict_error_position_behind_blank_line :
    Json.Strict.parse .standard "[1,\n\n]" =
      .error (.fault .valueExpected ⟨3, 1, 5⟩) ∧
      ∃ report, validate (.standard .standard)
      (.codeBlock "[1,\n\n]" (some "json") 7) =
          .ok (some report) ∧ report.line = 9 ∧ report.column = 1 := by
  have refused : Json.Strict.parse .standard "[1,\n\n]" =
      .error (.fault .valueExpected ⟨3, 1, 5⟩) := by
    decide +kernel
  have lang : (Node.codeBlock "[1,\n\n]" (some "json") 7).lang = some "json" :=
    rfl
  rcases strict_error_position lang (by decide) (by decide)
    (by decide) refused with ⟨report, validated, -, -, -, -, -, column, line, -⟩
  refine ⟨refused, report, validated, ?_, column⟩
  have repeated : Position.repeatedBreaks ("[1,\n\n]".toList.take 5) = 1 := by
    decide
  have start : (Node.codeBlock "[1,\n\n]" (some "json") 7).startLine = 7 := rfl
  have text : blockText (Node.codeBlock "[1,\n\n]" (some "json") 7) =
      "[1,\n\n]" := rfl
  simp only [text, start, repeated] at line
  omega

end FencedJson.Check
