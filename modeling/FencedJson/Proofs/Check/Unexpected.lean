import FencedJson.Proofs.Check.Verdict

/-! # Reports on relaxed texts

A relaxed text that the grammar refuses is reported at the character that it
refuses, except when that is a line feed. Refusals of other kinds are reported
at the fence.
-/

namespace FencedJson.Check

open Json.Relaxed (Error document namedPlace parse)

def shown : Option Char → String
  | some c => "\"" ++ String.singleton c ++ "\""
  | none => "end of input"

theorem message_unexpected (found : Option Char) (place : Place) :
    (Error.unexpected found place).message =
      s!"<string>:{place.line} Unexpected {shown found} at column {place.column}" := by
  refine String.toList_injective ?_
  rw [Json.Relaxed.toList_message_unexpected]
  change _ = ("<string>:" ++ place.line.repr ++ " Unexpected " ++ shown found ++
    " at column " ++ place.column.repr).toList
  simp only [String.toList_append, Nat.toList_repr, List.append_assoc]
  cases found with
  | none =>
      rw [shown, String.toList_ofList, String.toList_ofList,
        String.toList_ofList]
      rfl
  | some c =>
      simp only [shown, String.toList_append, String.toList_singleton]
      rw [String.toList_ofList, String.toList_ofList, String.toList_ofList]
      rfl

section

variable {stack : Stack} {text : String}

theorem parse_of_refused (nonempty : text ≠ "")
    (refused : (document (stack.relaxedLevels text) text.toList).outcome =
      .refused) :
    ∃ offset ≤ text.length, parse stack text =
      .error
        (.unexpected text.toList[offset]?
          (Place.after (text.toList.take offset))) := by
  have within :=
    (Json.Relaxed.ensures_document (stack.relaxedLevels text) text.toList).1
  refine ⟨(document (stack.relaxedLevels text) text.toList).reach,
    String.length_toList ▸ within, ?_⟩
  simp [parse, nonempty, refused, Json.Relaxed.unexpectedAt,
    Place.ofOffset_eq_after within]

theorem refused_of_parse {found : Option Char} {place : Place}
    (failed : parse stack text = .error (.unexpected found place)) :
    text ≠ "" ∧ (document (stack.relaxedLevels text) text.toList).outcome =
      .refused := by
  unfold parse at failed
  split at failed
  · cases failed
  · next nonempty =>
      dsimp only at failed
      split at failed
      · exact (Json.Relaxed.Tree.isNumeric_of_convert failed).elim
      · next refused => exact ⟨by simpa using nonempty, refused⟩
      · cases failed

/-- Where the grammar refuses no character, a numeral has no value or the
nesting is too deep, unless there is no text at all. -/
theorem unplaced_of_parse {error : Error}
    (failed : parse stack text = .error error) (matched :
      text = "" ∨ (document (stack.relaxedLevels text) text.toList).outcome ≠
        .refused) :
    text = "" ∧ error = .empty ∨ error.IsNumeric ∨
      error = .tooDeep (stack.relaxedOverflow text) := by
  unfold parse at failed
  split at failed
  · next empty =>
      cases failed
      exact .inl ⟨by simpa using empty, rfl⟩
  · next nonempty =>
      dsimp only at failed
      split at failed
      · exact .inr (.inl (Json.Relaxed.Tree.isNumeric_of_convert failed))
      · next refused =>
          rcases matched with empty | other
          · simp [empty] at nonempty
          · exact absurd refused other
      · cases failed
        exact .inr (.inr rfl)

def failure? (stack : Stack) (text : String) : Option Error :=
  match parse stack text with
  | .ok _ => none
  | .error error => some error

theorem parse_of_failure? {error : Error}
    (found : failure? stack text = some error) :
    parse stack text = .error error := by
  unfold failure? at found
  split at found
  · cases found
  · next failed => rw [failed, Option.some.inj found]

theorem exists_report_of_relaxed {block : Node} {error : Error}
    (relaxed : isStrict block = false) (starts : 1 ≤ block.startLine)
    (failed : parse stack (blockText block) = .error error) :
    ∃ report, validate (.standard stack) block = .ok (some report) ∧
      report.message = error.message ∧
      (report.line : Int) = block.startLine + (namedPlace error.message).1 ∧
      report.column = max (namedPlace error.message).2 1 := by
  rcases rejection_of_relaxed failed with ⟨rejection, rejected, message, named⟩
  rw [← Json.Relaxed.namedPlace_of_parse failed] at named
  have nonneg : 0 ≤ rejection.lineColumn.1 := by
    rw [named]
    exact Int.natCast_nonneg _
  rcases exists_locate_of_not_isStrict relaxed starts nonneg with
    ⟨report, located, line, column, words⟩
  rw [named] at line column
  refine ⟨report, ?_, words.trans message, line, by dsimp only at column; omega⟩
  simp [validate, relaxed, Parsers.standard, rejected, located, Except.map]

end

/-- A text that the grammar refuses at some offset is refused with the words for
the character there. Line and column are read off these words, and the report of
a block is placed by them, unless the character is a line feed: then, as for an
empty text, a numeral without a value and a nesting that is too deep, the report
is at the fence. -/
theorem relaxed_error_position (stack : Stack) (text : String) :
    (text ≠ "" → (document (stack.relaxedLevels text) text.toList).outcome =
      .refused → ∃ offset ≤ text.length, ∃ error,
        let before := text.toList.take offset
        let line := 1 + before.count '\n'
        let column := Place.columnAfter before
        let found := text.toList[offset]?
        parse stack text = .error error ∧
        error.message =
          s!"<string>:{line} Unexpected {shown found} at column {column}" ∧
        namedPlace error.message =
          (if found = some '\n' then (0, 0) else (line, column)) ∧
        ∀ block, isStrict block = false → 1 ≤ block.startLine →
        blockText block = text →
          ∃ report, validate (.standard stack) block = .ok (some report) ∧
            report.message = error.message ∧
            if found = some '\n' then (report.line : Int) = block.startLine ∧
              report.column = 1
            else (report.line : Int) = block.startLine + line ∧
              report.column = column) ∧
    ∀ error, parse stack text = .error error →
      (text = "" ∨ (document (stack.relaxedLevels text) text.toList).outcome ≠
        .refused) → (text = "" ∧ error = .empty ∨ error.IsNumeric ∨
          error = .tooDeep (stack.relaxedOverflow text)) ∧
        namedPlace error.message = (0, 0) ∧
        ∀ block, isStrict block = false → 1 ≤ block.startLine →
        blockText block = text →
          ∃ report, validate (.standard stack) block = .ok (some report) ∧
            report.message = error.message ∧
            (report.line : Int) = block.startLine ∧ report.column = 1 := by
  constructor
  · intro nonempty refused
    rcases parse_of_refused nonempty refused with ⟨offset, within, failed⟩
    have named := Json.Relaxed.namedPlace_unexpected text.toList[offset]?
      (Place.after (text.toList.take offset))
    rw [Place.after, Nat.add_comm] at failed named
    refine ⟨offset, within, _, failed, message_unexpected .., named, ?_⟩
    rintro block relaxed starts rfl
    rcases exists_report_of_relaxed relaxed starts failed with
      ⟨report, validated, message, line, column⟩
    refine ⟨report, validated, message, ?_⟩
    rw [named] at line column
    split
    · next feed =>
        rw [if_pos feed] at line column
        exact ⟨by omega, by omega⟩
    · next other =>
        rw [if_neg other] at line column
        have one : 1 ≤
            Place.columnAfter ((blockText block).toList.take offset) :=
          Nat.le_add_left ..
        exact ⟨line, by dsimp only at column; omega⟩
  · intro error failed matched
    have unplaced := unplaced_of_parse failed matched
    have named : namedPlace error.message = (0, 0) := by
      rw [Json.Relaxed.namedPlace_of_parse failed]
      cases error with
      | unexpected found place => simp [Error.IsNumeric] at unplaced
      | _ => rfl
    refine ⟨unplaced, named, ?_⟩
    rintro block relaxed starts rfl
    rcases exists_report_of_relaxed relaxed starts failed with
      ⟨report, validated, message, line, column⟩
    rw [named] at line column
    exact ⟨report, validated, message, by omega, by omega⟩

/-- The refused character is a colon, as is the one in front of the line. -/
theorem relaxed_error_position_colon :
    "[1,\n:]" ≠ "" ∧ (document 62 "[1,\n:]".toList).outcome = .refused ∧
      ∃ report, validate (.standard .standard)
      (.codeBlock "[1,\n:]" (some "json5") 7) =
          .ok (some report) ∧ report.line = 9 ∧ report.column = 1 ∧
        report.message = "<string>:2 Unexpected \":\" at column 1" := by
  have parsed : parse .standard "[1,\n:]" =
      .error (.unexpected (some ':') ⟨2, 1, 4⟩) :=
    parse_of_failure? (by decide +kernel)
  rcases refused_of_parse parsed with ⟨nonempty, refused⟩
  rcases (relaxed_error_position .standard "[1,\n:]").1 nonempty refused with
    ⟨offset, -, error, failed, -, named, reports⟩
  rcases reports (.codeBlock "[1,\n:]" (some "json5") 7) rfl
    (by decide) rfl with ⟨report, validated, message, placed⟩
  rw [parsed] at failed
  cases failed
  rw [Json.Relaxed.namedPlace_unexpected, if_neg (by decide)] at named
  split at named
  · cases named
  · next other =>
      rw [if_neg other] at placed
      rcases Prod.mk.inj named with ⟨line, column⟩
      have start : (Node.codeBlock "[1,\n:]" (some "json5") 7).startLine = 7 :=
        rfl
      dsimp only at line column
      refine ⟨nonempty, refused, report,
        validated, by omega, placed.2.trans column.symm, ?_⟩
      rw [message, message_unexpected]
      rfl

/-- A string stands open at the end of a line: its place is in the words of the
refusal, and none is read off them. -/
theorem relaxed_error_position_broken_string :
    "\"abc\n\"" ≠ "" ∧ (document 62 "\"abc\n\"".toList).outcome = .refused ∧
      ∃ error, parse .standard "\"abc\n\"" = .error error ∧
        error.message = "<string>:1 Unexpected \"\n\" at column 5" ∧
        namedPlace error.message = (0, 0) := by
  have parsed : parse .standard "\"abc\n\"" =
      .error (.unexpected (some '\n') ⟨1, 5, 4⟩) :=
    parse_of_failure? (by decide +kernel)
  rcases refused_of_parse parsed with ⟨nonempty, refused⟩
  refine ⟨nonempty, refused, _, parsed, ?_, ?_⟩
  · rw [message_unexpected]
    rfl
  · rw [Json.Relaxed.namedPlace_unexpected, if_pos rfl]

end FencedJson.Check
