import FencedJson.Proofs.Check.Markers
import Mathlib.Data.Prod.Lex
import Mathlib.Order.Monotone.Basic

/-! # How positions advance

A position never falls back when its offset grows. It stays where it is only
within a run of line breaks, and behind the end of the text.
-/

namespace FencedJson

/-- What never falls back stays the same from one place to another when each
step between them leaves it the same. -/
theorem eq_iff_forall_succ_eq {α : Type} [PartialOrder α] {course : Nat → α}
    (monotone : Monotone course) {first last : Nat} (before : first ≤ last) :
    course first = course last ↔
      ∀ place, first ≤ place → place < last →
      course place = course (place + 1) := by
  constructor
  · intro same place from_first to_last
    apply le_antisymm (monotone (Nat.le_succ place))
    calc course (place + 1)
      _ ≤ course last := monotone to_last
      _ = course first := same.symm
      _ ≤ course place := monotone from_first
  · intro stays
    induction last, before using Nat.le_induction with
    | base => rfl
    | succ last before induction =>
        have here := stays last before (Nat.lt_succ_self last)
        rw [← here]
        exact induction fun place from_first to_last =>
          stays place from_first (Nat.lt_succ_of_lt to_last)

namespace Check.Position

def lineColumn (position : Position) : Nat ×ₗ Nat :=
  toLex (position.line, position.column)

theorem lineColumn_eq_iff {position other : Position} :
    position.lineColumn = other.lineColumn ↔
      position.line = other.line ∧ position.column = other.column := by
  rw [lineColumn, lineColumn, toLex_inj, Prod.mk.injEq]

theorem lineColumn_le_iff {position other : Position} :
    position.lineColumn ≤ other.lineColumn ↔ position.line < other.line ∨
      position.line = other.line ∧ position.column ≤ other.column :=
  Prod.Lex.toLex_le_toLex

/-! ## One more character -/

def endsInBreak (text : List Char) : Bool := text.getLast?.any isLineBreak

theorem breakRuns_append_singleton (text : List Char) (c : Char) :
    breakRuns (text ++ [c]) =
      breakRuns text + if isLineBreak c && !endsInBreak text then 1 else 0 := by
  -- The runs are counted from the front on, so the induction leads to the end
  -- from there.
  induction text with
  | nil => simp [breakRuns, endsInBreak]
  | cons first rest induction =>
      cases rest with
      | nil =>
          cases front : isLineBreak first <;> cases back : isLineBreak c <;>
            simp [breakRuns, endsInBreak, front, back]
      | cons second rest =>
          have ends : endsInBreak (first :: second :: rest) =
              endsInBreak (second :: rest) := by
            rw [endsInBreak, endsInBreak, List.getLast?_cons_cons]
          rw [ends, breakRuns, Nat.add_assoc, ← induction]
          rfl

theorem lastLineLength_append_singleton (text : List Char) (c : Char) :
    lastLineLength (text ++ [c]) = if isLineBreak c then 0 else lastLineLength
      text + 1 := by
  rw [lastLineLength, List.reverse_append, List.reverse_singleton,
    List.singleton_append, List.takeWhile_cons]
  cases isLineBreak c <;> rfl

private theorem lastLineLength_eq_zero {text : List Char}
    (ends : endsInBreak text) :
    lastLineLength text = 0 := by
  rcases List.eq_nil_or_concat' text with rfl | ⟨front, c, rfl⟩
  · rfl
  · have feed : isLineBreak c := by simpa [endsInBreak] using ends
    rw [lastLineLength_append_singleton, if_pos feed]

variable {text : List Char} {offset : Nat} {c : Char}

private theorem line_ofOffset_succ (found : text[offset]? = some c) :
    (ofOffset text (offset + 1)).line = (ofOffset text offset).line +
      if isLineBreak c && !endsInBreak (text.take offset) then 1 else 0 := by
  simp only [ofOffset, List.take_add_one, found, Option.toList_some,
    breakRuns_append_singleton]
  omega

private theorem column_ofOffset_succ (found : text[offset]? = some c) :
    (ofOffset text (offset + 1)).column =
      if isLineBreak c then 1 else (ofOffset text offset).column + 1 := by
  simp only [ofOffset, List.take_add_one, found, Option.toList_some,
    lastLineLength_append_singleton]
  cases isLineBreak c <;> rfl

theorem lineColumn_ofOffset_of_length_le (past : text.length ≤ offset) :
    (ofOffset text offset).lineColumn =
      (ofOffset text text.length).lineColumn := by
  simp only [lineColumn, ofOffset, List.take_of_length_le past,
    List.take_length]

/-- A step along the text goes to the next column or the next line. It goes
nowhere only from one line break to another. -/
theorem lineColumn_succ (found : text[offset]? = some c) :
    (ofOffset text offset).lineColumn ≤
      (ofOffset text (offset + 1)).lineColumn ∧
      ((ofOffset text offset).lineColumn =
        (ofOffset text (offset + 1)).lineColumn ↔
        endsInBreak (text.take offset) ∧ isLineBreak c) := by
  rw [lineColumn_le_iff, lineColumn_eq_iff, line_ofOffset_succ found,
    column_ofOffset_succ found]
  cases feed : isLineBreak c with
  | false => simp
  | true =>
      cases ends : endsInBreak (text.take offset) with
      | false => simp
      | true =>
          have column : (ofOffset text offset).column = 1 :=
            congrArg (· + 1) (lastLineLength_eq_zero ends)
          simp [column]

theorem monotone_lineColumn (text : List Char) :
    Monotone fun offset => (ofOffset text offset).lineColumn := by
  apply monotone_nat_of_le_succ
  intro offset
  cases found : text[offset]? with
  | some c => exact (lineColumn_succ found).1
  | none =>
      have past := List.getElem?_eq_none_iff.1 found
      apply le_of_eq
      rw [lineColumn_ofOffset_of_length_le past,
        lineColumn_ofOffset_of_length_le (Nat.le_succ_of_le past)]

/-! ## Runs of line breaks -/

def IsBreakAt (text : List Char) (index : Nat) : Prop :=
  ∃ c, text[index]? = some c ∧ isLineBreak c

/-- Two offsets that only line breaks lie between, right behind a line break. -/
structure InOneRun (text : List Char) (first last : Nat) : Prop where
  pos : 1 ≤ first
  breaks : ∀ index, first - 1 ≤ index → index < last → IsBreakAt text index

private theorem endsInBreak_take_iff (within : offset ≤ text.length) :
    endsInBreak (text.take offset) ↔ 1 ≤ offset ∧
    IsBreakAt text (offset - 1) := by
  rw [endsInBreak, List.getLast?_take, Option.any_eq_true]
  cases offset with
  | zero => simp
  | succ offset =>
      simp [IsBreakAt, List.getElem?_eq_getElem (Nat.lt_of_succ_le within)]

theorem lineColumn_succ_eq_iff (within : offset < text.length) :
    (ofOffset text offset).lineColumn =
      (ofOffset text (offset + 1)).lineColumn ↔ 1 ≤ offset ∧
      IsBreakAt text (offset - 1) ∧ IsBreakAt text offset := by
  have found := List.getElem?_eq_getElem within
  rw [(lineColumn_succ found).2, endsInBreak_take_iff (Nat.le_of_lt within),
    and_assoc]
  simp [IsBreakAt, found]

theorem lineColumn_eq_iff_inOneRun {first last : Nat} (before : first < last)
    (within : last ≤ text.length) :
    (ofOffset text first).lineColumn = (ofOffset text last).lineColumn ↔
      InOneRun text first last := by
  rw [eq_iff_forall_succ_eq (monotone_lineColumn text) (Nat.le_of_lt before)]
  constructor
  · intro stays
    have step {place : Nat} (from_first : first ≤ place)
        (to_last : place < last) :=
      (lineColumn_succ_eq_iff (Nat.lt_of_lt_of_le to_last within)).1
        (stays place from_first to_last)
    refine ⟨(step (Nat.le_refl first) before).1,
      fun index from_first to_last => ?_⟩
    -- Only the first step tells of the character in front of it.
    rcases Nat.lt_or_ge index first with in_front | inside
    · have last_before : index = first - 1 := by omega
      rw [last_before]
      exact (step (Nat.le_refl first) before).2.1
    · exact (step inside to_last).2.2
  · intro run place from_first to_last
    rw [lineColumn_succ_eq_iff (Nat.lt_of_lt_of_le to_last within)]
    exact ⟨Nat.le_trans run.pos from_first, run.breaks _ (by omega) (by omega),
      run.breaks place (by omega) to_last⟩

/-! ## Bounds -/

private theorem breakRuns_le_countP (text : List Char) :
    breakRuns text ≤ text.countP isLineBreak := by
  induction text using List.reverseRecOn with
  | nil => rfl
  | append_singleton front c induction =>
      rw [breakRuns_append_singleton, List.countP_append, List.countP_singleton]
      cases isLineBreak c <;> cases endsInBreak front <;> simp <;> omega

private theorem lastLineLength_le_length (text : List Char) :
    lastLineLength text ≤ text.length := by
  calc lastLineLength text
    _ ≤ text.reverse.length := (List.takeWhile_prefix _).length_le
    _ = text.length := List.length_reverse

/-- A position on the lines of a text, and in columns that the text is long
enough for. -/
structure IsWithin (text : List Char) (position : Position) : Prop where
  line_pos : 1 ≤ position.line
  line_le : position.line ≤ 1 + text.countP isLineBreak
  column_pos : 1 ≤ position.column
  column_le : position.column ≤ text.length + 1

private theorem isWithin_ofOffset (text : List Char) (offset : Nat) :
    (ofOffset text offset).IsWithin text where
  line_pos := Nat.le_add_left ..
  line_le := by
    have runs := breakRuns_le_countP (text.take offset)
    have breaks : (text.take offset).countP isLineBreak ≤
        text.countP isLineBreak :=
      (List.take_sublist offset text).countP_le
    simp only [ofOffset]
    omega
  column_pos := Nat.le_add_left ..
  column_le := by
    have line := lastLineLength_le_length (text.take offset)
    have taken := List.length_take_le' offset text
    simp only [ofOffset]
    omega

/-! ## Positions named in messages -/

def Answers (text digits : List Char) : Except TooLong Position → Prop
  | .ok position => digits.length ≤ integerDigitLimit ∧
      position.offset = decimalNumber digits ∧ position.IsWithin text ∧
      (text.length ≤ position.offset →
        position.lineColumn = (ofOffset text text.length).lineColumn)
  | .error tooLong =>
      integerDigitLimit < digits.length ∧ tooLong.digits = digits.length

theorem answers_of_names {message : String} {digits : List Char}
    (names : Names message.toList digits) (text : List Char) :
    Answers text digits (recover message text) := by
  rw [recover_eq_of_names names]
  split
  · next long => exact ⟨long, rfl⟩
  · next short =>
      exact ⟨Nat.not_lt.1 short, rfl, isWithin_ofOffset ..,
        lineColumn_ofOffset_of_length_le⟩

theorem eq_ofOffset_of_recover {message : String} {digits : List Char}
    {position : Position} (names : Names message.toList digits)
    (recovered : recover message text = .ok position) :
    position = ofOffset text (decimalNumber digits) := by
  rw [recover_eq_of_names names] at recovered
  split at recovered
  · cases recovered
  · exact (Except.ok.inj recovered).symm

/-- The first marker of a message names an offset, and the position is that of
the offset, unless the marker has too many digits. It lies within the text, and
at its end for all offsets from the end on. A larger offset has no earlier
position, and in the text it has a later one, unless both offsets are in one run
of line breaks. -/
theorem recover_advances (text : List Char) {earlier later : String}
    {digits others : List Char} (names : Names earlier.toList digits)
    (names' : Names later.toList others)
    (less : decimalNumber digits < decimalNumber others) :
    Answers text digits (recover earlier text) ∧
    Answers text others (recover later text) ∧
      ∀ position position', recover earlier text = .ok position →
        recover later text = .ok position' →
          position.lineColumn ≤ position'.lineColumn ∧
          (position'.offset ≤ text.length →
            (InOneRun text position.offset position'.offset →
              position.lineColumn = position'.lineColumn) ∧
            (¬ InOneRun text position.offset position'.offset →
              position.lineColumn < position'.lineColumn)) := by
  refine ⟨answers_of_names names text, answers_of_names names' text, ?_⟩
  intro position position' recovered recovered'
  cases eq_ofOffset_of_recover names recovered
  cases eq_ofOffset_of_recover names' recovered'
  have forward := monotone_lineColumn text (Nat.le_of_lt less)
  refine ⟨forward, fun within => ?_⟩
  have same := lineColumn_eq_iff_inOneRun less within
  exact ⟨same.2, fun apart => lt_of_le_of_ne forward fun equal =>
    apart (same.1 equal)⟩

/-- The carriage return and both line feeds are one run, so that the second line
is at hand from the first of them on. Of two markers only the first one counts.
-/
theorem recover_advances_in_run :
    let text := "a\r\n\nb".toList
    let earlier := "Extra data at position 2 (char 5)"
    let later := "Expecting value (char 4)"
    Names earlier.toList ['2'] ∧ Names later.toList ['4'] ∧ InOneRun text 2 4 ∧
      ∃ position position', recover earlier text = .ok position ∧
        recover later text = .ok position' ∧
        position.lineColumn = position'.lineColumn ∧ position ≠ position' := by
  intro text earlier later
  have names : Names earlier.toList ['2'] :=
    namedDigits?_eq_some_iff.1 (by decide +kernel)
  have names' : Names later.toList ['4'] :=
    namedDigits?_eq_some_iff.1 (by decide +kernel)
  have run : InOneRun text 2 4 := by
    refine ⟨by decide, fun index from_first to_last => ?_⟩
    have inside : index = 1 ∨ index = 2 ∨ index = 3 := by omega
    rcases inside with rfl | rfl | rfl
    · exact ⟨'\r', by decide⟩
    · exact ⟨'\n', by decide⟩
    · exact ⟨'\n', by decide⟩
  rcases recover_advances text names names' (by decide) with ⟨-, -, advances⟩
  have recovered : recover earlier text = .ok (ofOffset text 2) := by
    decide +kernel
  have recovered' : recover later text = .ok (ofOffset text 4) := by
    decide +kernel
  refine ⟨names, names', run, _, _, recovered, recovered', ?_, by decide⟩
  exact ((advances _ _ recovered recovered').2 (by decide)).1 run

private theorem decimalNumber_zeros (count : Nat) (digits : List Char) :
    decimalNumber (List.replicate count '0' ++ digits) =
      decimalNumber digits := by
  induction count with
  | zero => rfl
  | succ count induction => exact induction

theorem names_of_isDigits {digits : List Char} (all : Json.IsDigits digits) :
    Names ("at position " ++ String.ofList digits).toList digits := by
  have marked :
      IsMarked ("at position " ++ String.ofList digits).toList digits := by
    refine ⟨"at position ".toList, List.mem_cons_self .., [], ?_, all, nofun⟩
    rw [String.toList_append, String.toList_ofList (l := digits),
      List.append_nil]
  exact ⟨0, marked, fun earlier before =>
    absurd before (Nat.not_lt_zero earlier)⟩

/-- An offset behind the end of the text is not recovered when it is written
with too many leading zeros. -/
theorem recover_advances_zeros :
    let digits := List.replicate integerDigitLimit '0' ++ ['9']
    let message := "at position " ++ String.ofList digits
    Names message.toList digits ∧ decimalNumber digits = 9 ∧
      ¬ ∃ position, recover message [] = .ok position := by
  intro digits message
  have all : Json.IsDigits digits := by
    refine ⟨List.append_ne_nil_of_right_ne_nil _ (List.cons_ne_nil _ _),
      fun c member => ?_⟩
    rcases List.mem_append.1 member with zero | nine
    · rw [List.eq_of_mem_replicate zero]
      decide
    · rw [List.mem_singleton.1 nine]
      decide
  have long : integerDigitLimit < digits.length := by simp [digits]
  refine ⟨names_of_isDigits all, decimalNumber_zeros .., ?_⟩
  rw [recover_eq_of_names (names_of_isDigits all), if_pos long]
  rintro ⟨position, recovered⟩
  cases recovered

end Check.Position
end FencedJson
