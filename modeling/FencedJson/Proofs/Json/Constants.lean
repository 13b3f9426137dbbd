import FencedJson.Proofs.Json.Stops

/-! # Where constants are met

A refused constant is looked up a second time, by a scan that knows quotation
marks and backslashes but no grammar. The scan goes over everything that a JSON
text may have in front of a value, so that it finds the constant that the strict
reader met.
-/

namespace FencedJson.Json

/-! ## The scan for constants -/

namespace Constant

theorem atFront?_word (constant : Constant) (after : List Char) :
    atFront? (constant.word.toList ++ after) = some (constant, after) := by
  cases constant <;> rfl

theorem firstIn?_cons {c : Char} {text : List Char} (notQuote : c ≠ '"')
    (none : atFront? (c :: text) = none) :
    firstIn? (c :: text) = firstIn? text := by
  rw [firstIn?, if_neg notQuote, none, Option.isSome_none,
    if_neg Bool.false_ne_true]

theorem exists_cons_of_word (constant : Constant) :
    ∃ c left, constant.word.toList = c :: left ∧ c ∈ ['N', 'I', '-'] := by
  cases constant with
  | nan => exact ⟨'N', _, rfl, by decide⟩
  | infinity => exact ⟨'I', _, rfl, by decide⟩
  | negativeInfinity => exact ⟨'-', _, rfl, by decide⟩

theorem firstIn?_word (constant : Constant) (after : List Char) :
    firstIn? (constant.word.toList ++ after) =
      some (constant.word.toList ++ after) := by
  have found := atFront?_word constant after
  rcases constant.exists_cons_of_word with ⟨c, left, same, starts⟩
  have notQuote : c ≠ '"' := by
    rintro rfl
    revert starts
    decide
  rw [same, List.cons_append] at found ⊢
  rw [firstIn?, if_neg notQuote, found, Option.isSome_some, if_pos rfl]

/-- The scan goes over the text without a find, whatever follows. -/
def IsPassed (front : List Char) : Prop :=
  ∀ rest, firstIn? (front ++ rest) = firstIn? rest

theorem isPassed_nil : IsPassed [] := fun _ => rfl

theorem IsPassed.append {front back : List Char} (first : IsPassed front)
    (second : IsPassed back) : IsPassed (front ++ back) := by
  intro rest
  rw [List.append_assoc, first, second]

def IsPlain (c : Char) : Prop := c ≠ '"' ∧ c ≠ 'N' ∧ c ≠ 'I' ∧ c ≠ '-'

instance (c : Char) : Decidable (IsPlain c) :=
  inferInstanceAs (Decidable (c ≠ '"' ∧ c ≠ 'N' ∧ c ≠ 'I' ∧ c ≠ '-'))

theorem IsPassed.cons {c : Char} {front : List Char} (plain : IsPlain c)
    (passed : IsPassed front) : IsPassed (c :: front) := by
  intro rest
  rcases plain with ⟨notQuote, other, other', notMinus⟩
  rw [List.cons_append, firstIn?_cons notQuote
    (atFront?_eq_none ⟨other, other'⟩ fun minus => absurd minus notMinus),
    passed]

theorem isPassed_of_plain {front : List Char} (plain : ∀ c ∈ front, IsPlain c) :
    IsPassed front := by
  induction front with
  | nil => exact isPassed_nil
  | cons c front induction =>
      rcases List.forall_mem_cons.1 plain with ⟨first, others⟩
      exact (induction others).cons first

/-! ## Strings and numerals are gone over -/

theorem hexDigit_ne (digit : HexDigit) : digit.val ≠ '"' ∧
    digit.val ≠ '\\' := by
  rcases digit with ⟨c, isDigit⟩
  constructor <;> rintro rfl <;> revert isDigit <;> decide

theorem afterString?_cons {c : Char} {text : List Char}
    (other : c ≠ '"' ∧ c ≠ '\\') :
    afterString? (c :: text) = afterString? text := by
  rw [afterString?]
  all_goals simp [other]

private theorem afterString?_part (part : StringPart) (text : List Char) :
    afterString? (part.text ++ text) = afterString? text := by
  cases part with
  | plain c unescaped => exact afterString?_cons unescaped.2
  | escape kind =>
      have printed : kind.letter ≠ '\n' := by cases kind <;> decide
      simp only [StringPart.text, List.cons_append, List.nil_append]
      rw [afterString?, if_neg printed]
  | code a b c d =>
      simp only [StringPart.text, List.cons_append, List.nil_append]
      rw [afterString?, if_neg (by decide), afterString?_cons (hexDigit_ne a),
        afterString?_cons (hexDigit_ne b), afterString?_cons (hexDigit_ne c),
        afterString?_cons (hexDigit_ne d)]

private theorem afterString?_spelled (parts : List StringPart)
    (rest : List Char) :
    afterString? (spelled parts ++ '"' :: rest) = some rest := by
  induction parts with
  | nil => simp only [spelled_nil, List.nil_append, afterString?]
  | cons part parts induction =>
      rw [spelled_cons, List.append_assoc, afterString?_part, induction]

theorem isPassed_quoted (parts : List StringPart) :
    IsPassed (quoted parts) := by
  intro rest
  have closed := afterString?_spelled parts rest
  have whole : quoted parts ++ rest = '"' ::
      (spelled parts ++ '"' :: rest) := by
    simp only [quoted, List.cons_append, List.append_assoc, List.nil_append]
  rw [whole, firstIn?, if_pos rfl]
  split
  · next following found =>
      rw [closed] at found
      cases found
      rfl
  · next none =>
      rw [closed] at none
      cases none

private theorem isPlain_of_isDigit {c : Char} (digit : isDigit c) :
    IsPlain c := by
  refine ⟨?_, ?_, ?_, ?_⟩ <;> rintro rfl <;> revert digit <;> decide

theorem isPassed_digits {digits : List Char} (all : IsDigits digits) :
    IsPassed digits :=
  isPassed_of_plain fun c member => isPlain_of_isDigit (all.2 c member)

theorem IsPassed.sign {digits : List Char} (negative : Bool)
    (all : IsDigits digits) {front : List Char}
    (passed : IsPassed (digits ++ front)) :
    IsPassed (Decimal.signText negative ++ (digits ++ front)) := by
  cases negative with
  | false => exact passed
  | true =>
      intro rest
      rcases all.exists_cons with ⟨digit, others, rfl, first, -⟩
      have noMinus : digit ≠ 'I' := by
        rintro rfl
        revert first
        decide
      have none : atFront? ('-' :: (digit :: others ++ front ++ rest)) = none :=
        atFront?_eq_none (by decide) fun _ same =>
          noMinus (Option.some.inj same)
      change firstIn? ('-' :: (digit :: others ++ front ++ rest)) =
        firstIn? rest
      rw [firstIn?_cons (by decide) none, passed]

private theorem isPassed_exponent {part : Option (Bool × List Char)}
    {front : List Char} (spells : Decimal.SpellsExponent part front)
    (all : ∀ exponent ∈ part, IsDigits exponent.2) :
    IsPassed front := by
  cases part with
  | none =>
      cases spells
      exact isPassed_nil
  | some exponent =>
      rcases exponent with ⟨negative, digits⟩
      have all : IsDigits digits := all _ rfl
      have passed : IsPassed (digits ++ []) := by
        rw [List.append_nil]
        exact isPassed_digits all
      rcases spells with ⟨letter, sign, isLetter, spelling, rfl⟩
      have plain : IsPlain letter := by
        rcases isLetter with rfl | rfl <;> decide
      refine IsPassed.cons plain ?_
      rw [← List.append_nil digits]
      rcases spelling with rfl | ⟨-, rfl⟩
      · exact passed.sign negative all
      · exact passed.cons (by decide)

private theorem isPassed_fraction {part : Option (List Char)}
    (all : ∀ digits ∈ part, IsDigits digits) :
    IsPassed (Decimal.fractionText part) := by
  cases part with
  | none => exact isPassed_nil
  | some digits => exact (isPassed_digits (all digits rfl)).cons (by decide)

theorem isPassed_literal {literal : Decimal} {front : List Char}
    (spells : literal.Spells front) : IsPassed front := by
  rcases spells with ⟨wellFormed, exponentText, spelling, rfl⟩
  have whole : IsDigits literal.whole := by
    rcases wellFormed.whole with zero | ⟨all, -⟩
    · rw [zero]
      exact ⟨List.cons_ne_nil _ _, by simp [isDigit]⟩
    · exact all
  refine IsPassed.sign literal.negative whole ?_
  exact (isPassed_digits whole).append
    ((isPassed_fraction wellFormed.fraction).append
      (isPassed_exponent spelling wellFormed.exponent))

/-! ## What may stand in front of a value is gone over -/

theorem isPassed_gap {gap : List Char} (blank : IsGap gap) : IsPassed gap := by
  refine isPassed_of_plain fun c member => ?_
  have blank := blank c member
  refine ⟨?_, ?_, ?_, ?_⟩ <;> rintro rfl <;> revert blank <;> decide

section

variable {α : Type} {spells : α → List Char → Prop} {items : List α}
  {text : List Char}

theorem isPassed_padded {good : List Char → Prop}
    (passes : ∀ text, good text → IsPassed text) (padded : IsPadded good text) :
    IsPassed text := by
  rcases padded with ⟨before, inner, after, blank, spelling, blank', rfl⟩
  exact (isPassed_gap blank).append
    ((passes inner spelling).append (isPassed_gap blank'))

theorem isPassed_led (passes : ∀ item ∈ items, ∀ text, spells item text →
    IsPassed text) (leads : Led spells items text) : IsPassed text := by
  induction items generalizing text with
  | nil => exact isPassed_gap leads
  | cons item rest induction =>
      rcases List.forall_mem_cons.1 passes with ⟨first, others⟩
      rcases leads with ⟨front, back, padded, leads, rfl⟩
      exact (isPassed_padded first padded).append
        ((induction others leads).cons (by decide))

theorem isPassed_series (passes : ∀ item ∈ items, ∀ text, spells item text →
    IsPassed text) (series : Series spells items text) : IsPassed text := by
  induction items generalizing text with
  | nil => exact isPassed_gap series
  | cons item rest induction =>
      rcases List.forall_mem_cons.1 passes with ⟨first, others⟩
      cases rest with
      | nil => exact isPassed_padded first series
      | cons next rest =>
          rcases series with ⟨front, back, padded, series, rfl⟩
          exact (isPassed_padded first padded).append
            ((induction others series).cons (by decide))

end

theorem isPassed_name (name : List StringPart) {before after : List Char}
    (blank : IsGap before) (blank' : IsGap after) :
    IsPassed (quoted name ++ (before ++ ':' :: after)) :=
  (isPassed_quoted name).append
    ((isPassed_gap blank).append ((isPassed_gap blank').cons (by decide)))

theorem isPassed_pair {member : List StringPart × Phrase} {text : List Char}
    (passes : ∀ text, member.2.Spells text → IsPassed text)
    (spelling : PairSpells member text) :
    IsPassed text := by
  rcases spelling with ⟨before, inner, after, blank, blank', spelling, rfl⟩
  have passed := (isPassed_name member.1 blank blank').append
      (passes inner spelling)
  simpa only [List.append_assoc, List.cons_append] using passed

theorem isPassed_phrase :
    ∀ {phrase : Phrase} {text : List Char}, phrase.Spells text → IsPassed text
  | .null, _, rfl => isPassed_of_plain (by simp [IsPlain])
  | .boolean true, _, rfl => isPassed_of_plain (by simp [IsPlain])
  | .boolean false, _, rfl => isPassed_of_plain (by simp [IsPlain])
  | .number _, _, spells => isPassed_literal spells
  | .string parts, _, rfl => isPassed_quoted parts
  | .array items, _, ⟨body, spells, rfl⟩ => by
      have inner : IsPassed body := isPassed_series
        (fun item member text spelling => isPassed_phrase spelling)
        (spellItems_iff.1 spells)
      exact (inner.append (isPassed_of_plain (by simp [IsPlain]))).cons
        (by decide)
  | .object members, _, ⟨body, spells, rfl⟩ => by
      have inner : IsPassed body := isPassed_series
        (fun member among text => isPassed_pair fun text spelling =>
          isPassed_phrase spelling)
        (spellMembers_iff.1 spells)
      exact (inner.append (isPassed_of_plain (by simp [IsPlain]))).cons
        (by decide)
termination_by phrase => phrase
decreasing_by
  · have smaller := List.sizeOf_lt_of_mem member
    simp only [Phrase.array.sizeOf_spec]
    omega
  · have smaller := List.sizeOf_lt_of_mem among
    have second : sizeOf member.2 < sizeOf member := by
      rcases member with ⟨name, phrase⟩
      simp only [Prod.mk.sizeOf_spec]
      omega
    simp only [Phrase.object.sizeOf_spec]
    omega

private theorem isPassed_opening {opening : Opening} {front : List Char}
    (spells : opening.Spells front) : IsPassed front := by
  cases opening with
  | array items =>
      rcases spells with ⟨led, leads, rfl⟩
      exact (isPassed_led (fun item _ text => isPassed_phrase) leads).cons
        (by decide)
  | object members name =>
      rcases spells with ⟨led, before, after, leads, blank, blank', rfl⟩
      have passed : IsPassed led :=
        isPassed_led (fun member _ text => isPassed_pair fun text =>
          isPassed_phrase) leads
      exact (passed.append (isPassed_name name blank blank')).cons (by decide)

private theorem isPassed_opens {openings : List Opening} {front : List Char}
    (opens : Opens openings front) : IsPassed front := by
  induction openings generalizing front with
  | nil =>
      cases opens
      exact isPassed_nil
  | cons opening rest induction =>
      rcases opens with ⟨first, back, spells, others, rfl⟩
      exact (isPassed_opening spells).append (induction others)

theorem reportedOffset_of_isPassed {before : List Char}
    (passed : IsPassed before) (constant : Constant) (after : List Char) :
    reportedOffset (before ++ (constant.word.toList ++ after)) =
      before.length := by
  rw [reportedOffset, passed, firstIn?_word]
  simp only [List.length_append]
  omega

end Constant

namespace Strict

/-! ## Constants are refused where they stand -/

/-- A value has to follow: in front there are blanks and brackets that stand
open. The reader has room for them, for what is complete in them, and for the
five calls that it takes to tell of a constant. -/
def AwaitsValue (depth : Nat) (before : List Char) : Prop :=
  ∃ gap openings front, IsGap gap ∧ Opens openings front ∧
  HasRoom depth openings ∧ openings.length + 5 ≤ depth ∧ before = gap ++ front

section

variable {depth : Nat} {before : List Char}

theorem AwaitsValue.isPassed (awaits : AwaitsValue depth before) :
    Constant.IsPassed before := by
  rcases awaits with ⟨gap, openings, front, blank, opens, -, -, rfl⟩
  exact (Constant.isPassed_gap blank).append (Constant.isPassed_opens opens)

theorem value_of_word (constant : Constant) (after : List Char)
    (room : 5 ≤ depth) :
    value depth (constant.word.toList ++ after) =
      .error (.constant constant) := by
  have found := Constant.atFront?_word constant after
  rcases constant.exists_cons_of_word with ⟨c, left, same, starts⟩
  rw [same, List.cons_append] at found ⊢
  rw [value]
  · simp only [found]
    exact telling_of_le room rfl
  all_goals
    rintro rest whole
    rcases List.cons.inj whole with ⟨rfl, -⟩
    revert starts
    decide

theorem AwaitsValue.ne_byteOrderMark (awaits : AwaitsValue depth before)
    (constant : Constant) (after left : List Char) :
    before ++ (constant.word.toList ++ after) ≠ '\ufeff' :: left := by
  rcases awaits with ⟨gap, openings, front, blank, opens, -, -, rfl⟩
  intro same
  cases gap with
  | cons c gap =>
      rcases List.cons.inj same with ⟨rfl, -⟩
      have := blank _ (List.mem_cons_self ..)
      cases this
  | nil =>
      cases openings with
      | nil =>
          cases opens
          rcases constant.exists_cons_of_word with ⟨c, rest, spelling, starts⟩
          rw [spelling] at same
          rcases List.cons.inj same with ⟨rfl, -⟩
          revert starts
          decide
      | cons opening rest =>
          rcases opens with ⟨first, back, spells, -, rfl⟩
          rcases Opening.exists_cons spells with ⟨c, rest, rfl, bracket⟩
          rcases List.cons.inj same with ⟨rfl, -⟩
          revert bracket
          decide

theorem document_of_awaitsValue (awaits : AwaitsValue depth before)
    (constant : Constant) (after : List Char) :
    document depth (before ++ (constant.word.toList ++ after)) =
      .error (.constant constant) := by
  refine document_of_value (awaits.ne_byteOrderMark constant after) ?_
  rcases constant.exists_cons_of_word with ⟨c, left, same, starts⟩
  have solid : IsSolid (constant.word.toList ++ after) := by
    rw [same]
    refine ⟨c, left ++ after, rfl, ?_⟩
    simp only [List.mem_cons, List.not_mem_nil, or_false] at starts
    rcases starts with rfl | rfl | rfl <;> decide
  rcases awaits with ⟨gap, openings, front, blank, opens, room, enough, rfl⟩
  replace enough : openings.length + (Failure.constant constant).calls.length ≤
    depth := enough
  have failed (depth : Nat)
      (room : (Failure.constant constant).calls.length ≤ depth) :=
    value_of_word constant after room
  rcases value_of_opens opens room enough solid failed with ⟨solid, failed⟩
  rw [List.append_assoc, skipBlank_append blank,
    skipBlank_of_isSolid solid, failed]

private theorem exists_awaitsValue_of_document {text : List Char}
    {constant : Constant}
    (failed : document depth text = .error (.constant constant)) :
    ∃ before after, AwaitsValue depth before ∧
      text = before ++ (constant.word.toList ++ after) := by
  rcases document_failure failed with
    mark | ⟨gap, _, blank, behind, rfl⟩ | ⟨_, _, _, -, extra, -⟩
  · cases mark
  · rcases behind with ⟨openings, front, _, opens, room,
      ⟨enough, after, rfl⟩, rfl⟩
    exact ⟨gap ++ front, after,
      ⟨gap, openings, front, blank, opens, room, by omega, rfl⟩, by
      rw [List.append_assoc]⟩
  · cases extra

theorem refuseConstant_of_awaitsValue (awaits : AwaitsValue depth before)
    (constant : Constant) (after : List Char) :
    refuseConstant constant.word (before ++ (constant.word.toList ++ after)) =
      .fault (.constant constant.word) (.after before) := by
  rw [refuseConstant, Constant.reportedOffset_of_isPassed awaits.isPassed,
    Place.ofOffset_eq_after (by simp), List.take_left]

end

section

variable {stack : Stack} {text name : String} {place : Place}

/-- A refused constant stands where a value has to follow, and its place is
right behind what stands in front of it. -/
theorem exists_awaitsValue_of_parse
    (refused : parse stack text = .error (.fault (.constant name) place)) :
    ∃ (constant : Constant) (before after : List Char),
      AwaitsValue stack.strictLevels before ∧
      text.toList = before ++ (constant.word.toList ++ after) ∧
      name = constant.word ∧ place = .after before := by
  rcases mapError_eq_error_iff.1 refused with ⟨failure, failed, told⟩
  have proper := isProper_of_document failed
  cases failure with
  | fault fault following =>
      rcases Error.fault.inj told with ⟨rfl, -⟩
      exact proper.elim
  | constant constant =>
      rcases exists_awaitsValue_of_document failed with
        ⟨before, after, awaits, split⟩
      rw [Failure.toError, split, refuseConstant_of_awaitsValue awaits] at told
      cases told
      exact ⟨constant, before, after, awaits, split, rfl, rfl⟩
  | integerTooLong | tooDeep => cases told

theorem parse_of_awaitsValue {before after : List Char} {constant : Constant}
    (awaits : AwaitsValue stack.strictLevels before)
    (split : text.toList = before ++ (constant.word.toList ++ after)) :
    parse stack text =
      .error (.fault (.constant constant.word) (.after before)) := by
  rw [parse, split, document_of_awaitsValue awaits]
  exact congrArg Except.error
    (refuseConstant_of_awaitsValue awaits constant after)

end

/-- A constant is refused exactly where a value has to follow. The word of the
refusal stands at its place, and what follows the word does not matter. -/
theorem parse_eq_constant_iff {stack : Stack} {text name : String}
    {place : Place} :
    (parse stack text = .error (.fault (.constant name) place) ↔
      ∃ (constant : Constant) (before after : List Char),
        AwaitsValue stack.strictLevels before ∧
        text.toList = before ++ (constant.word.toList ++ after) ∧
        name = constant.word ∧ place = .after before) ∧
    (parse stack text = .error (.fault (.constant name) place) →
      (Error.fault (.constant name) place).message =
        "Unexpected token " ++ name ++ place.suffix ∧
      (text.toList.drop place.offset).take name.length = name.toList ∧
      ∀ other, parse stack (String.ofList
          (text.toList.take (place.offset + name.length) ++ other)) =
            parse stack text) := by
  refine ⟨⟨exists_awaitsValue_of_parse, ?_⟩, fun refused => ⟨rfl, ?_⟩⟩
  · rintro ⟨constant, before, after, awaits, split, rfl, rfl⟩
    exact parse_of_awaitsValue awaits split
  · rcases exists_awaitsValue_of_parse refused with
      ⟨constant, before, after, awaits, split, rfl, rfl⟩
    have length : (Place.after before).offset = before.length := rfl
    rw [split, length, ← String.length_toList, List.drop_left, List.take_left]
    refine ⟨rfl, fun other => ?_⟩
    have front : (before ++ (constant.word.toList ++ after)).take
        (before.length + constant.word.toList.length) = before ++
          constant.word.toList := by
      rw [← List.append_assoc, ← List.length_append, List.take_left]
    rw [front, refused, parse_of_awaitsValue awaits
      (by rw [String.toList_ofList, List.append_assoc])]

/-- Words in a name and in a string, behind escapes, do not count. -/
theorem parse_eq_constant_iff_hidden :
    parse .standard
      "\x7b\"NaN\": \"\\\"Infinity\\\\\", \"b\": [1, -Infinity, NaN]\x7d" =
        .error (.fault (.constant "-Infinity") ⟨1, 34, 33⟩) ∧
      ∃ (constant : Constant) (before after : List Char),
        AwaitsValue Stack.standard.strictLevels before ∧
        "\x7b\"NaN\": \"\\\"Infinity\\\\\", \"b\": [1, -Infinity, NaN]\x7d".toList =
          before ++ (constant.word.toList ++ after) ∧
        "-Infinity" = constant.word ∧ ⟨1, 34, 33⟩ = Place.after before := by
  have refused : parse .standard
      "\x7b\"NaN\": \"\\\"Infinity\\\\\", \"b\": [1, -Infinity, NaN]\x7d" =
      .error (.fault (.constant "-Infinity") ⟨1, 34, 33⟩) := by
    decide +kernel
  exact ⟨refused, parse_eq_constant_iff.1.1 refused⟩

end Strict
end FencedJson.Json
