import FencedJson.Proofs.Json.Brackets
import FencedJson.Proofs.Json.Taking

/-! # Strict words under the relaxed grammar

The blanks, strings and numerals of strict JSON are taken by the rules of
relaxed JSON, as far as what follows them cannot belong to them. Code points of
a string stay as its parts write them: the two halves of a pair are not joined.
-/

namespace FencedJson.Json.Relaxed

open Rule
open Strict (IsBoundary IsStop)

/-! ## Blanks -/

def blankStep : Rule Unit :=
  .firstOf [(Rule.char isBlank).map fun _ => (), lineEnd,
    lineComment, blockComment]

/-- Nothing that may be left out stands at the front of the text. -/
def IsSolid (text : List Char) : Prop := blankStep.Refuses text

theorem isSolid_nil : IsSolid [] := rfl

private theorem refuses_lineEnd {text : List Char}
    (other : ∀ c ∈ text.head?, c ∉ ['\r', '\n', '\u2028', '\u2029']) :
    lineEnd.Refuses text := by
  have differs (c : Char) (ending : c ∈ ['\r', '\n', '\u2028', '\u2029']) :
      text.head? ≠ some c := fun same => other c same ending
  apply refuses_firstOf
  intro rule member
  simp only [List.mem_cons, List.not_mem_nil, or_false] at member
  rcases member with rfl | rfl | rfl | rfl | rfl <;> exact refuses_word
    (differs _ (by decide)) _

theorem isSolid_cons {c : Char} (rest : List Char) (solid : isBlank c = false)
    (other : c ∉ ['\r', '\n', '\u2028', '\u2029', '/']) :
    IsSolid (c :: rest) := by
  have blank : ((Rule.char isBlank).map fun _ => ()).Refuses (c :: rest) := by
    apply Refuses.map
    apply refuses_char
    rintro d ⟨⟩
    exact solid
  have ending : lineEnd.Refuses (c :: rest) := by
    apply refuses_lineEnd
    rintro d ⟨⟩ member
    exact other (List.mem_append_left ['/'] member)
  have noSlash : (c :: rest).head? ≠ some '/' := by
    rintro ⟨⟩
    exact other (by decide)
  apply refuses_firstOf
  intro rule member
  simp only [List.mem_cons, List.not_mem_nil, or_false] at member
  rcases member with rfl | rfl | rfl | rfl
  · exact blank
  · exact ending
  · exact (refuses_word noSlash _).before _
  · exact (refuses_word noSlash _).before _

theorem isSolid_mark {c : Char} (rest : List Char)
    (mark : c ∈ [',', ':', '"', '[', ']', '\x7b', '\x7d', '-', 'n', 't', 'f']) :
    IsSolid (c :: rest) := by
  simp only [List.mem_cons, List.not_mem_nil, or_false] at mark
  rcases mark with
    rfl | rfl | rfl | rfl | rfl | rfl | rfl | rfl | rfl | rfl | rfl <;>
    exact isSolid_cons rest (by decide +kernel) (by decide)

private theorem exists_ofNat_of_isDigit {c : Char} (digit : isDigit c) :
    ∃ n : Fin 10, c = Char.ofNat (48 + n) := by
  simp only [isDigit, Bool.and_eq_true, decide_eq_true_eq, Char.le_def,
    UInt32.le_iff_toNat_le] at digit
  have low : 48 ≤ c.toNat := digit.1
  have high : c.toNat ≤ 57 := digit.2
  refine ⟨⟨c.toNat - 48, by omega⟩, ?_⟩
  rw [show 48 + (⟨c.toNat - 48, by omega⟩ : Fin 10).val =
    c.toNat by simp; omega, Char.ofNat_toNat]

theorem isSolid_digit {c : Char} (rest : List Char) (digit : isDigit c) :
    IsSolid (c :: rest) := by
  rcases exists_ofNat_of_isDigit digit with ⟨n, rfl⟩
  apply isSolid_cons
  · revert n
    decide +kernel
  · revert n
    decide

theorem takes_lineEnd_feed (rest : List Char) :
    lineEnd.Takes ('\n' :: rest) () rest := by
  have noReturn (letters : List Char) :
      (word ('\r' :: letters)).Refuses ('\n' :: rest) :=
    refuses_word (by simp) letters
  exact (noReturn _).firstOf_takes
    ((noReturn _).firstOf_takes ((takes_word ['\n'] rest).firstOf _))

theorem takes_lineEnd_pair (rest : List Char) :
    lineEnd.Takes ('\r' :: '\n' :: rest) () rest :=
  (takes_word ['\r', '\n'] rest).firstOf _

theorem takes_lineEnd_return {rest : List Char}
    (single : rest.head? ≠ some '\n') :
    lineEnd.Takes ('\r' :: rest) () rest := by
  have noPair : (word ['\r', '\n']).Refuses ('\r' :: rest) :=
    (takes_char (decide_eq_true rfl) rest).before_refuses
      (refuses_word single [])
  exact noPair.firstOf_takes ((takes_word ['\r'] rest).firstOf _)

theorem takes_blankStep_of_lineEnd {c : Char} {text rest : List Char}
    (solid : isBlank c = false) (takes : lineEnd.Takes (c :: text) () rest) :
    blankStep.Takes (c :: text) () rest := by
  have notBlank : ((Rule.char isBlank).map fun _ => ()).Refuses
      (c :: text) := by
    apply Refuses.map
    apply refuses_char
    rintro d ⟨⟩
    exact solid
  exact notBlank.firstOf_takes (takes.firstOf _)

private theorem not_isSolid_feed (rest : List Char) :
    ¬ IsSolid ('\n' :: rest) := by
  intro solid
  rcases takes_blankStep_of_lineEnd (by decide +kernel)
    (takes_lineEnd_feed rest) with ⟨found, matched, -, -⟩
  rw [IsSolid, Refuses, matched] at solid
  cases solid

private theorem exists_takes_blankStep {c : Char} {gap rest : List Char}
    (blank : IsGap (c :: gap)) (solid : IsSolid rest) :
    ∃ gap', gap'.length ≤ gap.length ∧ IsGap gap' ∧
      blankStep.Takes (c :: gap ++ rest) () (gap' ++ rest) := by
  rcases List.forall_mem_cons.1 blank with ⟨first, others⟩
  simp only [Strict.isBlank, Bool.or_eq_true, decide_eq_true_eq] at first
  rcases first with ((rfl | rfl) | rfl) | rfl
  · exact ⟨gap, le_rfl, others,
      ((takes_char (by decide +kernel) _).map _).firstOf _⟩
  · exact ⟨gap, le_rfl, others,
      ((takes_char (by decide +kernel) _).map _).firstOf _⟩
  · exact ⟨gap, le_rfl, others,
      takes_blankStep_of_lineEnd (by decide +kernel) (takes_lineEnd_feed _)⟩
  · by_cases paired : (gap ++ rest).head? = some '\n'
    · cases gap with
      | nil =>
          cases rest with
          | nil => cases paired
          | cons d rest =>
              cases paired
              exact absurd solid (not_isSolid_feed rest)
      | cons d gap =>
          cases paired
          exact ⟨gap, Nat.le_succ _, fun c member => others c (.tail _ member),
            takes_blankStep_of_lineEnd (by decide +kernel)
            (takes_lineEnd_pair _)⟩
    · exact ⟨gap, le_rfl, others,
        takes_blankStep_of_lineEnd (by decide +kernel)
        (takes_lineEnd_return paired)⟩

private theorem exists_takes_blankSteps {gap rest : List Char}
    (blank : IsGap gap) (solid : IsSolid rest) :
    ∃ values, (many blankStep).Takes
      (gap ++ rest) values rest := by
  induction size :
    gap.length using Nat.strong_induction_on generalizing gap with
  | _ size induction =>
      cases gap with
      | nil => exact ⟨[], Refuses.many solid⟩
      | cons c gap =>
          rcases exists_takes_blankStep blank solid with
            ⟨gap', shorter, blank', takes⟩
          rcases induction gap'.length (by simp at size; omega) blank' rfl with
            ⟨values, further⟩
          exact ⟨() :: values, takes.many (by simp; omega) further⟩

theorem takes_blanks {gap rest : List Char} (blank : IsGap gap)
    (solid : IsSolid rest) :
    blanks.Takes (gap ++ rest) () rest := by
  rcases exists_takes_blankSteps blank solid with ⟨values, takes⟩
  exact takes.map fun _ => ()

/-! ## Strings -/

theorem takes_hexDigit (digit : HexDigit) (rest : List Char) :
    hexDigit.Takes (digit.val :: rest) digit.val rest :=
  takes_char digit.property rest

private theorem codeOf_hexDigits (a b c d : HexDigit) :
    codeOf [a.val, b.val, c.val, d.val] =
      .ofNat (numberOf 16 [a.value, b.value, c.value, d.value]) := by
  have read (digit : HexDigit) : hexValue? digit.val = some digit.value :=
    (Option.some_get digit.property).symm
  simp [codeOf, hexNumber?, read]

theorem takes_escaped_kind (kind : Escape) (rest : List Char) :
    escaped.Takes (kind.letter :: rest) (.ofChar kind.meaning) rest := by
  cases kind <;> exact ⟨⟨_, 1, rest, by simp, rfl⟩, rfl, rfl, rfl⟩

theorem takes_escaped_code (a b c d : HexDigit) (rest : List Char) :
    escaped.Takes ('u' :: a.val :: b.val :: c.val :: d.val :: rest)
      (StringPart.code a b c d).point rest := by
  have long : longEscape.Takes ('u' :: a.val :: b.val :: c.val :: d.val :: rest)
      (StringPart.code a b c d).point rest := by
    rw [StringPart.point, ← codeOf_hexDigits]
    exact (takes_word ['u'] _).before <| (takes_hexDigit a _).andThen <|
      (takes_hexDigit b _).andThen <| (takes_hexDigit c _).andThen <|
        (takes_hexDigit d rest).map _
  have other {letter : Char} (differs : 'u' ≠ letter) (letters : List Char) :
      (word (letter :: letters)).Refuses
        ('u' :: a.val :: b.val :: c.val :: d.val :: rest) :=
    refuses_word (by simpa using differs) letters
  have reserved :
      selfEscape.Refuses ('u' :: a.val :: b.val :: c.val :: d.val :: rest) := by
    apply Refuses.before
    apply Takes.absent
    exact (other (by decide) []).firstOf_takes ((takes_word ['u'] _).firstOf _)
  apply takes_firstOf_append
  · intro rule member
    rcases List.mem_map.1 member with ⟨⟨letter, control⟩, listed, rfl⟩
    have differs : ∀ escape ∈ controlEscapes, 'u' ≠ escape.1 := by decide
    exact (other (differs _ listed) []).map _
  · exact reserved.firstOf_takes <|
      ((other (by decide) []).before _).firstOf_takes <|
        ((other (by decide) []).before _).firstOf_takes <| long.firstOf _

private theorem takes_stringPart (part : StringPart) (rest : List Char) :
    (stringPart '"').Takes (part.text ++ rest) (some part.point) rest := by
  cases part with
  | plain c unescaped =>
      rcases unescaped with ⟨graphic, noMark, noStroke⟩
      have noBackslash (letters : List Char) :
          (word ('\\' :: letters)).Refuses (c :: rest) :=
        refuses_word (by simpa using noStroke) letters
      have plain : (c ≠ '\\' && c ≠ '"' && c ≠ '\r' && c ≠ '\n') = true := by
        have noReturn : c ≠ '\r' := by
          rintro rfl
          exact absurd graphic (by decide)
        have noFeed : c ≠ '\n' := by
          rintro rfl
          exact absurd graphic (by decide)
        simp [noStroke, noMark, noReturn, noFeed]
      exact ((noBackslash []).before _).firstOf_takes <|
        ((noBackslash []).before _).firstOf_takes <|
          ((takes_char plain rest).map _).firstOf _
  | escape kind =>
      exact ((takes_word ['\\'] _).before
        ((takes_escaped_kind kind rest).map _)).firstOf _
  | code a b c d =>
      exact ((takes_word ['\\'] _).before
        ((takes_escaped_code a b c d rest).map _)).firstOf _

private theorem takes_stringParts (parts : List StringPart) (rest : List Char) :
    (many (stringPart '"')).Takes (spelled parts ++ '"' :: rest)
      (parts.map fun part => some part.point) ('"' :: rest) := by
  induction parts with
  | nil =>
      have noBackslash : (word ['\\']).Refuses ('"' :: rest) :=
        refuses_word (by simp) []
      have noPlain :
          (Rule.char fun c => c ≠ '\\' && c ≠ '"' && c ≠ '\r' &&
            c ≠ '\n').Refuses ('"' :: rest) := refuses_char (by simp)
      exact ((noBackslash.before _).orElse ((noBackslash.before _).orElse
        ((noPlain.map _).orElse (refuses_fail _)))).many
  | cons part parts induction =>
      rw [spelled_cons, List.append_assoc]
      refine (takes_stringPart part _).many ?_ induction
      have longer : 0 < part.text.length := by
        cases part <;> exact Nat.succ_pos _
      simp only [List.length_append]
      omega

theorem takes_string (parts : List StringPart) (rest : List Char) :
    string.Takes (Json.quoted parts ++ rest)
    (parts.map StringPart.point) rest := by
  have points : (parts.map fun part => Option.some part.point).filterMap id =
      parts.map StringPart.point := by
    rw [List.filterMap_map]
    exact congrFun List.filterMap_eq_map parts
  have single : (quoted '\'').Refuses (Json.quoted parts ++ rest) :=
    (refuses_word (by simp [Json.quoted]) []).before _
  refine single.orElse_takes ?_
  have inner := (takes_stringParts parts rest).map (·.filterMap id)
  rw [points] at inner
  have whole := (takes_word ['"'] _).before
      (inner.closedBy (takes_word ['"'] rest))
  have shape : Json.quoted parts ++ rest = ['"'] ++
      (spelled parts ++ ['"'] ++ rest) := rfl
  rw [shape, List.append_assoc]
  exact whole

/-! ## Numerals -/

theorem takes_digits {digits rest : List Char} (all : ∀ c ∈ digits, isDigit c)
    (stop : NoDigit rest) : (many digit).Takes
      (digits ++ rest) digits rest := by
  induction digits with
  | nil => exact (refuses_char stop).many
  | cons c digits induction =>
      rcases List.forall_mem_cons.1 all with ⟨first, others⟩
      exact (takes_char first _).many (by simp) (induction others)

theorem takes_whole {digits rest : List Char}
    (wellFormed : digits = ['0'] ∨ IsDigits digits ∧ digits.head? ≠ some '0')
    (stop : NoDigit rest) : whole.Takes (digits ++ rest) digits rest := by
  rcases wellFormed with rfl | ⟨all, notZero⟩
  · have ends : (Rule.absent digit).Takes rest () rest :=
      (refuses_char stop).absent
    exact (((takes_char (by decide) rest).closedBy ends).map _).orElse _
  · rcases all.exists_cons with ⟨first, others, rfl, isFirst, areOthers⟩
    have noZero : ¬ first = '0' := by simpa using notZero
    have refuses : ((Rule.char (· = '0')).closedBy (.absent digit)).Refuses
        (first :: others ++ rest) := by
      apply Refuses.closedBy
      apply refuses_char
      rintro c ⟨⟩
      exact decide_eq_false noZero
    have leads : (isDigit first && first ≠ '0') = true := by
      simp [isFirst, noZero]
    exact (refuses.map _).orElse_takes
      ((takes_char leads _).andThen ((takes_digits areOthers stop).map _))

theorem takes_fraction {fraction : Option (List Char)} {rest : List Char}
    (all : ∀ digits ∈ fraction, IsDigits digits) (stop : NoDigit rest)
    (noPoint : rest.head? ≠ some '.') :
    (optional Relaxed.fraction).Takes (Decimal.fractionText fraction ++ rest)
    fraction rest := by
  cases fraction with
  | none => exact ((refuses_word noPoint []).before _).optional
  | some digits =>
      exact ((takes_word ['.'] _).before
        (takes_digits (all _ rfl).2 stop)).optional

theorem takes_sign {mark : Option Char} {digits : List Char}
    (isSign : ∀ c ∈ mark, c = '+' ∨ c = '-') (all : IsDigits digits)
    (rest : List Char) :
    (optional (.char fun c => c = '+' || c = '-')).Takes
      (mark.toList ++ (digits ++ rest)) mark (digits ++ rest) := by
  cases mark with
  | none =>
      rcases all.exists_cons with ⟨first, others, rfl, isFirst, -⟩
      apply Refuses.optional
      apply refuses_char
      rintro c ⟨⟩
      have noPlus : first ≠ '+' := by
        rintro rfl
        cases isFirst
      have noMinus : first ≠ '-' := by
        rintro rfl
        cases isFirst
      simp [noPlus, noMinus]
  | some c => exact (takes_char (by simpa using isSign c rfl) _).optional

/-- The sign of an exponent is kept as it is written, so that there are two ways
to write one exponent. -/
theorem exists_takes_exponent {part : Option (Bool × List Char)}
    {front rest : List Char} (spells : Decimal.SpellsExponent part front)
    (all : ∀ exponent ∈ part, IsDigits exponent.2)
    (boundary : IsBoundary rest) :
    ∃ exponent, (optional Relaxed.exponent).Takes
      (front ++ rest) exponent rest ∧
      exponent.map (fun (sign, digits) => (decide (sign = some '-'), digits)) =
        part := by
  cases part with
  | none =>
      cases spells
      have noLetter : (Rule.char fun c => c = 'e' || c = 'E').Refuses rest := by
        apply refuses_char
        intro c first
        have noSmall : c ≠ 'e' := by
          rintro rfl
          exact boundary.ne (by decide) first
        have noCapital : c ≠ 'E' := by
          rintro rfl
          exact boundary.ne (by decide) first
        simp [noSmall, noCapital]
      exact ⟨none, (noLetter.before _).optional, rfl⟩
  | some part =>
      rcases part with ⟨negative, digits⟩
      rcases spells with ⟨letter, sign, isLetter, signed, rfl⟩
      obtain ⟨mark, rfl, isSign, same⟩ : ∃ mark :
          Option Char, sign = mark.toList ∧ (∀ c ∈ mark, c = '+' ∨ c = '-') ∧
          decide (mark = some '-') = negative := by
        rcases signed with rfl | ⟨rfl, rfl⟩
        · cases negative with
          | true => exact ⟨some '-', rfl, by simp, rfl⟩
          | false => exact ⟨none, rfl, by simp, rfl⟩
        · exact ⟨some '+', rfl, by simp, rfl⟩
      refine ⟨some (mark, digits), ?_, by simp [same]⟩
      have letterHolds : (letter = 'e' || letter = 'E') = true := by
        simpa using isLetter
      have digitsTaken : ((many digit).map (mark, ·)).Takes (digits ++ rest)
          (mark, digits) rest :=
        (takes_digits (all _ rfl).2 boundary.noDigit).map (mark, ·)
      have whole : Relaxed.exponent.Takes
          (letter :: (mark.toList ++ (digits ++ rest))) (mark, digits) rest :=
        Takes.before (takes_char letterHolds _)
          (Takes.andThen (takes_sign isSign (all _ rfl) rest) digitsTaken)
      rw [List.cons_append, List.append_assoc]
      exact whole.optional

def Numeral.Means (numeral : Numeral) (literal : Decimal) : Prop :=
  ∃ exponent, numeral =
    .decimal (some literal.whole) literal.fraction exponent ∧
    exponent.map (fun (sign, digits) => (decide (sign = some '-'), digits)) =
      literal.exponent

theorem refuses_nameStart {rest : List Char} (boundary : IsBoundary rest) :
    nameStart.Refuses rest := by
  have noStart (c : Char) (stop : IsStop c) :
      isPlainNameStart c = false ∧ Category.isNameStart c = false := by
    simp only [IsStop, Strict.isBlank, Bool.or_eq_true,
      decide_eq_true_eq] at stop
    rcases stop with (((rfl | rfl) | rfl) | rfl) | rfl | rfl | rfl <;>
      decide +kernel
  apply refuses_firstOf
  intro rule member
  simp only [List.mem_cons, List.not_mem_nil, or_false] at member
  rcases member with rfl | rfl | rfl
  · exact (refuses_char fun c first => (noStart c (boundary c first)).1).map _
  · exact (refuses_charThen fun c first => (noStart c (boundary c first)).2).map
      _
  · exact (refuses_word (boundary.ne (by decide)) []).before _

private theorem exists_takes_numeral {literal : Decimal}
    {exponentText rest : List Char} (wellFormed : literal.IsWellFormed)
    (spells : Decimal.SpellsExponent literal.exponent exponentText)
    (boundary : IsBoundary rest) :
    ∃ numeral, numeral.Means literal ∧ Relaxed.numeral.Takes
      (literal.whole ++
        (Decimal.fractionText literal.fraction ++ (exponentText ++ rest)))
      numeral rest := by
  rcases exists_takes_exponent spells wellFormed.exponent boundary with
    ⟨exponent, takes, same⟩
  refine ⟨_, ⟨exponent, rfl, same⟩, ?_⟩
  have noDigit := Strict.noDigit_exponent spells boundary
  have wholeTaken :=
    takes_whole wellFormed.whole
      (Strict.noDigit_fraction literal.fraction noDigit)
  have fractionTaken :=
    takes_fraction wellFormed.fraction noDigit
      (Strict.noPoint_exponent spells boundary)
  have exponentTaken := takes.map fun exponent =>
    Numeral.decimal (some literal.whole) literal.fraction exponent
  have taken : decimal.Takes
      (literal.whole ++
        (Decimal.fractionText literal.fraction ++ (exponentText ++ rest)))
      (.decimal (some literal.whole) literal.fraction exponent) rest :=
    Takes.orElse
      (Takes.andThen wholeTaken (Takes.andThen fractionTaken exponentTaken)) _
  exact (taken.closedBy (refuses_nameStart boundary).absent).firstOf _

theorem exists_takes_number {literal : Decimal} {front rest : List Char}
    (spells : literal.Spells front) (boundary : IsBoundary rest) :
    ∃ numeral, numeral.Means literal ∧
      number.Takes (front ++ rest) (.number literal.negative numeral) rest := by
  rcases spells with ⟨wellFormed, exponentText, spelling, rfl⟩
  rcases exists_takes_numeral wellFormed spelling boundary with
    ⟨numeral, means, takes⟩
  refine ⟨numeral, means, ?_⟩
  simp only [List.append_assoc]
  cases sign : literal.negative with
  | true => exact ((takes_word ['-'] _).before (takes.map _)).firstOf _
  | false =>
      have noSign {c : Char} (other : isDigit c = false) (letters : List Char) :
          (word (c :: letters)).Refuses (literal.whole ++
            (Decimal.fractionText literal.fraction ++
              (exponentText ++ rest))) := by
        apply refuses_word
        rcases wellFormed.exists_cons with ⟨first, others, whole, isFirst⟩
        rw [whole]
        rintro ⟨⟩
        rw [isFirst] at other
        cases other
      exact ((noSign (by decide) []).before _).firstOf_takes <|
        ((noSign (by decide) []).before _).firstOf_takes <|
          (takes.map _).firstOf _

theorem convert_of_means {literal : Decimal} {numeral : Numeral}
    (means : numeral.Means literal) (wellFormed : literal.IsWellFormed)
    (short : literal.isInteger → literal.whole.length ≤ integerDigitLimit) :
    numeral.convert literal.negative = .ok literal.value := by
  rcases means with ⟨exponent, rfl, same⟩
  rcases wellFormed.exists_cons with ⟨first, others, whole, -⟩
  have literalSame : (⟨literal.negative, literal.whole, literal.fraction,
      exponent.map fun (sign, digits) => (decide (sign = some '-'), digits)⟩ :
      Decimal) = literal := by rw [same]
  simp only [Numeral.convert, Option.getD_some, literalSame]
  rw [Decimal.value]
  split
  · next integer => rw [if_neg (Nat.not_lt.2 (short integer))]
  · have digits :
        (literal.whole ++ literal.fraction.getD []).isEmpty = false := by
      rw [whole]
      rfl
    rw [digits]
    rcases exponent with _ | ⟨sign, _ | ⟨digit, more⟩⟩
    · rfl
    · exact absurd rfl (wellFormed.exponent (_, []) same.symm).1
    · rfl

end FencedJson.Json.Relaxed
