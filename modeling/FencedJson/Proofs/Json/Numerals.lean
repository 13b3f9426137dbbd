import FencedJson.Proofs.Json.Strings
import Mathlib.Data.List.TakeWhile

/-! # Numerals read

The reader of numbers takes exactly what the grammar spells, as far as what
follows cannot belong to a numeral.
-/

namespace FencedJson

def NoDigit (text : List Char) : Prop := ∀ c ∈ text.head?, isDigit c = false

theorem takeWhile_isDigit {digits rest : List Char}
    (all : ∀ c ∈ digits, isDigit c) (stop : NoDigit rest) :
    (digits ++ rest).takeWhile isDigit = digits := by
  rw [List.takeWhile_append_of_pos all]
  cases rest with
  | nil => simp
  | cons c left => simp [stop c rfl]

theorem dropWhile_isDigit {digits rest : List Char}
    (all : ∀ c ∈ digits, isDigit c) (stop : NoDigit rest) :
    (digits ++ rest).dropWhile isDigit = rest := by
  rw [List.dropWhile_append_of_pos all]
  cases rest with
  | nil => rfl
  | cons c left => simp [stop c rfl]

namespace Json

theorem isDigits_cons {digit : Char} {text : List Char}
    (first : isDigit digit) :
    IsDigits (digit :: text.takeWhile isDigit) := by
  refine ⟨List.cons_ne_nil _ _, fun c member => ?_⟩
  rcases List.mem_cons.1 member with rfl | later
  · exact first
  · exact List.mem_takeWhile_imp later

theorem IsDigits.exists_cons {digits : List Char} (all : IsDigits digits) :
    ∃ digit others, digits = digit :: others ∧ isDigit digit ∧
    ∀ c ∈ others, isDigit c := by
  cases digits with
  | nil => exact absurd rfl all.1
  | cons digit others =>
      exact ⟨digit, others, rfl, all.2 digit (List.mem_cons_self ..),
        fun c member => all.2 c (List.mem_cons_of_mem _ member)⟩

theorem Decimal.IsWellFormed.exists_cons {literal : Decimal}
    (wellFormed : literal.IsWellFormed) :
    ∃ first others, literal.whole = first :: others ∧ isDigit first := by
  rcases wellFormed.whole with zero | ⟨all, -⟩
  · exact ⟨'0', [], zero, rfl⟩
  · rcases all.exists_cons with ⟨first, others, same, isFirst, -⟩
    exact ⟨first, others, same, isFirst⟩

theorem IsDigits.noSign {digits rest : List Char} (all : IsDigits digits) :
    (digits ++ rest).head? ≠ some '-' := by
  rcases all.exists_cons with ⟨digit, others, rfl, first, -⟩
  intro same
  cases same
  simp [isDigit] at first

namespace Strict

/-! ## The parts of a numeral -/

section

variable {text rest digits : List Char}

theorem wholePart?_sound {whole : List Char}
    (found : wholePart? text = some (whole, rest)) :
    text = whole ++ rest ∧
    (whole = ['0'] ∨ IsDigits whole ∧ whole.head? ≠ some '0') := by
  unfold wholePart? at found
  split at found
  · cases found
    exact ⟨rfl, .inl rfl⟩
  · next digit left notZero =>
      split at found
      · next first =>
          cases found
          refine ⟨?_, .inr ⟨isDigits_cons first, ?_⟩⟩
          · rw [List.cons_append, List.takeWhile_append_dropWhile]
          · simpa using notZero
      · cases found
  · cases found

theorem wholePart?_complete {whole : List Char}
    (wellFormed : whole = ['0'] ∨ IsDigits whole ∧ whole.head? ≠ some '0')
    (stop : NoDigit rest) : wholePart? (whole ++ rest) =
      some (whole, rest) := by
  rcases wellFormed with rfl | ⟨all, notZero⟩
  · rfl
  · rcases all.exists_cons with ⟨digit, others, rfl, first, more⟩
    have other : digit ≠ '0' := by simpa using notZero
    rw [List.cons_append, wholePart?, if_pos first, takeWhile_isDigit more stop,
      dropWhile_isDigit more stop]
    exact other

theorem fraction_sound (text : List Char) :
    text = Decimal.fractionText (fraction text).1 ++ (fraction text).2 ∧
      ∀ digits ∈ (fraction text).1, IsDigits digits := by
  unfold fraction
  split
  · next digit left =>
      split
      · next first =>
          refine ⟨?_, fun digits same => ?_⟩
          · simp [Decimal.fractionText, List.takeWhile_append_dropWhile]
          · cases same
            exact isDigits_cons first
      · exact ⟨rfl, by simp⟩
  · exact ⟨rfl, by simp⟩

theorem fraction_complete {part : Option (List Char)}
    (all : ∀ digits ∈ part, IsDigits digits) (stop : NoDigit rest)
    (noPoint : rest.head? ≠ some '.') :
    fraction (Decimal.fractionText part ++ rest) = (part, rest) := by
  cases part with
  | none =>
      change fraction rest = (none, rest)
      unfold fraction
      split
      · simp at noPoint
      · rfl
  | some digits =>
      rcases (all digits rfl).exists_cons with ⟨digit, others, rfl, first, more⟩
      simp [Decimal.fractionText, fraction, first, takeWhile_isDigit more stop,
        dropWhile_isDigit more stop]

theorem minusSign_sound (text : List Char) :
    text = Decimal.signText (minusSign text).1 ++ (minusSign text).2 := by
  unfold minusSign
  split <;> rfl

theorem minusSign_complete (negative : Bool) (noSign : rest.head? ≠ some '-') :
    minusSign (Decimal.signText negative ++ rest) = (negative, rest) := by
  cases negative with
  | true => rfl
  | false =>
      change minusSign rest = (false, rest)
      unfold minusSign
      split
      · simp at noSign
      · rfl

private theorem exponentSign_sound (text : List Char) :
    ∃ sign, (sign = Decimal.signText (exponentSign text).1 ∨
        (exponentSign text).1 = false ∧ sign = ['+']) ∧
      text = sign ++ (exponentSign text).2 := by
  unfold exponentSign
  split
  · exact ⟨['+'], .inr ⟨rfl, rfl⟩, rfl⟩
  · exact ⟨_, .inl rfl, minusSign_sound text⟩

theorem exponentSign_complete {negative : Bool} {sign : List Char}
    (spelling : sign = Decimal.signText negative ∨
      negative = false ∧ sign = ['+'])
    (noSign : rest.head? ≠ some '-' ∧ rest.head? ≠ some '+') :
    exponentSign (sign ++ rest) = (negative, rest) := by
  rcases spelling with rfl | ⟨rfl, rfl⟩
  · rw [exponentSign]
    · exact minusSign_complete _ noSign.1
    · intro left same
      cases negative <;> simp_all [Decimal.signText]
  · rfl

theorem exponent_sound (text : List Char) :
    (∃ front, Decimal.SpellsExponent (exponent text).1 front ∧
        text = front ++ (exponent text).2) ∧
      ∀ part ∈ (exponent text).1, IsDigits part.2 := by
  unfold exponent
  split
  · next letter left =>
      split
      · next isLetter =>
          rcases exponentSign_sound left with ⟨sign, spelling, split⟩
          split
          · exact ⟨⟨[], rfl, rfl⟩, by simp⟩
          · next digits taken some =>
              refine ⟨⟨letter :: (sign ++ _),
                ⟨letter, sign, isLetter, spelling, rfl⟩, ?_⟩,
                fun part same => ?_⟩
              · rw [List.cons_append, List.append_assoc,
                  List.takeWhile_append_dropWhile, ← split]
              · cases same
                exact ⟨some, fun c => List.mem_takeWhile_imp⟩
      · exact ⟨⟨[], rfl, rfl⟩, by simp⟩
  · exact ⟨⟨[], rfl, rfl⟩, by simp⟩

theorem exponent_complete {part : Option (Bool × List Char)} {front : List Char}
    (spells : Decimal.SpellsExponent part front)
    (all : ∀ exponent ∈ part, IsDigits exponent.2) (stop : NoDigit rest)
    (noLetter : rest.head? ≠ some 'e' ∧ rest.head? ≠ some 'E') :
    exponent (front ++ rest) = (part, rest) := by
  cases part with
  | none =>
      cases spells
      cases rest with
      | nil => rfl
      | cons c left =>
          have other : ¬ (c = 'e' ∨ c = 'E') := by simpa using noLetter
          simp only [List.nil_append, exponent, if_neg other]
  | some exponent' =>
      rcases exponent' with ⟨negative, digits⟩
      rcases spells with ⟨letter, sign, isLetter, spelling, rfl⟩
      rcases (all _ rfl).exists_cons with ⟨digit, others, rfl, first, more⟩
      have noSign : (digit :: (others ++ rest)).head? ≠ some '-' ∧
          (digit :: (others ++ rest)).head? ≠ some '+' := by
        constructor <;> intro same <;> cases same <;> simp [isDigit] at first
      have signed := exponentSign_complete spelling noSign
      have taken := takeWhile_isDigit (all _ rfl).2 stop
      have dropped := dropWhile_isDigit (all _ rfl).2 stop
      rw [List.cons_append] at taken dropped
      rw [List.cons_append, List.append_assoc, List.cons_append, exponent,
        if_pos isLetter, signed, taken, dropped]

end

/-! ## Numerals -/

def IsStop (c : Char) : Prop := isBlank c ∨ c = ',' ∨ c = ']' ∨ c = '\x7d'

instance (c : Char) : Decidable (IsStop c) :=
  inferInstanceAs (Decidable (isBlank c ∨ c = ',' ∨ c = ']' ∨ c = '\x7d'))

theorem isBlank_eq_false_of_not_isStop {c : Char} (solid : ¬ IsStop c) :
    isBlank c = false := by
  rw [← Bool.not_eq_true]
  exact fun blank => solid (.inl blank)

def IsBoundary (rest : List Char) : Prop := ∀ c ∈ rest.head?, IsStop c

theorem IsBoundary.ne {rest : List Char} {c : Char} (boundary : IsBoundary rest)
    (other : ¬ IsStop c) : rest.head? ≠ some c :=
  fun same => other (boundary c same)

theorem isBoundary_cons {c : Char} (stop : IsStop c) (rest : List Char) :
    IsBoundary (c :: rest) := by
  intro head same
  cases same
  exact stop

theorem IsBoundary.noDigit {rest : List Char} (boundary : IsBoundary rest) :
    NoDigit rest := by
  intro c same
  rcases boundary c same with blank | rfl | rfl | rfl
  · simp only [isBlank, Bool.or_eq_true, decide_eq_true_eq] at blank
    rcases blank with ((rfl | rfl) | rfl) | rfl <;> rfl
  · rfl
  · rfl
  · rfl

theorem literal?_sound {text rest : List Char} {literal : Decimal}
    (found : literal? text = some (literal, rest)) :
    ∃ front, literal.Spells front ∧ text = front ++ rest := by
  unfold literal? at found
  rcases Option.map_eq_some_iff.1 found with
    ⟨⟨whole, afterWhole⟩, wholeFound, found⟩
  rcases wholePart?_sound wholeFound with ⟨afterSign, wholeForm⟩
  rcases fraction_sound afterWhole with ⟨split, fractionForm⟩
  rcases exponent_sound (fraction afterWhole).2 with
    ⟨⟨exponentText, spelling, left⟩, exponentForm⟩
  have sign := minusSign_sound text
  simp only [Prod.mk.injEq] at found
  rcases found with ⟨rfl, rfl⟩
  refine ⟨_, ⟨⟨wholeForm, fractionForm, exponentForm⟩, exponentText,
    spelling, rfl⟩, ?_⟩
  simp only [List.append_assoc]
  rw [← left, ← split, ← afterSign, ← sign]

theorem head?_exponent {part : Option (Bool × List Char)} {front : List Char}
    (spells : Decimal.SpellsExponent part front) (rest : List Char) :
    (front ++ rest).head? = rest.head? ∨ (front ++ rest).head? = some 'e' ∨
      (front ++ rest).head? = some 'E' := by
  cases part with
  | none =>
      cases spells
      exact .inl rfl
  | some exponent =>
      rcases spells with ⟨letter, sign, isLetter, -, rfl⟩
      simpa using .inr isLetter

theorem noDigit_exponent {part : Option (Bool × List Char)}
    {front rest : List Char} (spells : Decimal.SpellsExponent part front)
    (boundary : IsBoundary rest) :
    NoDigit (front ++ rest) := by
  intro c same
  rcases head?_exponent spells rest with
    later | later | later <;> rw [later] at same
  · exact boundary.noDigit c same
  · cases same; rfl
  · cases same; rfl

theorem noPoint_exponent {part : Option (Bool × List Char)}
    {front rest : List Char} (spells : Decimal.SpellsExponent part front)
    (boundary : IsBoundary rest) :
    (front ++ rest).head? ≠ some '.' := by
  rcases head?_exponent spells rest with later | later | later <;> rw [later]
  · exact boundary.ne (by decide)
  · decide
  · decide

theorem noDigit_fraction {rest : List Char} (fraction : Option (List Char))
    (noDigit : NoDigit rest) :
    NoDigit (Decimal.fractionText fraction ++ rest) := by
  cases fraction with
  | none => exact noDigit
  | some digits => exact fun c same => by cases same; rfl

theorem literal?_complete {front rest : List Char} {literal : Decimal}
    (spells : literal.Spells front) (boundary : IsBoundary rest) :
    literal? (front ++ rest) = some (literal, rest) := by
  rcases spells with ⟨wellFormed, exponentText, spelling, rfl⟩
  rcases literal with ⟨negative, whole, fractionPart, exponentPart⟩
  have exponentRead := exponent_complete spelling wellFormed.exponent
      boundary.noDigit
    ⟨boundary.ne (by decide), boundary.ne (by decide)⟩
  have noDigit := noDigit_exponent spelling boundary
  have noPoint := noPoint_exponent spelling boundary
  have fractionRead := fraction_complete wellFormed.fraction noDigit noPoint
  have wholeRead := wholePart?_complete wellFormed.whole
      (noDigit_fraction fractionPart noDigit)
  have noSign :
      (whole ++
        (Decimal.fractionText fractionPart ++ (exponentText ++ rest))).head? ≠
          some '-' := by
    rcases wellFormed.whole with zero | ⟨all, -⟩
    · change whole = ['0'] at zero
      simp [zero]
    · exact IsDigits.noSign all
  have signRead := minusSign_complete negative noSign
  simp only [List.append_assoc]
  rw [literal?, signRead, wholeRead, Option.map_some]
  simp only [fractionRead, exponentRead]

theorem number_sound {text rest : List Char} {value : Value}
    (read : Reads number text value rest) :
    ∃ (literal : Decimal) (front : List Char), literal.Spells front ∧
    text = front ++ rest ∧
      value = literal.value ∧
      (literal.isInteger → literal.whole.length ≤ integerDigitLimit) := by
  rcases read with ⟨shorter, read⟩
  unfold number at read
  split at read
  · cases read
  · next literal left found =>
      rcases literal?_sound found with ⟨front, spells, split⟩
      refine ⟨literal, front, spells, ?_⟩
      split at read
      · next integer =>
          split at read
          · cases read
          · next short =>
              cases read
              exact
                ⟨split, by
                  simp [Decimal.value, integer], fun _ => Nat.not_lt.1 short⟩
      · next notInteger =>
          cases read
          exact ⟨split, by simp [Decimal.value, notInteger],
            fun integer => absurd integer notInteger⟩

theorem number_complete {front rest : List Char} {literal : Decimal}
    (spells : literal.Spells front) (boundary : IsBoundary rest)
    (short : literal.isInteger → literal.whole.length ≤ integerDigitLimit) :
    Reads number (front ++ rest) literal.value rest := by
  have found := literal?_complete spells boundary
  refine ⟨length_literal?_lt found, ?_⟩
  unfold number
  split
  · next none => rw [found] at none; cases none
  · next other left again =>
      rw [found] at again
      cases again
      split
      · next integer =>
          rw [if_neg (Nat.not_lt.2 (short integer))]
          simp [Decimal.value, integer]
      · next notInteger => simp [Decimal.value, notInteger]

end Strict
end Json
end FencedJson
