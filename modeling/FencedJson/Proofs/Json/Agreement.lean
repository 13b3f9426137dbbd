import FencedJson.Proofs.Json.Brackets
import FencedJson.Proofs.Json.Failure
import FencedJson.Proofs.Json.Rounding

/-! # Strict JSON is the grammar

The strict reader accepts the JSON texts of the grammar, as far as it follows
their nesting and converts their integers, and gives each of them the value that
it denotes.
-/

namespace FencedJson.Json

/-! ## Phrases in a row -/

def PairSpells (member : List StringPart × Phrase) (text : List Char) : Prop :=
  IsMember member.1 member.2.Spells text

theorem spellItems_iff {items : List Phrase} {body : List Char} :
    SpellItems items body ↔ Series Phrase.Spells items body := by
  induction items generalizing body with
  | nil => rfl
  | cons item rest induction =>
      cases rest with
      | nil => rfl
      | cons next rest => simp only [SpellItems, Series, induction]

theorem spellMembers_iff {members : List (List StringPart × Phrase)}
    {body : List Char} :
    SpellMembers members body ↔ Series PairSpells members body := by
  induction members generalizing body with
  | nil => rfl
  | cons member rest induction =>
      cases rest with
      | nil => rfl
      | cons next rest =>
          simp only [SpellMembers, Series, induction]
          rfl

theorem itemValues_eq_map (items : List Phrase) :
    itemValues items = items.map Phrase.value := by
  induction items with
  | nil => rfl
  | cons item rest induction => rw [itemValues, induction, List.map_cons]

theorem memberValues_eq_map (members : List (List StringPart × Phrase)) :
    memberValues members = members.map fun member =>
      (decoded member.1, member.2.value) := by
  induction members with
  | nil => rfl
  | cons member rest induction => rw [memberValues, induction, List.map_cons]

structure Phrase.Fits (depth : Nat) (phrase : Phrase) : Prop where
  shallow : phrase.nesting ≤ depth
  short : ∀ literal ∈ phrase.literals,
    literal.isInteger → literal.whole.length ≤ integerDigitLimit

theorem fits_array_iff {depth : Nat} {items : List Phrase} :
    (Phrase.array items).Fits (depth + 1) ↔
    ∀ item ∈ items, item.Fits depth := by
  induction items with
  | nil =>
      simp only [List.not_mem_nil, false_implies, implies_true, iff_true]
      exact ⟨Nat.succ_le_succ
        (Nat.zero_le _), by simp [Phrase.literals, itemLiterals]⟩
  | cons item rest induction =>
      rw [List.forall_mem_cons, ← induction]
      constructor
      · rintro ⟨shallow, short⟩
        rcases Nat.max_le.1 (Nat.le_of_succ_le_succ shallow) with
          ⟨first, others⟩
        rcases List.forall_mem_append.1 short with ⟨head, tail⟩
        exact ⟨⟨first, head⟩, Nat.succ_le_succ others, tail⟩
      · rintro ⟨⟨first, head⟩, others, tail⟩
        exact ⟨Nat.succ_le_succ
          (Nat.max_le.2 ⟨first, Nat.le_of_succ_le_succ others⟩),
          List.forall_mem_append.2 ⟨head, tail⟩⟩

private theorem memberNesting_eq (members : List (List StringPart × Phrase)) :
    memberNesting members = itemNesting (members.map Prod.snd) := by
  induction members with
  | nil => rfl
  | cons member rest induction =>
      rw [memberNesting, induction, List.map_cons, itemNesting]

private theorem memberLiterals_eq (members : List (List StringPart × Phrase)) :
    memberLiterals members = itemLiterals (members.map Prod.snd) := by
  induction members with
  | nil => rfl
  | cons member rest induction =>
      rw [memberLiterals, induction, List.map_cons, itemLiterals]

theorem fits_object_iff {depth : Nat}
    {members : List (List StringPart × Phrase)} :
    (Phrase.object members).Fits (depth + 1) ↔
    ∀ member ∈ members, member.2.Fits depth := by
  have nesting : (Phrase.object members).nesting =
      (Phrase.array (members.map Prod.snd)).nesting :=
        congrArg (· + 1) (memberNesting_eq members)
  have literals : (Phrase.object members).literals =
      (Phrase.array (members.map Prod.snd)).literals :=
        memberLiterals_eq members
  have same : (Phrase.object members).Fits (depth + 1) ↔
      (Phrase.array (members.map Prod.snd)).Fits (depth + 1) :=
    ⟨fun fits => ⟨nesting ▸ fits.shallow, literals ▸ fits.short⟩,
      fun fits => ⟨nesting ▸ fits.shallow, literals ▸ fits.short⟩⟩
  rw [same, fits_array_iff, List.forall_mem_map]

theorem fits_of_scalar {depth : Nat} {phrase : Phrase}
    (flat : phrase.nesting = 0) (none : phrase.literals = []) :
    phrase.Fits depth :=
  ⟨by omega, by simp [none]⟩

theorem Decimal.Spells.exists_cons {literal : Decimal} {front : List Char}
    (spells : literal.Spells front) :
    ∃ c left, front = c :: left ∧
      (isDigit c ∨ c = '-' ∧ ∃ digit more, left = digit :: more ∧
        isDigit digit) := by
  rcases spells with ⟨wellFormed, exponentText, -, rfl⟩
  rcases wellFormed.exists_cons with ⟨digit, others, whole, first⟩
  rw [whole]
  cases literal.negative with
  | true => exact ⟨'-', _, rfl, .inr ⟨rfl, digit, _, rfl, first⟩⟩
  | false => exact ⟨digit, _, rfl, .inl first⟩

theorem Decimal.denotes_value (literal : Decimal) :
    literal.Denotes literal.value := by
  unfold value
  split
  · next integer => exact denotes_toInt integer
  · next broken => exact denotes_toDouble (Bool.eq_false_of_not_eq_true broken)

/-- A constant begins with one of two letters or with a minus sign in front of
the latter. -/
theorem Constant.atFront?_eq_none {c : Char} {text : List Char}
    (other : c ≠ 'N' ∧ c ≠ 'I') (noMinus : c = '-' → text.head? ≠ some 'I') :
    atFront? (c :: text) = none := by
  rw [atFront?, List.findSome?_eq_none_iff]
  intro constant _
  rw [Option.map_eq_none_iff, Option.eq_none_iff_forall_ne_some]
  intro following found
  rw [after?_eq_some_iff] at found
  cases constant with
  | nan => exact other.1 (List.cons.inj found).1
  | infinity => exact other.2 (List.cons.inj found).1
  | negativeInfinity =>
      rcases List.cons.inj found with ⟨minus, rest⟩
      exact noMinus minus (by rw [rest]; rfl)

/-! ## Short texts -/

theorem Series.exists_inside {α : Type} {spells : α → List Char → Prop}
    {items : List α} {body : List Char} (series : Series spells items body)
    {item : α} (member : item ∈ items) :
    ∃ text, spells item text ∧ text <:+: body := by
  have padded {text : List Char} (padded : IsPadded (spells item) text) :
      ∃ inner, spells item inner ∧ inner <:+: text := by
    rcases padded with ⟨before, inner, after, -, spelling, -, rfl⟩
    exact ⟨inner, spelling, before, after, List.append_assoc _ _ _⟩
  induction items generalizing body with
  | nil => cases member
  | cons first rest induction =>
      cases rest with
      | nil =>
          rw [List.mem_singleton.1 member] at padded ⊢
          exact padded series
      | cons next rest =>
          rcases series with ⟨front, back, here, others, rfl⟩
          rcases List.mem_cons.1 member with rfl | later
          · rcases padded here with ⟨inner, spelling, inside⟩
            exact ⟨inner, spelling, inside.trans
              (List.prefix_append _ _).isInfix⟩
          · rcases induction others later with ⟨inner, spelling, inside⟩
            have behind : back <:+ front ++ ',' :: back :=
              (List.suffix_cons ',' back).trans (List.suffix_append _ _)
            exact ⟨inner, spelling, inside.trans behind.isInfix⟩

private theorem Decimal.Spells.length_whole_le {literal : Decimal}
    {text : List Char} (spells : literal.Spells text) :
    literal.whole.length ≤ text.length := by
  rcases spells with ⟨-, exponentText, -, rfl⟩
  simp only [List.length_append]
  omega

theorem Phrase.Spells.fits {phrase : Phrase} {text : List Char}
    (spells : phrase.Spells text) (short : text.length ≤ integerDigitLimit)
    {depth : Nat} (shallow : text.length ≤ depth) :
    phrase.Fits depth := by
  cases phrase with
  | null | boolean | string => exact fits_of_scalar rfl rfl
  | number literal =>
      refine ⟨Nat.zero_le _, fun same member _ => ?_⟩
      rw [List.mem_singleton.1 member]
      exact (Decimal.Spells.length_whole_le spells).trans short
  | array items =>
      rcases spells with ⟨body, spells, rfl⟩
      simp only [List.length_cons, List.length_append] at short shallow
      cases depth with
      | zero => omega
      | succ depth =>
          refine fits_array_iff.2 fun item member => ?_
          rcases (spellItems_iff.1 spells).exists_inside member with
            ⟨inner, spelling, inside⟩
          have bound := inside.length_le
          exact Phrase.Spells.fits spelling (by omega) (by omega)
  | object members =>
      rcases spells with ⟨body, spells, rfl⟩
      simp only [List.length_cons, List.length_append] at short shallow
      cases depth with
      | zero => omega
      | succ depth =>
          refine fits_object_iff.2 fun member among => ?_
          rcases (spellMembers_iff.1 spells).exists_inside among with
            ⟨_, ⟨before, inner, after, -, -, spelling, rfl⟩, inside⟩
          have bound := inside.length_le
          simp only [List.length_append, List.length_cons] at bound
          exact Phrase.Spells.fits spelling (by omega) (by omega)

theorem Phrase.IsTextOf.fits_of_le {phrase : Phrase} {text : String}
    (isText : phrase.IsTextOf text) {depth : Nat} (short : text.length ≤ depth)
    (room : depth ≤ integerDigitLimit) : phrase.Fits depth := by
  rcases isText with ⟨before, inner, after, -, spells, -, split⟩
  rw [← String.length_toList, split] at short
  simp only [List.length_append] at short
  exact Phrase.Spells.fits spells (by omega) (by omega)

theorem Phrase.IsTextOf.fits {phrase : Phrase} {text : String}
    (isText : phrase.IsTextOf text) (short : text.length ≤ 200) :
    phrase.Fits 200 :=
  isText.fits_of_le short (by decide)

def Denotes (depth : Nat) (value : Value) (text : List Char) : Prop :=
  ∃ phrase : Phrase, phrase.Fits depth ∧ phrase.value = value ∧
  phrase.Spells text

namespace Strict

def IsStart (c : Char) : Prop :=
  isDigit c ∨ c ∈ ['"', '[', '\x7b', '-', 'n', 't', 'f']

private theorem not_isStop_of_isStart {c : Char} (start : IsStart c) :
    ¬ IsStop c := by
  rcases start with digit | named
  · intro stop
    rw [(isBoundary_cons stop []).noDigit c rfl] at digit
    cases digit
  · simp only [List.mem_cons, List.not_mem_nil, or_false] at named
    rcases named with rfl | rfl | rfl | rfl | rfl | rfl | rfl <;> decide

theorem exists_start_of_spells {phrase : Phrase} {front : List Char}
    (spells : phrase.Spells front) : ∃ c left, front = c :: left ∧
    IsStart c := by
  cases phrase with
  | null =>
      cases spells
      exact ⟨'n', _, rfl, .inr (by decide)⟩
  | boolean value =>
      cases value <;> cases spells
      · exact ⟨'f', _, rfl, .inr (by decide)⟩
      · exact ⟨'t', _, rfl, .inr (by decide)⟩
  | number literal =>
      rcases Decimal.Spells.exists_cons spells with
        ⟨c, left, rfl, digit | ⟨rfl, -⟩⟩
      · exact ⟨c, left, rfl, .inl digit⟩
      · exact ⟨'-', left, rfl, .inr (by decide)⟩
  | string parts =>
      cases spells
      exact ⟨'"', _, rfl, .inr (by decide)⟩
  | array items =>
      rcases spells with ⟨body, -, rfl⟩
      exact ⟨'[', _, rfl, .inr (by decide)⟩
  | object members =>
      rcases spells with ⟨body, -, rfl⟩
      exact ⟨'\x7b', _, rfl, .inr (by decide)⟩

theorem exists_start {depth : Nat} {value : Value} {front : List Char}
    (denotes : Denotes depth value front) : ∃ c left, front = c :: left ∧
    IsStart c := by
  rcases denotes with ⟨phrase, -, -, spells⟩
  exact exists_start_of_spells spells

theorem isFirm_denotes (depth : Nat) : IsFirm (Denotes depth) := by
  intro value front denotes
  rcases exists_start denotes with ⟨c, left, same, start⟩
  exact ⟨c, left, same, not_isStop_of_isStart start⟩

theorem memberSpells_denotes (depth : Nat) : MemberSpells (Denotes depth) =
    fun pair text => ∃ member : List StringPart × Phrase, member.2.Fits depth ∧
      (decoded member.1, member.2.value) = pair ∧ PairSpells member text := by
  funext pair text
  apply propext
  constructor
  · rintro ⟨name, key, before, inner, after, blank, blank',
      ⟨phrase, fits, value, spells⟩, rfl⟩
    exact ⟨(name, phrase), fits, Prod.ext key value, before, inner, after,
      blank, blank', spells, rfl⟩
  · rintro ⟨⟨name, phrase⟩, fits, rfl, before, inner, after, blank,
      blank', spells, rfl⟩
    exact ⟨name, rfl, before, inner, after, blank, blank',
      ⟨phrase, fits, rfl, spells⟩, rfl⟩

section

variable {depth : Nat} {body : List Char}

theorem denotes_array_iff {values : List Value} :
    Series (Denotes depth) values body ↔
    ∃ items, (Phrase.array items).Fits (depth + 1) ∧ itemValues items = values ∧
      SpellItems items body := by
  simp only [fits_array_iff, itemValues_eq_map, spellItems_iff]
  exact series_exists_iff

theorem denotes_object_iff {pairs : List (CodeText × Value)} :
    Series (MemberSpells (Denotes depth)) pairs body ↔
      ∃ members, (Phrase.object members).Fits (depth + 1) ∧
      memberValues members = pairs ∧ SpellMembers members body := by
  simp only [fits_object_iff, memberValues_eq_map, spellMembers_iff,
    memberSpells_denotes]
  exact series_exists_iff

end

theorem isSound_value (depth : Nat) :
    IsSound (value depth) (Denotes depth) := by
  rintro text result rest ⟨shorter, read⟩
  fun_cases value depth text with
  | case1 text =>
      rw [value] at read
      rcases map_widen_eq_ok_iff.1 (telling_eq_ok_iff.1 read) with
        ⟨name, nameShorter, taken, rfl⟩
      rcases spelled_of_stringBody taken with ⟨parts, rfl, rfl⟩
      refine ⟨quoted parts, ⟨.string parts, fits_of_scalar rfl rfl, rfl, rfl⟩,
        ?_⟩
      simp only [quoted, List.cons_append, List.append_assoc, List.nil_append]
  | case2 | case4 => simp [value] at read
  | case3 text depth =>
      rw [value] at read
      rcases map_widen_eq_ok_iff.1 (telling_eq_ok_iff.1 read) with
        ⟨values, valuesShorter, taken, rfl⟩
      rcases bracketed_sound (isSound_value depth) ⟨valuesShorter, taken⟩ with
        ⟨body, series, rfl⟩
      rcases denotes_array_iff.1 series with ⟨items, fits, rfl, spells⟩
      refine ⟨_, ⟨.array items, fits, rfl, body, spells, rfl⟩, ?_⟩
      simp only [List.cons_append, List.append_assoc, List.nil_append]
  | case5 text depth =>
      rw [value] at read
      rcases map_widen_eq_ok_iff.1 (telling_eq_ok_iff.1 read) with
        ⟨pairs, pairsShorter, taken, rfl⟩
      rcases bracketed_sound (isSound_member (isSound_value depth))
        ⟨pairsShorter, taken⟩ with ⟨body, series, rfl⟩
      rcases denotes_object_iff.1 series with ⟨members, fits, rfl, spells⟩
      refine ⟨_, ⟨.object members, fits, ?_, body, spells, rfl⟩, ?_⟩
      · rw [Phrase.value, entriesOf_eq_lastEntries]
      · simp only [List.cons_append, List.append_assoc, List.nil_append]
  | case6 text =>
      rw [value] at read
      cases read
      exact ⟨_, ⟨.null, fits_of_scalar rfl rfl, rfl, rfl⟩, rfl⟩
  | case7 text =>
      rw [value] at read
      cases read
      exact ⟨_, ⟨.boolean true, fits_of_scalar rfl rfl, rfl, rfl⟩, rfl⟩
  | case8 text =>
      rw [value] at read
      cases read
      exact ⟨_, ⟨.boolean false, fits_of_scalar rfl rfl, rfl, rfl⟩, rfl⟩
  | case9 depth text notString notArray notObject notNull notTrue notFalse
      constant following found =>
      rw [value] at read
      · simp [found] at read
      all_goals assumption
  | case10 depth text notString notArray notObject notNull notTrue
      notFalse other =>
      rw [value] at read
      · simp only [other] at read
        rcases number_sound ⟨shorter, read⟩ with
          ⟨literal, front, spells, split, rfl, short⟩
        refine ⟨front, ⟨.number literal, ⟨Nat.zero_le _, ?_⟩, rfl, spells⟩,
          split⟩
        intro same member
        rw [List.mem_singleton.1 member]
        exact short
      all_goals assumption

private theorem atFront?_of_spells {literal : Decimal} {front : List Char}
    (spells : literal.Spells front) (rest : List Char) :
    Constant.atFront? (front ++ rest) = none := by
  rcases spells.exists_cons with
    ⟨c, left, rfl, digit | ⟨rfl, digit, more, rfl, digits⟩⟩
  · refine Constant.atFront?_eq_none
      ⟨?_, ?_⟩ ?_ <;> rintro rfl <;> simp [isDigit] at digit
  · refine Constant.atFront?_eq_none (by decide) fun _ same => ?_
    cases same
    simp [isDigit] at digits

theorem reads_number {depth : Nat} {literal : Decimal} {front rest : List Char}
    (spells : literal.Spells front) (boundary : IsBoundary rest)
    (short : literal.isInteger → literal.whole.length ≤ integerDigitLimit) :
    Reads (value depth) (front ++ rest) literal.value rest := by
  rcases number_complete spells boundary short with ⟨shorter, read⟩
  have none := atFront?_of_spells spells rest
  refine ⟨shorter, ?_⟩
  rw [value]
  · simp only [none, read]
  all_goals
    intro following same
    rcases spells.exists_cons with ⟨c, left, rfl, starts⟩
    rw [List.cons_append, List.cons.injEq] at same
    rcases same with ⟨rfl, -⟩
    simp [isDigit] at starts

theorem reads_string {depth : Nat} (parts : List StringPart)
    (rest : List Char) :
    Reads (value depth) (quoted parts ++ rest)
    (.string (decoded parts)) rest := by
  have text : quoted parts ++ rest = '"' :: (spelled parts ++ '"' :: rest) := by
    simp only [quoted, List.cons_append, List.append_assoc, List.nil_append]
  rcases reads_spelled ('"' :: (spelled parts ++ '"' :: rest)) rest parts with
    ⟨shorter, read⟩
  rw [text]
  refine ⟨Nat.lt_succ_of_lt shorter, ?_⟩
  rw [value]
  exact telling_eq_ok_iff.2 <| map_widen_eq_ok_iff.2
    ⟨decoded parts, shorter, read, rfl⟩

theorem reads_array {depth : Nat} {text rest : List Char} {items : List Value}
    (read : Reads (bracketed ']' (value depth)) text items rest) :
    Reads (value (depth + 1)) ('[' :: text) (.array items) rest := by
  rcases read with ⟨shorter, read⟩
  refine ⟨Nat.lt_succ_of_lt shorter, ?_⟩
  rw [value]
  exact telling_eq_ok_iff.2 <| map_widen_eq_ok_iff.2 ⟨items, shorter, read, rfl⟩

theorem reads_object {depth : Nat} {text rest : List Char}
    {members : List (CodeText × Value)}
    (read : Reads (bracketed '\x7d' (member (value depth))) text members rest) :
    Reads (value (depth + 1)) ('\x7b' :: text)
    (.object (lastEntries members)) rest := by
  rcases read with ⟨shorter, read⟩
  refine ⟨Nat.lt_succ_of_lt shorter, ?_⟩
  rw [value]
  exact telling_eq_ok_iff.2 <| map_widen_eq_ok_iff.2
    ⟨members, shorter, read, by rw [entriesOf_eq_lastEntries]⟩

theorem isComplete_value (depth : Nat) :
    IsComplete (value depth) (Denotes depth) := by
  rintro front _ rest ⟨phrase, fits, rfl, spells⟩ boundary
  cases phrase with
  | null =>
      cases spells
      change Reads (value depth) ('n' :: 'u' :: 'l' :: 'l' :: rest) .null rest
      exact ⟨by simp only [List.length_cons]; omega, by rw [value]⟩
  | boolean truth =>
      cases truth with
      | true =>
          cases spells
          change Reads (value depth) ('t' :: 'r' :: 'u' :: 'e' :: rest)
            (.boolean true) rest
          exact ⟨by simp only [List.length_cons]; omega, by rw [value]⟩
      | false =>
          cases spells
          change Reads (value depth) ('f' :: 'a' :: 'l' :: 's' :: 'e' :: rest)
            (.boolean false) rest
          exact ⟨by simp only [List.length_cons]; omega, by rw [value]⟩
  | number literal =>
      exact reads_number spells boundary
        (fits.short literal (List.mem_singleton_self _))
  | string parts =>
      cases spells
      exact reads_string parts rest
  | array items =>
      rcases spells with ⟨body, spells, rfl⟩
      cases depth with
      | zero => exact absurd fits.shallow (Nat.not_succ_le_zero _)
      | succ depth =>
          rw [List.cons_append, List.append_assoc]
          exact reads_array
            (bracketed_complete (isComplete_value depth) (isFirm_denotes depth)
              (.inl rfl) (denotes_array_iff.2 ⟨items, fits, rfl, spells⟩))
  | object members =>
      rcases spells with ⟨body, spells, rfl⟩
      cases depth with
      | zero => exact absurd fits.shallow (Nat.not_succ_le_zero _)
      | succ depth =>
          rw [List.cons_append, List.append_assoc]
          exact reads_object (bracketed_complete
            (isComplete_member (isComplete_value depth) (isFirm_denotes depth))
            isFirm_member (.inr rfl)
            (denotes_object_iff.2 ⟨members, fits, rfl, spells⟩))

/-! ## Whole texts -/

theorem ne_byteOrderMark {depth : Nat} {value : Value} {text left : List Char}
    (padded : IsPadded (Denotes depth value) text) :
    text ≠ '\ufeff' :: left := by
  rcases padded with ⟨before, inner, after, blank, denotes, -, rfl⟩
  rcases exists_start denotes with ⟨c, more, rfl, start⟩
  intro same
  cases before with
  | nil =>
      rcases List.cons.inj same with ⟨rfl, -⟩
      simp [IsStart, isDigit] at start
  | cons d gap =>
      rcases List.cons.inj same with ⟨rfl, -⟩
      have := blank _ (List.mem_cons_self ..)
      cases this

section

variable {depth : Nat} {text : List Char} {result : Value}

theorem isPadded_of_document (read : document depth text = .ok result) :
    IsPadded (Denotes depth result) text := by
  unfold document at read
  split at read
  · cases read
  · split at read
    · cases read
    · next reading found =>
        split at read
        · next ends =>
            cases read
            rcases exists_gap text with ⟨before, blank, split⟩
            rcases exists_gap reading.rest with ⟨after, blank', split'⟩
            rcases isSound_value _ ⟨reading.shorter, found⟩ with
              ⟨front, denotes, same⟩
            rw [ends, List.append_nil] at split'
            exact ⟨before, front, after, blank, denotes,
              blank', by rw [split, same, split']⟩
        · cases read

theorem document_of_isPadded (padded : IsPadded (Denotes depth result) text) :
    document depth text = .ok result := by
  have noMark : ∀ left, text ≠ '\ufeff' :: left :=
    fun left => ne_byteOrderMark padded
  rcases skipBlank_of_isPadded (isFirm_denotes _) padded [] with
    ⟨c, inner, after, denotes, -, blank, found⟩
  rw [List.append_nil, List.append_nil] at found
  have ends : IsBoundary after := by
    have noRest : IsBoundary (after ++ []) :=
      IsBoundary.gap_append blank (by simp [IsBoundary])
    rwa [List.append_nil] at noRest
  have finished : skipBlank after = [] := by
    have skipped : skipBlank (after ++ []) = [] := skipBlank_append blank
    rwa [List.append_nil] at skipped
  have read : Reads (value depth) (skipBlank text) result after := by
    rw [found, ← List.cons_append]
    exact isComplete_value depth denotes ends
  rcases read with ⟨shorter, read⟩
  unfold document
  split
  · exact absurd rfl (noMark _)
  · simp only [read, finished]

private theorem document_eq_ok_iff :
    document depth text = .ok result ↔ IsPadded (Denotes depth result) text :=
  ⟨isPadded_of_document, document_of_isPadded⟩

end

theorem parse_eq_ok {stack : Stack} {text : String} {result : Value} :
    parse stack text = .ok result ↔ document stack.strictLevels text.toList =
      .ok result := by
  unfold parse
  cases document stack.strictLevels text.toList <;> simp [Except.mapError]

theorem exists_phrase_of_parse {stack : Stack} {text : String} {result : Value}
    (parsed : parse stack text = .ok result) :
    ∃ phrase : Phrase, phrase.IsTextOf text ∧ phrase.Fits stack.strictLevels ∧
      phrase.value = result := by
  rcases isPadded_of_document (parse_eq_ok.1 parsed) with
    ⟨before, inner, after, blank, ⟨phrase, fits, value, spells⟩, blank', split⟩
  exact ⟨phrase, ⟨before, inner, after, blank, spells, blank', split⟩,
    fits, value⟩

/-- A text of no more than two hundred brackets open at a time, with integers of
no more than 4300 digits, is parsed exactly when it is a JSON text, and its
value is what it denotes. -/
theorem parse_eq_ok_iff {stack : Stack} {text : String} {result : Value}
    (room : 200 ≤ stack.strictLevels)
    (shallow : ∀ phrase : Phrase, phrase.IsTextOf text → phrase.nesting ≤ 200)
    (short : ∀ phrase : Phrase, phrase.IsTextOf text →
      ∀ literal ∈ phrase.literals, literal.isInteger →
      literal.whole.length ≤ 4300) :
    parse stack text = .ok result ↔
      ∃ phrase : Phrase, phrase.IsTextOf text ∧ phrase.value = result ∧
        ∀ literal ∈ phrase.literals, literal.Denotes literal.value := by
  rw [parse_eq_ok, document_eq_ok_iff]
  constructor
  · rintro ⟨before, inner, after, blank, ⟨phrase, -, value, spells⟩,
      blank', split⟩
    exact ⟨phrase, ⟨before, inner, after, blank, spells, blank', split⟩, value,
      fun literal _ => literal.denotes_value⟩
  · rintro ⟨phrase, isText, value, -⟩
    have fits : phrase.Fits stack.strictLevels :=
      ⟨(shallow phrase isText).trans room, short phrase isText⟩
    rcases isText with ⟨before, inner, after, blank, spells, blank', split⟩
    exact ⟨before, inner, after, blank, ⟨phrase, fits, value, spells⟩,
      blank', split⟩

/-- A name that comes twice keeps its place and has the value that comes last.
-/
theorem parse_eq_ok_iff_twice :
    200 ≤ Stack.standard.strictLevels ∧
    parse .standard
      "\x7b\"a\": [-2.5e1], \"b\": 3, \"a\": \"\\ud83d\\ude00\"\x7d" =
        .ok (.object [([97], .string [0x1f600]), ([98], .integer 3)]) ∧
      ∃ phrase : Phrase,
        phrase.IsTextOf
          "\x7b\"a\": [-2.5e1], \"b\": 3, \"a\": \"\\ud83d\\ude00\"\x7d" ∧
        phrase.value = .object [([97], .string [0x1f600]), ([98], .integer 3)] ∧
        ∀ literal ∈ phrase.literals, literal.Denotes literal.value := by
  have read :
      parse .standard
        "\x7b\"a\": [-2.5e1], \"b\": 3, \"a\": \"\\ud83d\\ude00\"\x7d" =
          .ok (.object [([97], .string [0x1f600]), ([98], .integer 3)]) := by
    decide +kernel
  have fits (phrase : Phrase)
      (isText : phrase.IsTextOf
        "\x7b\"a\": [-2.5e1], \"b\": 3, \"a\": \"\\ud83d\\ude00\"\x7d") :
      phrase.Fits 200 :=
    isText.fits (by decide)
  exact ⟨by decide, read,
    (parse_eq_ok_iff (by decide)
      (fun phrase isText => (fits phrase isText).shallow) fun phrase isText =>
        (fits phrase isText).short).1 read⟩

end Strict
end FencedJson.Json
