import FencedJson.Proofs.Check.NamedOffset
import FencedJson.Proofs.Json.Ensured
import FencedJson.Proofs.Json.Numerals

/-! # Places named in messages

The relaxed parser names line and column of a refusal in its message, in which
the refused character stands between them. Whatever that character is, what is
read off the message are line and column, unless it is a line feed, which parts
the message in two.
-/

namespace FencedJson.Json.Relaxed

theorem frontDigits?_toDigits (n : Nat) (rest : List Char)
    (stop : NoDigit rest) :
    frontDigits? (Nat.toDigits 10 n ++ rest) =
      some (Nat.toDigits 10 n, rest) := by
  have all : ∀ c ∈ Nat.toDigits 10 n, isDigit c :=
    fun _ => isDigit_of_mem_toDigits
  rw [frontDigits?, takeWhile_isDigit all stop, dropWhile_isDigit all stop]
  cases written : Nat.toDigits 10 n with
  | nil => exact absurd written Nat.toDigits_ne_nil
  | cons first others => rfl

/-! ## Columns -/

theorem columnDigits?_append_of_noSpace {rest : List Char} (front : List Char)
    (noSpace : ' ' ∉ front) (absent : columnDigits? rest = none) :
    columnDigits? (front ++ rest) = none := by
  induction front with
  | nil => exact absent
  | cons c front induction =>
      rw [List.mem_cons, not_or] at noSpace
      have notHere : after? " at column ".toList
          (c :: (front ++ rest)) = none := by
        rw [String.toList_ofList, after?, if_neg noSpace.1]
      rw [List.cons_append, columnDigits?, notHere, induction noSpace.2]
      split <;> rfl

theorem columnDigits?_space {rest : List Char}
    (noLetter : rest.head? ≠ some 'a') (absent : columnDigits? rest = none) :
    columnDigits? (' ' :: rest) = none := by
  have notHere : after? " at column ".toList (' ' :: rest) = none := by
    rw [String.toList_ofList, after?, if_pos rfl]
    cases rest with
    | nil => rfl
    | cons c rest =>
        have other : 'a' ≠ c := by
          rintro rfl
          exact noLetter rfl
        rw [after?, if_neg other]
  rw [columnDigits?, notHere, absent]
  rfl

theorem columnDigits?_append {front rest digits : List Char}
    (sameLine : '\n' ∉ front) (found : columnDigits? rest = some digits) :
    columnDigits? (front ++ rest) = some digits := by
  induction front with
  | nil => exact found
  | cons c front induction =>
      rw [List.mem_cons, not_or] at sameLine
      rw [List.cons_append, columnDigits?, if_neg (Ne.symm sameLine.1),
        induction sameLine.2]
      rfl

theorem columnDigits?_announced (n : Nat) :
    columnDigits? (" at column ".toList ++ Nat.toDigits 10 n) =
      some (Nat.toDigits 10 n) := by
  have noSpace : ' ' ∉ Nat.toDigits 10 n := by
    intro member
    have digit := isDigit_of_mem_toDigits member
    simp [isDigit] at digit
  have noLetter : (Nat.toDigits 10 n).head? ≠ some 'a' := by
    intro first
    have digit := isDigit_of_mem_toDigits (List.mem_of_head? first)
    simp [isDigit] at digit
  have digits := frontDigits?_toDigits n [] (by simp [NoDigit])
  have plain := columnDigits?_append_of_noSpace (Nat.toDigits 10 n) noSpace
    (show columnDigits? [] = none from rfl)
  rw [List.append_nil] at digits plain
  -- Behind the other two spaces the words do not begin again.
  have last := columnDigits?_space noLetter plain
  have word := columnDigits?_append_of_noSpace ['c', 'o', 'l', 'u', 'm', 'n']
      (by decide) last
  have behind := columnDigits?_append_of_noSpace ['a', 't'] (by decide)
    (columnDigits?_space (by simp) word)
  have announced : after? " at column ".toList
      (" at column ".toList ++ Nat.toDigits 10 n) = some (Nat.toDigits 10 n) :=
        after?_eq_some_iff.2 rfl
  have spread : " at column ".toList ++ Nat.toDigits 10 n =
      ' ' ::
        (['a', 't'] ++ ' ' ::
          (['c', 'o', 'l', 'u', 'm', 'n'] ++ ' ' :: Nat.toDigits 10 n)) :=
    rfl
  rw [spread] at announced ⊢
  rw [columnDigits?, behind, announced, ite_self, Option.none_or,
    Option.bind_some, digits]
  rfl

/-! ## Lines -/

theorem placeDigits?_append {front : List Char} (noColon : ':' ∉ front)
    (rest : List Char) :
    placeDigits? (front ++ rest) = placeDigits? rest := by
  induction front with
  | nil => rfl
  | cons c front induction =>
      rw [List.mem_cons, not_or] at noColon
      rw [List.cons_append, placeDigits?, if_neg (Ne.symm noColon.1),
        induction noColon.2]
      rfl

theorem placeDigits?_of_noColon {text : List Char} (noColon : ':' ∉ text) :
    placeDigits? text = none := by
  rw [← List.append_nil text, placeDigits?_append noColon]
  rfl

theorem placeDigits?_colon {rest : List Char} (noDigit : NoDigit rest) :
    placeDigits? (':' :: rest) = placeDigits? rest := by
  have none : frontDigits? rest = none := by
    rw [frontDigits?, ← List.nil_append rest,
      takeWhile_isDigit (by simp) noDigit]
  rw [placeDigits?, if_pos rfl, none]
  rfl

theorem not_mem_toDigits {c : Char} (other : isDigit c = false) (n : Nat) :
    c ∉ Nat.toDigits 10 n := by
  intro member
  rw [isDigit_of_mem_toDigits member] at other
  cases other

theorem placeDigits?_line (line : Nat) (words : List Char) :
    placeDigits?
      ("<string>:".toList ++ (Nat.toDigits 10 line ++ ' ' :: words)) =
        ((columnDigits? words).map (Nat.toDigits 10 line, ·)).or
          (placeDigits? words) := by
  have digits := frontDigits?_toDigits line (' ' :: words)
      (by simp [NoDigit, isDigit])
  have front : "<string>:".toList = "<string>".toList ++ [':'] := by
    rw [String.toList_ofList, String.toList_ofList]
    rfl
  have noColon : ':' ∉ "<string>".toList := by
    rw [String.toList_ofList]
    decide
  rw [front, List.append_assoc, placeDigits?_append noColon,
    List.singleton_append, placeDigits?, if_pos rfl, digits,
    placeDigits?_append (not_mem_toDigits (by decide) line), placeDigits?,
    if_neg (by decide)]
  rfl

theorem placeDigits?_named (line column : Nat) {words : List Char}
    (sameLine : '\n' ∉ words) :
    placeDigits? ("<string>:".toList ++ (Nat.toDigits 10 line ++
        ' ' :: (words ++ (" at column ".toList ++ Nat.toDigits 10 column)))) =
      some (Nat.toDigits 10 line, Nat.toDigits 10 column) := by
  rw [placeDigits?_line, columnDigits?_append sameLine
    (columnDigits?_announced column)]
  rfl

theorem columnDigits?_parted {words : List Char} (noLetter : 'a' ∉ words)
    (rest : List Char) :
    columnDigits? (words ++ '\n' :: rest) = none := by
  induction words with
  | nil =>
      rw [List.nil_append, columnDigits?, if_pos rfl, String.toList_ofList]
      rfl
  | cons c words induction =>
      rw [List.mem_cons, not_or] at noLetter
      have notHere : after? " at column ".toList
          (c :: (words ++ '\n' :: rest)) = none := by
        rw [String.toList_ofList]
        cases words with
        | nil => simp [after?]
        | cons next words =>
            rw [List.mem_cons, not_or] at noLetter
            simp [after?, noLetter.2.1]
      rw [List.cons_append, columnDigits?, notHere, induction noLetter.2]
      split <;> rfl

/-! ## The words of the relaxed parser -/

theorem toList_message_unexpected (found : Option Char) (place : Place) :
    (Error.unexpected found place).message.toList =
      "<string>:".toList ++ (Nat.toDigits 10 place.line ++ ' ' ::
        ((match found with
          | some c => "Unexpected \"".toList ++ c :: ['"']
          | none => "Unexpected end of input".toList) ++
            (" at column ".toList ++ Nat.toDigits 10 place.column))) := by
  cases found with
  | none =>
      change
        ("<string>:" ++ place.line.repr ++
          " Unexpected end of input at column " ++ place.column.repr).toList = _
      simp only [String.toList_append, Nat.toList_repr, List.append_assoc]
      rw [String.toList_ofList, String.toList_ofList, String.toList_ofList,
        String.toList_ofList]
      rfl
  | some c =>
      change (("<string>:" ++ place.line.repr ++ " Unexpected \"") ++
        String.singleton c ++ ("\" at column " ++ place.column.repr)).toList = _
      simp only [String.toList_append, Nat.toList_repr, List.append_assoc,
        String.toList_singleton]
      rw [String.toList_ofList, String.toList_ofList, String.toList_ofList,
        String.toList_ofList, String.toList_ofList]
      rfl

theorem namedPlace_unexpected (found : Option Char) (place : Place) :
    namedPlace (Error.unexpected found place).message =
      if found = some '\n' then (0, 0) else (place.line, place.column) := by
  have words := toList_message_unexpected found place
  by_cases feed : found = some '\n'
  · subst feed
    have noLetter : 'a' ∉ "Unexpected \"".toList := by
      rw [String.toList_ofList]
      decide
    have noColon : ':' ∉ ("Unexpected \"".toList ++ '\n' :: ['"']) ++
        (" at column ".toList ++ Nat.toDigits 10 place.column) := by
      have digits := not_mem_toDigits (c := ':') (by decide) place.column
      rw [String.toList_ofList, String.toList_ofList]
      simp [digits]
    have none :
        placeDigits? (Error.unexpected (some '\n') place).message.toList =
          none := by
      rw [words, placeDigits?_line, placeDigits?_of_noColon noColon,
        List.append_assoc, List.cons_append, columnDigits?_parted noLetter]
      rfl
    rw [if_pos rfl, namedPlace, none]
  · have sameLine : '\n' ∉ (match found with
        | some c => "Unexpected \"".toList ++ c :: ['"']
        | none => "Unexpected end of input".toList) := by
      cases found with
      | none =>
          dsimp only
          rw [String.toList_ofList]
          decide
      | some c =>
          have other : '\n' ≠ c := fun same => feed (congrArg some same.symm)
          dsimp only
          rw [String.toList_ofList]
          simp [other]
    rw [if_neg feed, namedPlace, words, placeDigits?_named _ _ sameLine]
    simp only [decimalNumber_toDigits]

theorem namedPlace_of_noColon {message : String}
    (noColon : ':' ∉ message.toList) :
    namedPlace message = (0, 0) := by
  rw [namedPlace, placeDigits?_of_noColon noColon]

theorem namedPlace_of_blank {message : String} {front rest : List Char}
    (before : ':' ∉ front) (behind : ':' ∉ rest)
    (same : message.toList = front ++ ':' :: ' ' :: rest) :
    namedPlace message = (0, 0) := by
  have noColon : ':' ∉ ' ' :: rest := by simp [behind]
  have none : placeDigits? message.toList = none := by
    rw [same, placeDigits?_append before,
      placeDigits?_colon (by simp [NoDigit, isDigit]),
      placeDigits?_of_noColon noColon]
  rw [namedPlace, none]

theorem namedPlace_integerTooLong (count : Nat) :
    namedPlace (Error.integerTooLong count).message = (0, 0) := by
  have written : (Error.integerTooLong count).message.toList =
      ("Exceeds the limit (".toList ++ (Nat.toDigits 10 integerDigitLimit ++
        " digits) for integer string conversion".toList)) ++ ':' :: ' ' ::
          ("value has ".toList ++ (Nat.toDigits 10 count ++
            " digits; use sys.set_int_max_str_digits() to increase the limit".toList
          )) := by
    change (("Exceeds the limit (" ++ integerDigitLimit.repr ++
      " digits) for integer string conversion: ") ++
        ("value has " ++ count.repr ++
          " digits; use sys.set_int_max_str_digits() to increase the limit")
      ).toList = _
    have words : " digits) for integer string conversion: ".toList =
        " digits) for integer string conversion".toList ++ [':', ' '] := by
      rw [String.toList_ofList, String.toList_ofList]
      rfl
    simp only [String.toList_append, Nat.toList_repr, words, List.append_assoc,
      List.cons_append, List.nil_append]
  have digits (n : Nat) : ':' ∉ Nat.toDigits 10 n :=
    not_mem_toDigits (by decide) n
  refine namedPlace_of_blank ?_ ?_ written
  · rw [String.toList_ofList, String.toList_ofList]
    simp [digits]
  · rw [String.toList_ofList, String.toList_ofList]
    simp [digits]

theorem namedPlace_noNumber {written : String}
    (noColon : ':' ∉ written.toList) :
    namedPlace (Error.noNumber written).message = (0, 0) := by
  have words : (Error.noNumber written).message.toList =
      "could not convert string to float".toList ++ ':' :: ' ' ::
        ('\'' :: (written.toList ++ ['\''])) := by
    change ("could not convert string to float: '" ++ written ++ "'").toList = _
    simp only [String.toList_append, List.append_assoc]
    rw [String.toList_ofList, String.toList_ofList, String.toList_ofList]
    rfl
  refine namedPlace_of_blank ?_ ?_ words
  · rw [String.toList_ofList]
    decide
  · simp [noColon]

/-! ## Numerals without a value -/

def IsForeign (c : Char) : Prop := isDigit c = false ∧ c ∉ ['-', '+', '.', 'e']

instance (c : Char) : Decidable (IsForeign c) :=
  inferInstanceAs (Decidable (isDigit c = false ∧ c ∉ ['-', '+', '.', 'e']))

theorem AreDigits.not_mem {c : Char} (foreign : IsForeign c)
    {digits : List Char} (all : AreDigits digits) : c ∉ digits := by
  intro member
  have digit := all c member
  rw [foreign.1] at digit
  cases digit

theorem not_mem_of_convert {c : Char} (foreign : IsForeign c) {negative : Bool}
    {numeral : Numeral} {written : String} (spelled : numeral.IsSpelled)
    (refused : numeral.convert negative = .error (.noNumber written)) :
    c ∉ written.toList := by
  cases numeral with
  | infinity | nan | hexadecimal => simp [Numeral.convert] at refused
  | decimal whole fraction exponent =>
      rcases spelled with ⟨wholeDigits, fractionDigits, exponentParts⟩
      have same :
          writtenDecimal negative whole fraction exponent = written := by
        simp only [Numeral.convert] at refused
        split at refused
        · cases eq_of_guard_eq_error refused
        · exact Error.noNumber.inj (eq_of_guard_eq_error refused)
      have noWhole : c ∉ whole.getD [] := by
        cases whole with
        | none => exact List.not_mem_nil
        | some digits => exact (wholeDigits digits rfl).not_mem foreign
      have others : c ≠ '-' ∧ c ≠ '+' ∧ c ≠ '.' ∧ c ≠ 'e' := by
        simpa using foreign.2
      rw [← same]
      unfold writtenDecimal
      rw [String.toList_ofList]
      simp only [List.mem_append, not_or]
      refine ⟨⟨⟨by split <;> simp [others], noWhole⟩, ?_⟩, ?_⟩
      · cases fraction with
        | none => exact List.not_mem_nil
        | some digits =>
            simp [others, (fractionDigits digits rfl).not_mem foreign]
      · cases exponent with
        | none => exact List.not_mem_nil
        | some part =>
            rcases exponentParts part rfl with ⟨signs, digits⟩
            have noSign : c ∉ part.1.toList := by
              intro member
              rcases signs c (Option.mem_toList.1 member) with same | same <;>
                simp [same] at others
            simp [others, noSign, digits.not_mem foreign]

private theorem exists_item_of_convertItems {items : List Tree} {error : Error}
    (refused : convertItems items = .error error) :
    ∃ item ∈ items, item.convert = .error error := by
  induction items with
  | nil => simp [convertItems] at refused
  | cons first rest induction =>
      unfold convertItems at refused
      split at refused
      · next stopped =>
          cases refused
          exact ⟨first, List.mem_cons_self .., stopped⟩
      · rcases induction (map_eq_error_iff.1 refused) with
          ⟨item, member, stopped⟩
        exact ⟨item, List.mem_cons_of_mem _ member, stopped⟩

private theorem exists_member_of_convertMembers
    {members : List (CodeText × Tree)} {error : Error}
    (refused : convertMembers members = .error error) :
    ∃ member ∈ members, member.2.convert = .error error := by
  induction members with
  | nil => simp [convertMembers] at refused
  | cons first rest induction =>
      unfold convertMembers at refused
      split at refused
      · next stopped =>
          cases refused
          exact ⟨first, List.mem_cons_self .., stopped⟩
      · rcases induction (map_eq_error_iff.1 refused) with
          ⟨item, member, stopped⟩
        exact ⟨item, List.mem_cons_of_mem _ member, stopped⟩

private theorem Tree.IsSpelled.exists_numeral {tree : Tree} {error : Error}
    (spelled : tree.IsSpelled) (refused : tree.convert = .error error) :
    ∃ (negative : Bool) (numeral : Numeral),
      numeral.IsSpelled ∧ numeral.convert negative = .error error := by
  induction spelled with
  | null | boolean | string => simp [Tree.convert] at refused
  | number negative spelled => exact ⟨negative, _, spelled, refused⟩
  | array all induction =>
      rcases exists_item_of_convertItems (map_eq_error_iff.1 refused) with
        ⟨item, member, stopped⟩
      exact induction item member stopped
  | object all induction =>
      rcases exists_member_of_convertMembers (map_eq_error_iff.1 refused) with
        ⟨item, member, stopped⟩
      exact induction item member stopped

theorem not_mem_of_noNumber {c : Char} (foreign : IsForeign c) {stack : Stack}
    {text written : String}
    (refused : parse stack text = .error (.noNumber written)) :
    c ∉ written.toList := by
  unfold parse at refused
  split at refused
  · cases refused
  · dsimp only at refused
    split at refused
    · next found matched =>
        have spelled := (ensures_document _ _).2 found matched
        rcases spelled.exists_numeral refused with
          ⟨negative, numeral, digits, stopped⟩
        exact not_mem_of_convert foreign digits stopped
    · cases refused
    · cases refused

/-- What is read off the message of a refusal are line and column of the refused
character, except behind a line feed; other refusals name no place. -/
theorem namedPlace_of_parse {stack : Stack} {text : String} {error : Error}
    (refused : parse stack text = .error error) :
    namedPlace error.message = error.lineColumn := by
  cases error with
  | unexpected found place =>
      rw [namedPlace_unexpected]
      by_cases feed : found = some '\n'
      · rw [if_pos feed, feed, Error.lineColumn]
      · rw [if_neg feed, Error.lineColumn]
        exact feed
  | empty =>
      refine namedPlace_of_noColon ?_
      unfold Error.message
      rw [String.toList_ofList]
      decide
  | tooDeep overflow =>
      refine namedPlace_of_noColon ?_
      cases overflow <;> decide
  | integerTooLong count => exact namedPlace_integerTooLong count
  | noNumber written =>
      exact namedPlace_noNumber (not_mem_of_noNumber (by decide) refused)

end FencedJson.Json.Relaxed
