import FencedJson.Check.Position
import FencedJson.Proofs.Json.Failure
import Mathlib.Algebra.Group.Nat.Defs
import Mathlib.Data.List.Infix

/-! # Offsets named in messages

A message of the strict reader has one marker, behind which stands the offset of
the refusal. What is found there is that offset, and from it come a line counted
by runs of line breaks and the true column.
-/

namespace FencedJson

theorem takeWhile_congr {α : Type} {first second : α → Bool} {items : List α}
    (same : ∀ item ∈ items, first item = second item) :
    items.takeWhile first = items.takeWhile second := by
  induction items with
  | nil => rfl
  | cons item items induction =>
      simp only [List.takeWhile_cons, same item (List.mem_cons_self ..),
        induction fun item member => same item (List.mem_cons_of_mem _ member)]

theorem decimalNumber_toDigits (n : Nat) :
    decimalNumber (Nat.toDigits 10 n) = n := by
  have written := Nat.ofDigitChars_ten_toDigits (n := n)
  rw [Nat.ofDigitChars_eq_foldl] at written
  simpa [decimalNumber, numberOf, List.foldl_map, digitValue] using written

theorem isDigit_of_mem_toDigits {c : Char} {n : Nat}
    (member : c ∈ Nat.toDigits 10 n) :
    isDigit c := by
  have digit := Nat.isDigit_of_mem_toDigits (by decide) (by decide) member
  simpa [isDigit, Char.isDigit, Char.le_def] using digit

theorem Place.toList_suffix (place : Place) :
    place.suffix.toList = ':' ::
      (" line ".toList ++
        (Nat.toDigits 10 place.line ++
          (" column ".toList ++
            (Nat.toDigits 10 place.column ++
              (' ' ::
                ("(char ".toList ++
                  (Nat.toDigits 10 place.offset ++ [')']))))))) := by
  change (": line " ++ place.line.repr ++ " column " ++
    place.column.repr ++ " (char " ++ place.offset.repr ++ ")").toList = _
  simp only [String.toList_append, Nat.toList_repr, List.append_assoc]
  rw [String.toList_ofList, String.toList_ofList, String.toList_ofList,
    String.toList_ofList]
  rfl

namespace Check.Position

/-! ## Texts without markers -/

def agree : List Char → List Char → Bool
  | a :: first, b :: second => a = b && agree first second
  | _, _ => true

private theorem agree_of_after? {marker front rest following : List Char}
    (found : after? marker (front ++ rest) = some following) :
    agree marker front := by
  induction marker generalizing front with
  | nil => rfl
  | cons expected marker induction =>
      cases front with
      | nil => rfl
      | cons c front =>
          by_cases same : expected = c
          · simp only [List.cons_append, after?, same, if_true] at found
            simp [agree, same, induction found]
          · simp [after?, same] at found

def spelled : List (List Char) :=
  [['a', 't', ' ', 'p', 'o', 's', 'i', 't', 'i', 'o', 'n', ' '],
    ['(', 'c', 'h', 'a', 'r', ' ']]

theorem markers_eq_spelled : markers = spelled := by
  rw [markers, String.toList_ofList, String.toList_ofList, spelled]

def isUnmarked : List Char → Bool
  | [] => true
  | c :: rest =>
      spelled.all (fun marker => !agree marker (c :: rest)) && isUnmarked rest

theorem namedDigits?_append {front : List Char} (unmarked : isUnmarked front)
    (rest : List Char) : namedDigits? (front ++ rest) = namedDigits? rest := by
  induction front with
  | nil => rfl
  | cons c front induction =>
      simp only [isUnmarked, Bool.and_eq_true, List.all_eq_true,
        Bool.not_eq_true'] at unmarked
      have none : offsetDigits? (c :: front ++ rest) = Option.none := by
        rw [offsetDigits?, markers_eq_spelled, List.findSome?_eq_none_iff]
        intro marker member
        cases found : after? marker (c :: front ++ rest) with
        | none => rfl
        | some following =>
            have same := agree_of_after? found
            rw [unmarked.1 marker member] at same
            cases same
      rw [List.cons_append, namedDigits?, ← List.cons_append, none,
        induction unmarked.2]
      rfl

private theorem isUnmarked_of_isDigit {digits : List Char}
    (all : ∀ c ∈ digits, isDigit c) :
    isUnmarked digits := by
  induction digits with
  | nil => rfl
  | cons c digits induction =>
      have head := all c (List.mem_cons_self ..)
      have other : 'a' ≠ c ∧ '(' ≠ c := by
        constructor <;> rintro rfl <;> simp [isDigit] at head
      simp [isUnmarked, spelled, agree, other,
        induction fun c member => all c (List.mem_cons_of_mem _ member)]

theorem namedDigits?_digits (n : Nat) (rest : List Char) :
    namedDigits? (Nat.toDigits 10 n ++ rest) = namedDigits? rest :=
  namedDigits?_append (isUnmarked_of_isDigit fun _ =>
    isDigit_of_mem_toDigits) rest

/-! ## The words of the strict reader -/

private theorem offsetDigits?_marked (n : Nat) :
    offsetDigits? ("(char ".toList ++ (Nat.toDigits 10 n ++ [')'])) =
      some (Nat.toDigits 10 n) := by
  have digits : (Nat.toDigits 10 n ++ [')']).takeWhile isDigit =
      Nat.toDigits 10 n := by
    rw [List.takeWhile_append_of_pos fun _ => isDigit_of_mem_toDigits]
    simp [isDigit]
  rw [offsetDigits?, markers_eq_spelled, String.toList_ofList]
  cases written : Nat.toDigits 10 n with
  | nil => exact absurd written Nat.toDigits_ne_nil
  | cons first others =>
      rw [written] at digits
      rw [List.cons_append] at digits
      simp [spelled, after?, digits]

private theorem namedDigits?_suffix {front : List Char}
    (unmarked : isUnmarked (front ++ [':'])) (place : Place) :
    namedDigits? (front ++ place.suffix.toList) =
      some (Nat.toDigits 10 place.offset) := by
  have line : isUnmarked " line ".toList := by rw [String.toList_ofList]; decide
  have column : isUnmarked " column ".toList := by
    rw [String.toList_ofList]; decide
  have blank : isUnmarked [' '] := by decide
  have found := offsetDigits?_marked place.offset
  rw [Place.toList_suffix, List.append_cons, namedDigits?_append unmarked,
    namedDigits?_append line, namedDigits?_digits, namedDigits?_append column,
    namedDigits?_digits, ← List.singleton_append, namedDigits?_append blank]
  cases text : "(char ".toList ++ (Nat.toDigits 10 place.offset ++ [')']) with
  | nil => simp at text
  | cons c rest => rw [namedDigits?, ← text, found, Option.some_or]

private theorem isUnmarked_message {reason : Json.Strict.Fault}
    (known : reason.IsKnown) :
    isUnmarked (reason.message.toList ++ [':']) := by
  cases reason with
  | constant name =>
      rcases known with ⟨constant, rfl⟩
      change isUnmarked (("Unexpected token " ++ constant.word).toList ++ [':'])
      rw [String.toList_append, String.toList_ofList]
      cases constant <;> unfold Json.Constant.word <;>
        rw [String.toList_ofList] <;> decide
  | _ => unfold Json.Strict.Fault.message; rw [String.toList_ofList]; decide

theorem recover_fault {reason : Json.Strict.Fault} {place : Place}
    (known : reason.IsKnown) (small : place.offset < 10 ^ integerDigitLimit)
    (text : List Char) :
    recover (Json.Strict.Error.fault reason place).message text =
      .ok (ofOffset text place.offset) := by
  have digits :
      namedDigits? (Json.Strict.Error.fault reason place).message.toList =
        some (Nat.toDigits 10 place.offset) := by
    rw [Json.Strict.Error.message, String.toList_append]
    exact namedDigits?_suffix (isUnmarked_message known) place
  have short : (Nat.toDigits 10 place.offset).length ≤ integerDigitLimit :=
    (Nat.length_toDigits_le_iff (by decide) (by decide)).2 small
  simp only [recover, digits, Nat.not_lt.2 short, if_false,
    decimalNumber_toDigits]

theorem recover_integerDigitMessage (count : Nat) (text : List Char) :
    recover (integerDigitMessage count) text = .ok none := by
  have written : integerDigitMessage count =
      "Exceeds the limit (4300 digits) for integer string conversion: value has " ++
        (count.repr ++
          " digits; use sys.set_int_max_str_digits() to increase the limit") := by
    have limit :
        "Exceeds the limit (4300 digits) for integer string conversion: value has " =
          "Exceeds the limit (" ++ (integerDigitLimit.repr ++
            (" digits) for integer string conversion: " ++ "value has ")) := by
      decide +kernel
    rw [limit]
    change ("Exceeds the limit (" ++ integerDigitLimit.repr ++
      " digits) for integer string conversion: ") ++
        ("value has " ++ count.repr ++
          " digits; use sys.set_int_max_str_digits() to increase the limit") = _
    simp only [String.append_assoc]
  have front : isUnmarked
      "Exceeds the limit (4300 digits) for integer string conversion: value has ".toList := by
    rw [String.toList_ofList]; decide
  have back : isUnmarked
      " digits; use sys.set_int_max_str_digits() to increase the limit".toList := by
    rw [String.toList_ofList]; decide
  have unnamed :
      namedDigits? (integerDigitMessage count).toList = Option.none := by
    rw [written, String.toList_append, String.toList_append, Nat.toList_repr,
      namedDigits?_append front, namedDigits?_digits,
      ← List.append_nil (String.toList _), namedDigits?_append back]
    rfl
  simp only [recover, unnamed]

theorem recover_overflow (overflow : Overflow) (text : List Char) :
    recover overflow.message text = .ok none := by
  have unnamed : namedDigits? overflow.message.toList = Option.none := by
    have plain : isUnmarked overflow.message.toList := by
      cases overflow <;> decide
    rw [← List.append_nil (String.toList _), namedDigits?_append plain]
    rfl
  simp only [recover, unnamed]

/-! ## Lines and columns -/

def repeatedBreaks : List Char → Nat
  | c :: next :: rest =>
      (if c = '\n' ∧ next = '\n' then 1 else 0) + repeatedBreaks (next :: rest)
  | _ => 0

theorem isLineBreak_iff {c : Char} (other : c ≠ '\r') : isLineBreak c = true ↔
    c = '\n' := by
  simp [isLineBreak, other]

theorem breakRuns_add_repeatedBreaks {text : List Char} (plain : '\r' ∉ text) :
    breakRuns text + repeatedBreaks text = text.count '\n' := by
  induction text with
  | nil => rfl
  | cons c rest induction =>
      simp only [List.mem_cons, not_or] at plain
      have tail := induction plain.2
      have head := isLineBreak_iff (Ne.symm plain.1)
      cases rest with
      | nil => by_cases feed : c = '\n' <;> simp_all [breakRuns, repeatedBreaks]
      | cons next rest =>
          simp only [List.mem_cons, not_or] at plain
          have second := isLineBreak_iff (Ne.symm plain.2.1)
          rw [List.count_cons, ← tail, breakRuns, repeatedBreaks]
          by_cases feed : c = '\n' <;> by_cases other : next = '\n' <;>
            simp_all <;> omega

theorem repeatedBreaks_eq_zero_iff {text : List Char} :
    repeatedBreaks text = 0 ↔ ¬ ['\n', '\n'] <:+: text := by
  induction text with
  | nil => simp [repeatedBreaks]
  | cons c rest induction =>
      cases rest with
      | nil => simp [repeatedBreaks, List.infix_cons_iff]
      | cons next rest =>
          rw [repeatedBreaks, List.infix_cons_iff, not_or, ← induction]
          by_cases both : c = '\n' ∧ next = '\n' <;> simp [both, eq_comm]

private theorem lastLineLength_eq {text : List Char} (plain : '\r' ∉ text) :
    lastLineLength text + 1 = Place.columnAfter text := by
  have same : ∀ c ∈ text.reverse, (!isLineBreak c) = (c != '\n') := by
    intro c member
    have other : c ≠ '\r' := fun equal => plain (by simpa [equal] using member)
    rw [bne, beq_eq_decide, Bool.eq_iff_iff]
    simp [isLineBreak, other]
  rw [lastLineLength, Place.columnAfter, takeWhile_congr same]

/-- Where carriage returns are missing, the column is the true one and the line
falls short by the line feeds that directly follow another one. -/
theorem ofOffset_of_plain {text : List Char} (plain : '\r' ∉ text)
    (offset : Nat) :
    (ofOffset text offset).line + repeatedBreaks (text.take offset) =
        (Place.after (text.take offset)).line ∧
      (ofOffset text offset).column =
        (Place.after (text.take offset)).column := by
  have before : '\r' ∉ text.take offset :=
    fun member => plain (List.mem_of_mem_take member)
  have runs := breakRuns_add_repeatedBreaks before
  constructor
  · simp only [ofOffset, Place.after]
    omega
  · exact lastLineLength_eq before

end Check.Position
end FencedJson
