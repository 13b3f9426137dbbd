import FencedJson.Json.Relaxed
import FencedJson.Json.Strict
import FencedJson.Proofs.Except

/-! # Failures of the readers

Every strict reader keeps constants apart from faults, so that a refusal names
one of the three words or none. The place of a refusal lies in the text, and so
does that of a relaxed text that matches nowhere.
-/

namespace FencedJson

theorem Place.ofOffset_eq_after {text : List Char} {offset : Nat}
    (within : offset ≤ text.length) :
    Place.ofOffset text offset = .after (text.take offset) := by
  simp [ofOffset, after, Nat.min_eq_left within]

namespace Json

theorem Constant.reportedOffset_le (text : List Char) :
    reportedOffset text ≤ text.length := by
  unfold reportedOffset
  split <;> omega

namespace Strict

def Failure.IsProper : Failure → Prop
  | .fault (.constant _) _ => False
  | _ => True

theorem Failure.told_eq (depth : Nat) (failure : Failure) :
    failure.told depth = failure ∨
    ∃ overflow, failure.told depth = .tooDeep overflow := by
  unfold told
  split
  · exact .inr ⟨_, rfl⟩
  · exact .inl rfl

theorem Failure.told_of_le {depth : Nat} {failure : Failure}
    (room : failure.calls.length ≤ depth) : failure.told depth = failure := by
  rw [told, List.getElem?_eq_none room]

@[simp] theorem Failure.told_tooDeep (depth : Nat) (overflow : Overflow) :
    (tooDeep overflow).told depth = tooDeep overflow := rfl

theorem Failure.told_eq_constant_iff {depth : Nat} {failure : Failure}
    {constant : Constant} :
    failure.told depth = .constant constant ↔ failure = .constant constant ∧
    5 ≤ depth := by
  constructor
  · intro same
    rcases failure.told_eq depth with kept | ⟨overflow, lost⟩
    · rw [kept] at same
      subst same
      refine ⟨rfl, ?_⟩
      by_contra short
      rw [told, List.getElem?_eq_getElem (by simpa [calls] using short)] at kept
      cases kept
    · rw [lost] at same
      cases same
  · rintro ⟨rfl, room⟩
    exact told_of_le room

section

variable {α : Type} {text : List Char} {depth : Nat}
  {result : Except Failure (Reading α text)}

@[simp] theorem telling_eq_ok_iff {reading : Reading α text} :
    telling depth result = .ok reading ↔ result = .ok reading := by
  cases result <;> simp [telling, Except.mapError]

theorem telling_eq_error_iff {failure : Failure} :
    telling depth result = .error failure ↔
      ∃ cause, result = .error cause ∧ cause.told depth = failure :=
  mapError_eq_error_iff

theorem telling_of_le {failure : Failure} (room : failure.calls.length ≤ depth)
    (failed : result = .error failure) :
    telling depth result = .error failure :=
  telling_eq_error_iff.2 ⟨failure, failed, Failure.told_of_le room⟩

end

theorem Failure.IsProper.told {failure : Failure} (proper : failure.IsProper)
    (depth : Nat) :
    (failure.told depth).IsProper := by
  rcases failure.told_eq depth with same | ⟨overflow, same⟩
  · rwa [same]
  · rw [same]
    trivial

def IsHonest {α : Type} (reader : Reader α) : Prop :=
  ∀ ⦃text failure⦄, reader text = .error failure → failure.IsProper

theorem isHonest_stringBody (opening : List Char) :
    IsHonest (stringBody opening) := by
  intro text failure failed
  fun_induction stringBody opening text <;>
    simp_all only [map_eq_error_iff, Except.error.injEq, reduceCtorEq] <;>
    subst failed <;> trivial

theorem isHonest_number : IsHonest number := by
  intro text failure failed
  unfold number at failed
  split at failed
  · cases failed
    trivial
  · split at failed
    · split at failed
      · cases failed
        trivial
      · simp at failed
    · simp at failed

private theorem isHonest_itemsUntil {α : Type} {close : Char} {item : Reader α}
    (honest : IsHonest item) : IsHonest (itemsUntil close item) := by
  intro text failure failed
  fun_induction itemsUntil close item text with
  | case1 text reason stopped =>
      cases failed
      exact honest stopped
  | case2 => cases failed; trivial
  | case3 => simp at failed
  | case4 text first read rest bound found shorter notClose induction =>
      exact induction (map_eq_error_iff.1 failed)
  | case5 => cases failed; trivial

theorem isHonest_bracketed {α : Type} {close : Char} {item : Reader α}
    (honest : IsHonest item) : IsHonest (bracketed close item) := by
  intro text failure failed
  unfold bracketed at failed
  split at failed
  · exact honest (map_eq_error_iff.1 failed)
  · split at failed
    · simp at failed
    · exact isHonest_itemsUntil honest (map_eq_error_iff.1 failed)

private theorem isHonest_member {value : Reader Value}
    (honest : IsHonest value) :
    IsHonest (member value) := by
  intro text failure failed
  unfold member at failed
  split at failed
  · split at failed
    · next stopped =>
        cases failed
        exact isHonest_stringBody _ stopped
    · split at failed
      · exact honest (map_eq_error_iff.1 failed)
      · cases failed; trivial
  · cases failed; trivial

theorem isHonest_value (depth : Nat) : IsHonest (value depth) := by
  intro text failure failed
  fun_cases value depth text with
  | case1 =>
      rw [value] at failed
      rcases telling_eq_error_iff.1 failed with ⟨cause, stopped, rfl⟩
      exact (isHonest_stringBody _ (map_eq_error_iff.1 stopped)).told depth
  | case2 | case4 =>
      rw [value] at failed
      cases failed
      trivial
  | case3 text depth =>
      rw [value] at failed
      rcases telling_eq_error_iff.1 failed with ⟨cause, stopped, rfl⟩
      exact (isHonest_bracketed (isHonest_value depth)
        (map_eq_error_iff.1 stopped)).told depth
  | case5 text depth =>
      rw [value] at failed
      rcases telling_eq_error_iff.1 failed with ⟨cause, stopped, rfl⟩
      exact (isHonest_bracketed (isHonest_member (isHonest_value depth))
        (map_eq_error_iff.1 stopped)).told depth
  | case6 | case7 | case8 =>
      rw [value] at failed
      cases failed
  | case9 depth text notString notArray notObject notNull notTrue notFalse
      constant after found =>
      rw [value] at failed
      · simp only [found] at failed
        rcases telling_eq_error_iff.1 failed with ⟨cause, stopped, rfl⟩
        cases stopped
        exact Failure.IsProper.told
          (show (Failure.constant constant).IsProper from trivial) depth
      all_goals assumption
  | case10 depth text notString notArray notObject notNull notTrue
      notFalse other =>
      rw [value] at failed
      · simp only [other] at failed
        exact isHonest_number failed
      all_goals assumption

theorem isProper_of_document {depth : Nat} {text : List Char}
    {failure : Failure} (failed : document depth text = .error failure) :
    failure.IsProper := by
  unfold document at failed
  split at failed
  · cases failed; trivial
  · split at failed
    · next stopped =>
        cases failed
        exact isHonest_value _ stopped
    · split at failed
      · simp at failed
      · cases failed; trivial

def Fault.IsKnown : Fault → Prop
  | .constant name => ∃ constant : Constant, name = constant.word
  | _ => True

private theorem Failure.IsProper.isKnown {reason : Fault}
    {following : List Char}
    (proper : (Failure.fault reason following).IsProper) : reason.IsKnown := by
  cases reason with
  | constant name => exact proper.elim
  | _ => trivial

/-- A refusal at a place names a known fault, and the place is that of an offset
of the text. -/
theorem place_of_parse {stack : Stack} {text : String} {reason : Fault}
    {place : Place}
    (refused : parse stack text = .error (.fault reason place)) :
    reason.IsKnown ∧ place.offset ≤ text.length ∧
      place = .after (text.toList.take place.offset) := by
  have located : ∃ offset ≤ text.toList.length,
      reason.IsKnown ∧ place = Place.ofOffset text.toList offset := by
    unfold parse at refused
    cases outcome : document stack.strictLevels text.toList with
    | ok value =>
        rw [outcome] at refused
        cases refused
    | error failure =>
        have proper := isProper_of_document outcome
        rw [outcome] at refused
        replace refused := Except.error.inj refused
        cases failure with
        | fault fault following =>
            simp only [Failure.toError, Error.fault.injEq] at refused
            rcases refused with ⟨rfl, rfl⟩
            exact ⟨_, Nat.sub_le _ _, proper.isKnown, rfl⟩
        | constant constant =>
            simp only [Failure.toError, refuseConstant,
              Error.fault.injEq] at refused
            rcases refused with ⟨rfl, rfl⟩
            exact ⟨_, Constant.reportedOffset_le _, ⟨constant, rfl⟩, rfl⟩
        | integerTooLong digits => simp [Failure.toError] at refused
        | tooDeep => simp [Failure.toError] at refused
  rcases located with ⟨offset, within, known, rfl⟩
  refine ⟨known, ?_, ?_⟩
  · simpa only [Place.ofOffset, String.length_toList] using within
  · rw [Place.ofOffset_eq_after within]
    simp [Place.after, Nat.min_eq_left within]

end Strict

namespace Relaxed

def Error.IsNumeric : Error → Prop
  | .noNumber _ | .integerTooLong _ => True
  | _ => False

theorem isNumeric_of_convert {negative : Bool} {numeral : Numeral}
    {error : Error} (refused : numeral.convert negative = .error error) :
    error.IsNumeric := by
  cases numeral with
  | infinity | nan | hexadecimal => simp [Numeral.convert] at refused
  | decimal whole fraction exponent =>
      simp only [Numeral.convert] at refused
      split at refused
      · rw [← eq_of_guard_eq_error refused]
        trivial
      · rw [← eq_of_guard_eq_error refused]
        trivial

mutual

theorem Tree.isNumeric_of_convert {error : Error} :
    ∀ {tree : Tree}, tree.convert = .error error → error.IsNumeric
  | .null, refused | .boolean _, refused | .string _, refused => by
      simp [Tree.convert] at refused
  | .number _ _, refused => Relaxed.isNumeric_of_convert refused
  | .array _, refused => isNumeric_of_convertItems (map_eq_error_iff.1 refused)
  | .object _, refused =>
      isNumeric_of_convertMembers (map_eq_error_iff.1 refused)

theorem isNumeric_of_convertItems {error : Error} :
    ∀ {items : List Tree}, convertItems items = .error error → error.IsNumeric
  | [], refused => by simp [convertItems] at refused
  | first :: rest, refused => by
      unfold convertItems at refused
      split at refused
      · next stopped =>
          cases refused
          exact Tree.isNumeric_of_convert stopped
      · exact isNumeric_of_convertItems (map_eq_error_iff.1 refused)

theorem isNumeric_of_convertMembers {error : Error} :
    ∀ {members : List (CodeText × Tree)}, convertMembers members =
      .error error → error.IsNumeric
  | [], refused => by simp [convertMembers] at refused
  | (_, first) :: rest, refused => by
      unfold convertMembers at refused
      split at refused
      · next stopped =>
          cases refused
          exact Tree.isNumeric_of_convert stopped
      · exact isNumeric_of_convertMembers (map_eq_error_iff.1 refused)

end

theorem place_of_parse {stack : Stack} {text : String} {found : Option Char}
    {place : Place}
    (refused : parse stack text = .error (.unexpected found place)) :
    ∃ offset, found = text.toList[offset]? ∧
    place = Place.ofOffset text.toList offset := by
  unfold parse at refused
  split at refused
  · simp at refused
  · dsimp only at refused
    split at refused
    · exact (Tree.isNumeric_of_convert refused).elim
    · simp only [unexpectedAt, Except.error.injEq,
        Error.unexpected.injEq] at refused
      exact ⟨_, refused.1.symm, refused.2.symm⟩
    · simp at refused

end Relaxed
end Json
end FencedJson
