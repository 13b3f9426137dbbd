import FencedJson.Proofs.Check.NamedOffset
import FencedJson.Proofs.Json.Numerals

/-! # The first marker of a message

A message names an offset by a marker with digits behind it. Of several markers
the first one counts, with all of its digits.
-/

namespace FencedJson.Check.Position

open Json (IsDigits)

def IsMarked (text digits : List Char) : Prop :=
  ∃ marker ∈ markers, ∃ rest, text = marker ++ (digits ++ rest) ∧
  IsDigits digits ∧ NoDigit rest

def Names (message digits : List Char) : Prop :=
  ∃ start, IsMarked (message.drop start) digits ∧
    ∀ earlier < start, ∀ others, ¬ IsMarked (message.drop earlier) others

theorem markedDigits_eq_some_iff {marker text digits : List Char} :
    ((after? marker text).bind fun rest =>
      match rest.takeWhile isDigit with
      | [] => Option.none
      | digits => some digits) = some digits ↔
    ∃ rest, text = marker ++ (digits ++ rest) ∧ IsDigits digits ∧
    NoDigit rest := by
  rw [Option.bind_eq_some_iff]
  constructor
  · rintro ⟨behind, follows, found⟩
    split at found
    · cases found
    · next filled =>
        cases found
        refine ⟨behind.dropWhile isDigit, ?_,
          ⟨filled, fun c => List.mem_takeWhile_imp⟩, ?_⟩
        · rw [List.takeWhile_append_dropWhile, after?_eq_some_iff.1 follows]
        · exact fun c first => eq_false_of_mem_head?_dropWhile first
  · rintro ⟨rest, rfl, ⟨filled, all⟩, stop⟩
    refine ⟨digits ++ rest, after?_eq_some_iff.2 rfl, ?_⟩
    rw [takeWhile_isDigit all stop]
    cases digits with
    | nil => contradiction
    | cons c digits => rfl

private theorem eq_of_mem_markers {first second : List Char}
    (member : first ∈ markers) (other : second ∈ markers)
    {front back : List Char} (same : first ++ front = second ++ back) :
    first = second := by
  rw [markers_eq_spelled] at member other
  simp only [spelled, List.mem_cons, List.not_mem_nil, or_false] at member other
  rcases member with rfl | rfl <;> rcases other with rfl | rfl
  · rfl
  · cases same
  · cases same
  · rfl

theorem IsMarked.unique {text digits others : List Char}
    (marked : IsMarked text digits) (marked' : IsMarked text others) :
    digits = others := by
  rcases marked with ⟨marker, member, rest, rfl, digit, stop⟩
  rcases marked' with ⟨marker', member', rest', same, digit', stop'⟩
  cases eq_of_mem_markers member member' same
  rw [← takeWhile_isDigit digit.2 stop, List.append_cancel_left same,
    takeWhile_isDigit digit'.2 stop']

theorem offsetDigits?_eq_some_iff {text digits : List Char} :
    offsetDigits? text = some digits ↔ IsMarked text digits := by
  have sound {digits : List Char} (found : offsetDigits? text = some digits) :
      IsMarked text digits := by
    rcases List.exists_of_findSome?_eq_some found with ⟨marker, member, marked⟩
    exact ⟨marker, member, markedDigits_eq_some_iff.1 marked⟩
  refine ⟨sound, fun marked => ?_⟩
  rcases marked with ⟨marker, member, behind⟩
  have some : (offsetDigits? text).isSome := by
    rw [offsetDigits?, List.findSome?_isSome_iff]
    exact ⟨marker, member, Option.isSome_of_eq_some
      (markedDigits_eq_some_iff.2 behind)⟩
  rcases Option.isSome_iff_exists.1 some with ⟨others, found⟩
  rw [IsMarked.unique ⟨marker, member, behind⟩ (sound found)]
  exact found

private theorem names_cons_iff {c : Char} {rest digits : List Char} :
    Names (c :: rest) digits ↔ IsMarked (c :: rest) digits ∨
      (∀ others, ¬ IsMarked (c :: rest) others) ∧ Names rest digits := by
  constructor
  · rintro ⟨start, marked, first⟩
    cases start with
    | zero => exact .inl marked
    | succ start =>
        refine .inr ⟨first 0 (Nat.succ_pos start), start, marked,
          fun earlier before => ?_⟩
        exact first (earlier + 1) (Nat.succ_lt_succ before)
  · rintro (marked | ⟨unmarked, start, marked, first⟩)
    · exact ⟨0, marked, fun earlier before =>
        absurd before (Nat.not_lt_zero earlier)⟩
    · refine ⟨start + 1, marked, fun earlier before => ?_⟩
      cases earlier with
      | zero => exact unmarked
      | succ earlier => exact first earlier (Nat.lt_of_succ_lt_succ before)

theorem namedDigits?_eq_some_iff {message digits : List Char} :
    namedDigits? message = some digits ↔ Names message digits := by
  induction message with
  | nil =>
      refine iff_of_false nofun ?_
      rintro ⟨start, ⟨marker, -, rest, whole, ⟨filled, -⟩, -⟩, -⟩
      rw [List.drop_nil, List.nil_eq_append_iff,
        List.append_eq_nil_iff] at whole
      exact filled whole.2.1
  | cons c rest induction =>
      rw [namedDigits?, Option.or_eq_some_iff, offsetDigits?_eq_some_iff,
        induction, names_cons_iff, Option.eq_none_iff_forall_ne_some]
      simp only [ne_eq, offsetDigits?_eq_some_iff]

private theorem namedDigits?_eq_none_iff {message : List Char} :
    namedDigits? message = Option.none ↔ ∀ digits, ¬ Names message digits := by
  simp only [← namedDigits?_eq_some_iff,
    Option.eq_none_iff_forall_ne_some, ne_eq]

theorem Names.unique {message digits others : List Char}
    (names : Names message digits) (names' : Names message others) :
    digits = others :=
  Option.some.inj
    ((namedDigits?_eq_some_iff.2 names).symm.trans
      (namedDigits?_eq_some_iff.2 names'))

theorem recover_eq_of_names {message : String} {digits : List Char}
    (names : Names message.toList digits) (text : List Char) :
    recover message text = if integerDigitLimit < digits.length then .error
      ⟨digits.length⟩
      else .ok (ofOffset text (decimalNumber digits)) := by
  rw [recover, namedDigits?_eq_some_iff.2 names]

theorem recover_of_names {message : String} {digits : List Char}
    (names : Names message.toList digits)
    (short : digits.length ≤ integerDigitLimit) (text : List Char) :
    recover message text = .ok (ofOffset text (decimalNumber digits)) := by
  rw [recover_eq_of_names names, if_neg (Nat.not_lt.2 short)]

theorem recover_of_unmarked {message : String}
    (unmarked : ∀ digits, ¬ Names message.toList digits) (text : List Char) :
    recover message text = .ok none := by
  rw [recover, namedDigits?_eq_none_iff.2 unmarked]

end FencedJson.Check.Position
