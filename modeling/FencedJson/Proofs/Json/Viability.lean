import FencedJson.Proofs.Json.Constants

/-! # Nothing is wrong in front of a refusal

The place of a refusal does not lie behind the first mistake: what stands in
front of it is the front of a JSON text.
-/

namespace FencedJson.Json

theorem IsViable.exists_padded {front : List Char} (viable : IsViable front)
    {gap : List Char} (blank : IsGap gap) :
    ∃ (phrase : Phrase) (more : List Char), IsPadded phrase.Spells
      (gap ++ front ++ more) := by
  rcases viable with ⟨phrase, more, spelling⟩
  exact ⟨phrase, more, gap, front ++ more, [], blank, spelling, isGap_nil, by
    rw [List.append_nil, List.append_assoc]⟩

namespace Strict

theorem toError_fault (reason : Fault) (front following : List Char) :
    (Failure.fault reason following).toError (front ++ following) =
      .fault reason (.after front) := by
  have offset :
      (front ++ following).length - following.length = front.length := by
    rw [List.length_append, Nat.add_sub_cancel]
  rw [Failure.toError, offset, Place.ofOffset_eq_after (by simp),
    List.take_left]

private theorem exists_front_of_parse {stack : Stack} {text : String}
    {reason : Fault} {place : Place}
    (refused : parse stack text = .error (.fault reason place)) :
    ∃ front following, text.toList = front ++ following ∧ place = .after front ∧
      ∃ (phrase : Phrase) (more : List Char), IsPadded phrase.Spells
        (front ++ more) := by
  rcases mapError_eq_error_iff.1 refused with ⟨failure, failed, told⟩
  rcases document_failure failed with
    rfl | ⟨gap, _, blank, ⟨openings, front, inner, opens, room, stops, rfl⟩,
      split⟩ |
    ⟨phrase, front, following, padded, rfl, split⟩
  · cases (toError_fault .byteOrderMark [] text.toList).symm.trans told
    exact ⟨[], text.toList, rfl, rfl, isViable_nil.exists_padded isGap_nil⟩
  · cases failure with
    | fault fault following =>
        rcases stops with ⟨last, viable, rfl⟩
        have whole : text.toList = gap ++ (front ++ last) ++ following := by
          rw [split, List.append_assoc, List.append_assoc]
        rw [whole] at told
        cases (toError_fault fault _ following).symm.trans told
        exact ⟨_, following, whole, rfl,
          (opens.isViable_append viable).exists_padded blank⟩
    | constant constant =>
        rcases stops with ⟨enough, after, rfl⟩
        have awaits : AwaitsValue stack.strictLevels (gap ++ front) :=
          ⟨gap, openings, front, blank, opens, room, by omega, rfl⟩
        have whole : text.toList = gap ++ front ++
            (constant.word.toList ++ after) := by
          rw [split, List.append_assoc]
        rw [whole] at told
        cases (refuseConstant_of_awaitsValue awaits constant after).symm.trans
          told
        have viable := opens.isViable_append isViable_nil
        rw [List.append_nil] at viable
        exact ⟨_, _, whole, rfl, viable.exists_padded blank⟩
    | integerTooLong | tooDeep => cases told
  · rw [split] at told
    cases (toError_fault .extraData front following).symm.trans told
    exact ⟨front, following, split, rfl, phrase, [], by rwa [List.append_nil]⟩

/-- What stands in front of the place of a refusal can be completed to a JSON
text. -/
theorem isViable_before_refusal {stack : Stack} {text : String} {reason : Fault}
    {place : Place}
    (refused : parse stack text = .error (.fault reason place)) :
    place.offset ≤ text.length ∧ ∃ (phrase : Phrase) (more : String),
      phrase.IsTextOf
        (String.ofList (text.toList.take place.offset) ++ more) := by
  rcases exists_front_of_parse refused with
    ⟨front, following, split, rfl, phrase, more, padded⟩
  have offset : (Place.after front).offset = front.length := rfl
  rw [← String.length_toList, split, offset, List.take_left]
  refine ⟨by simp, phrase, String.ofList more, ?_⟩
  rwa [Phrase.IsTextOf, String.toList_append, String.toList_ofList,
    String.toList_ofList]

theorem isViable_before_refusal_escape :
    parse .standard "[\"a\\x\"]" = .error (.fault .unknownEscape ⟨1, 4, 3⟩) ∧
      3 ≤ "[\"a\\x\"]".length ∧ ∃ (phrase : Phrase) (more : String),
        phrase.IsTextOf
          (String.ofList ("[\"a\\x\"]".toList.take 3) ++ more) := by
  have refused : parse .standard "[\"a\\x\"]" =
      .error (.fault .unknownEscape ⟨1, 4, 3⟩) := by
    decide +kernel
  exact ⟨refused, isViable_before_refusal refused⟩

end Strict
end FencedJson.Json
