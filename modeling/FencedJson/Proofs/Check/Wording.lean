import FencedJson.Proofs.Check.Verdict

/-! # The words of refusals

What a parser says of a text stays on one line, except where it shows a line
feed that it refuses.
-/

namespace FencedJson

theorem feed_not_mem_toDigits (n : Nat) : '\n' ∉ Nat.toDigits 10 n :=
  Json.Relaxed.not_mem_toDigits (by decide) n

theorem feed_not_mem_integerDigitMessage (count : Nat) :
    '\n' ∉ (integerDigitMessage count).toList := by
  change '\n' ∉ (("Exceeds the limit (" ++ integerDigitLimit.repr ++
    " digits) for integer string conversion: ") ++
      ("value has " ++ count.repr ++
        " digits; use sys.set_int_max_str_digits() to increase the limit")
    ).toList
  simp only [String.toList_append, Nat.toList_repr, List.mem_append,
    feed_not_mem_toDigits, or_false]
  rw [String.toList_ofList, String.toList_ofList, String.toList_ofList,
    String.toList_ofList]
  decide

theorem Overflow.feed_not_mem_message (overflow : Overflow) :
    '\n' ∉ overflow.message.toList := by
  cases overflow <;> decide

namespace Json

theorem Strict.feed_not_mem_message {stack : Stack} {text : String}
    {error : Strict.Error} (refused : Strict.parse stack text = .error error) :
    '\n' ∉ error.message.toList := by
  cases error with
  | fault reason place =>
      have named : '\n' ∉ reason.message.toList := by
        have known := (Strict.place_of_parse refused).1
        cases reason with
        | constant name =>
            rcases known with ⟨constant, rfl⟩
            cases constant <;> decide
        | _ => decide
      have placed : '\n' ∉ place.suffix.toList := by
        rw [Place.toList_suffix]
        rw [String.toList_ofList, String.toList_ofList, String.toList_ofList]
        simp [feed_not_mem_toDigits]
      rw [Strict.Error.message, String.toList_append, List.mem_append, not_or]
      exact ⟨named, placed⟩
  | integerTooLong digits => exact feed_not_mem_integerDigitMessage digits
  | tooDeep overflow => exact overflow.feed_not_mem_message

namespace Relaxed

theorem count_message_unexpected (found : Option Char) (place : Place) :
    (Error.unexpected found place).message.toList.count '\n' =
      if found = some '\n' then 1 else 0 := by
  have digits (n : Nat) : (Nat.toDigits 10 n).count '\n' = 0 :=
    List.count_eq_zero.2 (feed_not_mem_toDigits n)
  have start : "<string>:".toList.count '\n' = 0 := rfl
  have column : " at column ".toList.count '\n' = 0 := rfl
  have blank (text : List Char) : (' ' :: text).count '\n' = text.count '\n' :=
    List.count_cons_of_ne (by decide)
  rw [toList_message_unexpected]
  cases found with
  | none =>
      have told : "Unexpected end of input".toList.count '\n' = 0 := rfl
      simp only [List.count_append, blank, start, column, told, digits,
        reduceCtorEq, if_false]
  | some c =>
      have told : "Unexpected \"".toList.count '\n' = 0 := rfl
      have shown : [c, '"'].count '\n' = if c = '\n' then 1 else 0 := by
        simp [List.count_cons]
      simp only [List.count_append, blank, start, column, told, digits, shown,
        Option.some.injEq, Nat.zero_add, Nat.add_zero]

theorem feed_not_mem_message {stack : Stack} {text : String} {error : Error}
    (refused : parse stack text = .error error)
    (placed : ∀ found place, error ≠ .unexpected found place) :
    '\n' ∉ error.message.toList := by
  cases error with
  | unexpected found place => exact absurd rfl (placed found place)
  | empty => decide
  | tooDeep overflow => exact overflow.feed_not_mem_message
  | integerTooLong digits => exact feed_not_mem_integerDigitMessage digits
  | noNumber written =>
      have absent : '\n' ∉ written.toList :=
        not_mem_of_noNumber (by decide) refused
      change '\n' ∉
        ("could not convert string to float: '" ++ written ++ "'").toList
      simp only [String.toList_append, List.mem_append, absent, or_false]
      rw [String.toList_ofList, String.toList_ofList]
      decide

end Relaxed
end Json

namespace Check

theorem count_message {stack : Stack} {fence : Markdown.Fence}
    {error : ParseError} (refused : refusal? stack fence = some error) :
    error.message.toList.count '\n' ≤ 1 ∧
      ('\n' ∈ error.message.toList ↔ error.IsAtLineFeed) := by
  rcases refusal?_eq_some_iff.1 refused with
    ⟨-, reason, parsed, rfl⟩ | ⟨-, reason, parsed, rfl⟩
  · have absent := Json.Strict.feed_not_mem_message parsed
    exact ⟨(List.count_eq_zero.2 absent).trans_le (Nat.zero_le _), fun member =>
      absent member, fun feed => feed.elim⟩
  · cases reason with
    | unexpected found place =>
        have counted := Json.Relaxed.count_message_unexpected found place
        have feed :
            (ParseError.relaxed (.unexpected found place)).IsAtLineFeed ↔
            found = some '\n' := by
          constructor
          · intro atFeed
            unfold ParseError.IsAtLineFeed at atFeed
            split at atFeed
            · next same =>
                cases same
                rfl
            · exact atFeed.elim
          · rintro rfl
            trivial
        change (Json.Relaxed.Error.unexpected found place).message.toList.count
          '\n' ≤ 1 ∧
          ('\n' ∈ (Json.Relaxed.Error.unexpected found place).message.toList ↔
            _)
        rw [feed, ← List.count_pos_iff, counted]
        split <;> simp [*]
    | empty | noNumber | integerTooLong | tooDeep =>
        have absent := Json.Relaxed.feed_not_mem_message parsed (by simp)
        exact ⟨(List.count_eq_zero.2 absent).trans_le (Nat.zero_le _),
          fun member => absent member, fun feed => feed.elim⟩

end Check
end FencedJson
