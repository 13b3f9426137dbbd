import FencedJson.Proofs.Json.Stops

/-! # Room for nesting

What a parser says of a text on a stack it says on every larger one, unless it
gave up for want of a call. Arrays in arrays are read as far as there is room
for them, and no further.
-/

namespace FencedJson.Json

namespace Strict

/-! ## Outcomes with more room -/

def IsKept {α : Type} (narrow wide : Except Failure α) : Prop :=
  (∃ overflow, narrow = .error (.tooDeep overflow)) ∨ wide = narrow

section

variable {α β : Type} {narrow wide : Except Failure α}

theorem IsKept.map (kept : IsKept narrow wide) (transform : α → β) :
    IsKept (narrow.map transform) (wide.map transform) := by
  rcases kept with ⟨overflow, rfl⟩ | rfl
  · exact .inl ⟨overflow, rfl⟩
  · exact .inr rfl

theorem IsKept.eq_ok (kept : IsKept narrow wide) {value : α}
    (outcome : narrow = .ok value) :
    wide = .ok value := by
  rcases kept with ⟨overflow, short⟩ | same
  · rw [outcome] at short
    cases short
  · rw [same, outcome]

end

theorem IsKept.telling {α : Type} {text : List Char} {depth more : Nat}
    {narrow wide : Except Failure (Reading α text)} (kept : IsKept narrow wide)
    (larger : depth ≤ more) :
    IsKept (telling depth narrow) (telling more wide) := by
  rcases kept with ⟨overflow, rfl⟩ | same
  · exact .inl ⟨overflow, rfl⟩
  · rw [same]
    cases narrow with
    | ok reading => exact .inr rfl
    | error failure =>
        by_cases room : failure.calls.length ≤ depth
        · right
          rw [telling_of_le room rfl, telling_of_le (room.trans larger) rfl]
        · left
          have short : depth < failure.calls.length := Nat.not_le.1 room
          exact ⟨failure.calls[depth], telling_eq_error_iff.2 ⟨failure, rfl, by
            rw [Failure.told, List.getElem?_eq_getElem short]⟩⟩

/-- The outcomes of the first reader are kept by the second one. -/
def Keeps {α : Type} (narrow wide : Reader α) : Prop :=
  ∀ text, IsKept (narrow text) (wide text)

section

variable {α : Type} {close : Char} {item wider : Reader α}

theorem keeps_itemsUntil (keeps : Keeps item wider) :
    Keeps (itemsUntil close item) (itemsUntil close wider) := by
  intro text
  fun_induction itemsUntil close item text with
  | case1 text failure stopped =>
      rcases keeps text with ⟨overflow, short⟩ | same
      · rw [stopped] at short
        exact .inl ⟨overflow, by rw [Except.error.inj short]⟩
      · right
        rw [itemsUntil.eq_def close wider, same, stopped]
  | case2 text first taken found =>
      right
      rw [itemsUntil.eq_def close wider, (keeps text).eq_ok taken]
      dsimp only
      split
      · rfl
      · next other => rw [found] at other; cases other
  | case3 text first taken rest found shorter =>
      right
      rw [itemsUntil.eq_def close wider, (keeps text).eq_ok taken]
      dsimp only
      split
      · next none => rw [found] at none; cases none
      · next same =>
          rw [found] at same
          cases same
          rw [if_pos rfl]
  | case4 text first taken rest bound found shorter notClose induction =>
      rw [itemsUntil.eq_def close wider, (keeps text).eq_ok taken]
      dsimp only
      split
      · next none => rw [found] at none; cases none
      · next same =>
          rw [found] at same
          cases same
          rw [if_neg notClose, if_pos rfl]
          exact induction.map _
  | case5 text first taken head rest found shorter notClose notComma =>
      right
      rw [itemsUntil.eq_def close wider, (keeps text).eq_ok taken]
      dsimp only
      split
      · next none => rw [found] at none; cases none
      · next same =>
          rw [found] at same
          cases same
          rw [if_neg notClose, if_neg notComma]

theorem keeps_bracketed (keeps : Keeps item wider) :
    Keeps (bracketed close item) (bracketed close wider) := by
  intro text
  unfold bracketed
  split
  · exact (keeps []).map _
  · split
    · exact .inr rfl
    · exact (keeps_itemsUntil keeps _).map _

end

theorem keeps_member {value wider : Reader Value} (keeps : Keeps value wider) :
    Keeps (member value) (member wider) := by
  intro text
  unfold member
  split
  · split
    · exact .inr rfl
    · split
      · exact (keeps _).map _
      · exact .inr rfl
  · exact .inr rfl

theorem keeps_value {depth more : Nat} (larger : depth ≤ more) :
    Keeps (value depth) (value more) := by
  intro text
  fun_cases value depth text with
  | case1 text =>
      rw [value, value]
      exact IsKept.telling (.inr rfl) larger
  | case2 | case4 =>
      rw [value]
      exact .inl ⟨_, rfl⟩
  | case3 text depth =>
      rcases Nat.exists_eq_succ_of_ne_zero (Nat.ne_zero_of_lt larger) with
        ⟨more, rfl⟩
      have larger : depth ≤ more := Nat.le_of_succ_le_succ larger
      rw [value, value]
      exact ((keeps_bracketed (keeps_value larger) text).map _).telling larger
  | case5 text depth =>
      rcases Nat.exists_eq_succ_of_ne_zero (Nat.ne_zero_of_lt larger) with
        ⟨more, rfl⟩
      have larger : depth ≤ more := Nat.le_of_succ_le_succ larger
      rw [value, value]
      exact ((keeps_bracketed (keeps_member (keeps_value larger)) text).map
        _).telling larger
  | case6 | case7 | case8 =>
      rw [value, value]
      exact .inr rfl
  | case9 depth text notString notArray notObject notNull notTrue notFalse
      constant after found =>
      rw [value, value]
      · simp only [found]
        exact IsKept.telling (.inr rfl) larger
      all_goals assumption
  | case10 depth text notString notArray notObject notNull notTrue
      notFalse other =>
      rw [value, value]
      · simp only [other]
        exact .inr rfl
      all_goals assumption

private theorem isKept_document {depth more : Nat} (larger : depth ≤ more)
    (text : List Char) :
    IsKept (document depth text) (document more text) := by
  unfold document
  split
  · exact .inr rfl
  · rcases keeps_value larger (skipBlank text) with ⟨overflow, short⟩ | same
    · exact .inl ⟨overflow, by rw [short]⟩
    · rw [same]
      exact .inr rfl

theorem parse_of_larger {narrow wide : Stack}
    (larger : narrow.strictLevels ≤ wide.strictLevels) (text : String) :
    (∃ overflow, parse narrow text = .error (.tooDeep overflow)) ∨
      parse wide text = parse narrow text := by
  unfold parse
  rcases isKept_document larger text.toList with ⟨overflow, short⟩ | same
  · exact .inl ⟨overflow, by rw [short]; rfl⟩
  · exact .inr (by rw [same])

/-! ## Arrays in arrays -/

theorem value_of_openings (depth : Nat) (rest : List Char) :
    value depth (List.replicate (depth + 1) '[' ++ rest) =
      .error (.tooDeep .array) := by
  induction depth with
  | zero => rw [List.replicate_one, List.singleton_append, value]
  | succ depth induction =>
      have spells : (Opening.array []).Spells ['['] := ⟨[], isGap_nil, rfl⟩
      have solid : IsSolid (List.replicate (depth + 1) '[' ++ rest) :=
        ⟨'[', _, rfl, by decide⟩
      rw [List.replicate_succ, List.cons_append]
      exact value_of_opening spells (List.forall_mem_nil _) solid
        (Nat.zero_le _) induction

end Strict

def Phrase.nested : (inner : Nat) → Phrase
  | 0 => .array []
  | inner + 1 => .array [nested inner]

theorem Phrase.fits_nested (inner : Nat) : (nested inner).Fits (inner + 1) := by
  induction inner with
  | zero => exact fits_array_iff.2 nofun
  | succ inner induction =>
      exact fits_array_iff.2 (List.forall_mem_singleton.2 induction)

private theorem Phrase.spells_nested (inner : Nat) : (nested inner).Spells
    (List.replicate (inner + 1) '[' ++ List.replicate (inner + 1) ']') := by
  induction inner with
  | zero => exact ⟨[], isGap_nil, rfl⟩
  | succ inner induction =>
      refine ⟨_, ⟨[], _, [], isGap_nil, induction, isGap_nil, rfl⟩, ?_⟩
      have closed : List.replicate (inner + 2) ']' =
          List.replicate (inner + 1) ']' ++ [']'] :=
        List.replicate_succ'
      rw [List.replicate_succ, closed]
      simp only [List.cons_append, List.append_assoc, List.nil_append,
        List.append_nil]

def nestedArrays (count : Nat) : String :=
  String.ofList (List.replicate count '[' ++ List.replicate count ']')

theorem Strict.parse_nestedArrays (stack : Stack) {count : Nat}
    (some : 0 < count) :
    (count ≤ stack.strictLevels →
      ∃ value, parse stack (nestedArrays count) = .ok value) ∧
    (stack.strictLevels < count →
      parse stack (nestedArrays count) = .error (.tooDeep .array)) := by
  rcases Nat.exists_eq_succ_of_ne_zero (Nat.ne_zero_of_lt some) with
    ⟨inner, rfl⟩
  constructor
  · intro room
    have fits : (Phrase.nested inner).Fits stack.strictLevels :=
      ⟨(Phrase.fits_nested inner).shallow.trans room,
        (Phrase.fits_nested inner).short⟩
    have padded :
        IsPadded (Denotes stack.strictLevels (Phrase.nested inner).value)
        (nestedArrays (inner + 1)).toList := by
      rw [nestedArrays, String.toList_ofList]
      exact ⟨[], _, [], isGap_nil, ⟨_, fits, rfl, Phrase.spells_nested inner⟩,
        isGap_nil, by
        rw [List.nil_append, List.append_nil]⟩
    exact ⟨_, parse_eq_ok.2 (document_of_isPadded padded)⟩
  · intro short
    rcases Nat.exists_eq_add_of_lt short with ⟨others, same⟩
    replace same : inner + 1 = stack.strictLevels + 1 + others := by omega
    have split : (nestedArrays (inner + 1)).toList =
        List.replicate (stack.strictLevels + 1) '[' ++
          (List.replicate others '[' ++ List.replicate (inner + 1) ']') := by
      rw [nestedArrays, String.toList_ofList, ← List.append_assoc,
        List.replicate_append_replicate, ← same]
    have bracket : List.replicate (stack.strictLevels + 1) '[' =
        '[' :: List.replicate stack.strictLevels '[' := List.replicate_succ
    have failed : document stack.strictLevels
        (nestedArrays (inner + 1)).toList = .error (.tooDeep .array) := by
      refine document_of_value ?_ ?_
      · rw [split, bracket]
        rintro left same
        cases same
      · rw [skipBlank_of_isSolid, split, value_of_openings]
        rw [split, bracket]
        exact ⟨'[', _, rfl, by decide⟩
    rw [parse, failed]
    rfl

/-! ## Relaxed texts -/

namespace Rule

variable {α β : Type}

/-- The second rule does as the first one, unless that one gives up. -/
def Keeps (narrow wide : Rule α) : Prop :=
  ∀ text, (narrow text).outcome = .tooDeep ∨ wide text = narrow text

section

variable {first first' second second' : Rule α} {further further' : Rule β}

theorem Keeps.refl (rule : Rule α) : rule.Keeps rule := fun _ => .inr rfl

theorem Keeps.giveUp (rule : Rule α) : Rule.giveUp.Keeps rule :=
  fun _ => .inl rfl

theorem Keeps.map (keeps : first.Keeps first') (transform : α → β) :
    (first.map transform).Keeps (first'.map transform) := by
  intro text
  dsimp only [Rule.map]
  rcases keeps text with short | same
  · exact .inl (by simp only [short])
  · exact .inr (by simp only [same])

theorem Keeps.andThen {next next' : α → Rule β} (keeps : first.Keeps first')
    (later : ∀ value, (next value).Keeps (next' value)) :
    (first.andThen next).Keeps (first'.andThen next') := by
  intro text
  dsimp only [Rule.andThen]
  rcases keeps text with short | same
  · exact .inl (by simp only [short])
  · rw [same]
    cases outcome : (first text).outcome with
    | refused | tooDeep => exact .inr rfl
    | matched found =>
        dsimp only
        rcases later found.value found.rest with short | same
        · exact .inl (by simp only [short])
        · exact .inr (by simp only [same])

theorem Keeps.before (keeps : first.Keeps first')
    (later : further.Keeps further') :
    (first.before further).Keeps (first'.before further') :=
  keeps.andThen fun _ => later

theorem Keeps.closedBy (keeps : first.Keeps first')
    (later : further.Keeps further') :
    (first.closedBy further).Keeps (first'.closedBy further') :=
  keeps.andThen fun _ => later.map _

theorem Keeps.orElse (keeps : first.Keeps first')
    (otherwise : second.Keeps second') :
    (first.orElse second).Keeps (first'.orElse second') := by
  intro text
  dsimp only [Rule.orElse]
  rcases keeps text with short | same
  · exact .inl (by simp only [short])
  · rw [same]
    cases outcome : (first text).outcome with
    | matched found => exact .inr rfl
    | tooDeep => exact .inl rfl
    | refused =>
        dsimp only
        rcases otherwise text with short | same
        · exact .inl short
        · exact .inr (by rw [same])

theorem Keeps.firstOf {rules rules' : List (Rule α)}
    (keeps : List.Forall₂ Keeps rules rules') :
    (Rule.firstOf rules).Keeps (Rule.firstOf rules') := by
  induction keeps with
  | nil => exact .refl _
  | cons head _ induction => exact head.orElse induction

theorem Keeps.many (keeps : first.Keeps first') :
    (Rule.many first).Keeps (Rule.many first') := by
  intro text
  induction length : text.length using Nat.strongRecOn generalizing text with
  | ind size induction =>
      rw [Rule.many, Rule.many.eq_def first']
      dsimp only
      rcases keeps text with short | same
      · exact .inl (by simp only [short])
      · rw [same]
        cases outcome : (first text).outcome with
        | refused | tooDeep => exact .inr rfl
        | matched found =>
            dsimp only
            split
            · exact .inr rfl
            · next progress =>
                have shorter : found.rest.length < size := by
                  have := found.length_rest
                  have := found.size_le
                  omega
                rcases induction _ shorter found.rest rfl with short | same
                · exact .inl (by simp only [short])
                · exact .inr (by simp only [same])

end
end Rule

namespace Relaxed

open Rule (Keeps)

variable {α : Type} {item item' : Rule α}

private theorem keeps_items (keeps : item.Keeps item') :
    (items item).Keeps (items item') :=
  (keeps.andThen fun _ => (Keeps.many ((Keeps.refl comma).before keeps)).map
    _).closedBy (.refl _)

theorem keeps_bracketed (opening close : Char) (keeps : item.Keeps item') :
    (bracketed opening close item).Keeps (bracketed opening close item') :=
  ((Keeps.refl _).before
    ((Keeps.refl _).before ((keeps_items keeps).closedBy (.refl _)))).orElse
      (.refl _)

theorem keeps_member {value wider : Rule Tree} (keeps : value.Keeps wider) :
    (member value).Keeps (member wider) := by
  have withKey (key : Rule CodeText) :=
    (Keeps.refl key).andThen fun key => (Keeps.refl blanks).before <|
      (Keeps.refl (.word [':'])).before <| (Keeps.refl blanks).before
        (keeps.map (key, ·))
  exact (withKey string).orElse (withKey name)

theorem keeps_value {depth more : Nat} (larger : depth ≤ more) :
    (value depth).Keeps (value more) := by
  induction depth generalizing more with
  | zero => exact .giveUp _
  | succ depth induction =>
      rcases Nat.exists_eq_succ_of_ne_zero (Nat.ne_zero_of_lt larger) with
        ⟨more, rfl⟩
      have keeps := induction (Nat.le_of_succ_le_succ larger)
      exact .firstOf <| .cons (.refl _) <| .cons (.refl _) <| .cons (.refl _) <|
        .cons ((keeps_bracketed _ _ (keeps_member keeps)).map _) <|
        .cons ((keeps_bracketed _ _ keeps).map _) <| .cons (.refl _) <|
          .cons (.refl _) .nil

private theorem keeps_document {depth more : Nat} (larger : depth ≤ more) :
    (document depth).Keeps (document more) :=
  (Keeps.refl blanks).before ((keeps_value larger).closedBy (.refl _))

theorem parse_of_larger {narrow wide : Stack} {text : String}
    (larger : narrow.relaxedLevels text ≤ wide.relaxedLevels text) :
    (∃ overflow, parse narrow text = .error (.tooDeep overflow)) ∨
      parse wide text = parse narrow text := by
  unfold parse
  split
  · exact .inr rfl
  · rcases keeps_document larger text.toList with short | same
    · exact .inl ⟨narrow.relaxedOverflow text, by simp only [short]⟩
    · dsimp only
      rw [same]
      cases outcome :
        (document (narrow.relaxedLevels text) text.toList).outcome with
      | matched | refused => exact .inr rfl
      | tooDeep => exact .inl ⟨_, rfl⟩

end Relaxed
end FencedJson.Json
