import FencedJson.Field.Conversion
import Mathlib.Data.List.Basic
import Mathlib.Data.List.Forall2

/-! # Outcomes

When an outcome that was made of others is a failure, and what it means for a
list of tasks, some of which may fail, to come out well.
-/

namespace FencedJson

theorem map_eq_error_iff {ε α β : Type} {transform : α → β}
    {result : Except ε α} {failure : ε} :
    result.map transform = .error failure ↔ result = .error failure := by
  cases result <;> simp [Except.map]

theorem eq_of_guard_eq_error {ε α : Type} {guard : Prop} [Decidable guard]
    {failure error : ε} {value : α}
    (refused : (if guard then .error failure else .ok value : Except ε α) =
      .error error) :
    failure = error := by
  split at refused
  · exact Except.error.inj refused
  · simp at refused

theorem map_eq_ok_iff {ε α β : Type} {transform : α → β}
    {result : Except ε α} {value : β} :
    result.map transform = .ok value ↔ ∃ inner, result = .ok inner ∧
    transform inner = value := by
  cases result <;> simp [Except.map]

theorem mapError_eq_error_iff {ε φ α : Type} {transform : ε → φ}
    {result : Except ε α} {failure : φ} :
    result.mapError transform = .error failure ↔
      ∃ cause, result = .error cause ∧ transform cause = failure := by
  cases result <;> simp [Except.mapError]

theorem bind_eq_error_iff {ε α β : Type} {result : Except ε α}
    {next : α → Except ε β} {failure : ε} : result.bind next = .error failure ↔
      result = .error failure ∨ ∃ value, result = .ok value ∧
      next value = .error failure := by
  cases result <;> simp [Except.bind]

theorem Filled.both_eq_ok_iff {α β : Type} {first : Filled α}
    {second : Filled β} {pair : α × β} : both first second = .ok pair ↔
    first = .ok pair.1 ∧ second = .ok pair.2 := by
  rcases pair with ⟨left, right⟩
  cases first <;> cases second <;> simp [both]

theorem mapM_cons_except {α ε β : Type} (work : α → Except ε β) (input : α)
    (rest : List α) :
    (input :: rest).mapM work = match work input with
      | .error failure => .error failure
      | .ok value => (rest.mapM work).map (value :: ·) := by
  rw [List.mapM_cons]
  cases work input with
  | error failure => rfl
  | ok value => cases rest.mapM work <;> rfl

theorem mapM_cons_eq_ok_iff {α ε β : Type} {work : α → Except ε β} {item : α}
    {rest : List α} {values : List β} : (item :: rest).mapM work = .ok values ↔
      ∃ value later, work item = .ok value ∧ rest.mapM work = .ok later ∧
        values = value :: later := by
  rw [mapM_cons_except]
  cases work item with
  | error failure => simp
  | ok value => cases rest.mapM work <;> simp [Except.map, eq_comm]

theorem mapM_eq_ok_iff {α ε β : Type} {work : α → Except ε β} {items : List α}
    {values : List β} : items.mapM work = .ok values ↔
      List.Forall₂ (fun item value => work item = .ok value) items values := by
  induction items generalizing values with
  | nil => cases values <;> simp [pure, Except.pure]
  | cons item rest induction =>
      simp only [mapM_cons_eq_ok_iff, induction, List.forall₂_cons_left_iff]

theorem mapM_eq_ok_cons_iff {α ε β : Type} {work : α → Except ε β}
    {items : List α} {value : β} {later : List β} :
    items.mapM work = .ok (value :: later) ↔
      ∃ item rest, items = item :: rest ∧ work item = .ok value ∧
      rest.mapM work = .ok later := by
  simp only [mapM_eq_ok_iff, List.forall₂_cons_right_iff]
  constructor
  · rintro ⟨item, rest, first, others, rfl⟩
    exact ⟨item, rest, rfl, first, others⟩
  · rintro ⟨item, rest, rfl, first, others⟩
    exact ⟨item, rest, first, others, rfl⟩

theorem exists_mapM {α ε β : Type} {work : α → Except ε β} {items : List α}
    (fine : ∀ item ∈ items, ∃ value, work item = .ok value) :
    ∃ values, items.mapM work = .ok values := by
  induction items with
  | nil => exact ⟨[], rfl⟩
  | cons item rest induction =>
      rcases List.forall_mem_cons.1 fine with ⟨⟨value, first⟩, others⟩
      rcases induction others with ⟨later, worked⟩
      exact ⟨value :: later, mapM_cons_eq_ok_iff.2
        ⟨value, later, first, worked, rfl⟩⟩

theorem mem_iff_of_mapM {α ε β : Type} {work : α → Except ε β} {items : List α}
    {values : List β} (worked : items.mapM work = .ok values) {value : β} :
    value ∈ values ↔ ∃ item ∈ items, work item = .ok value := by
  induction items generalizing values with
  | nil =>
      cases worked
      simp
  | cons item rest induction =>
      rcases mapM_cons_eq_ok_iff.1 worked with ⟨first, later, here, others, rfl⟩
      simp [induction others, here, eq_comm]

end FencedJson
