/-! # Reading from the front of a text

Every reader of this library takes a text as the list of its characters, or of
its tokens, and returns what it read together with those that are left.
-/

namespace FencedJson

/-- A value read from the front of `text` and what is left after it. A reading
uses up at least one character or token, which is why a loop of readings ends.
-/
structure Reading {τ : Type} (α : Type) (text : List τ) where
  value : α
  rest : List τ
  shorter : rest.length < text.length

namespace Reading

def map {τ α β : Type} {text : List τ} (transform : α → β)
    (reading : Reading α text) : Reading β text :=
  ⟨transform reading.value, reading.rest, reading.shorter⟩

def widen {τ α : Type} {inner text : List τ} (reading : Reading α inner)
    (within : inner.length ≤ text.length) : Reading α text :=
  ⟨reading.value, reading.rest, Nat.lt_of_lt_of_le reading.shorter within⟩

def ofHead {τ α : Type} (value : α) (head : τ) (rest : List τ) :
    Reading α (head :: rest) :=
  ⟨value, rest, Nat.lt_succ_self rest.length⟩

def behind {τ α : Type} {rest : List τ} (head : τ) (reading : Reading α rest) :
    Reading α (head :: rest) :=
  reading.widen (Nat.le_succ rest.length)

@[simp] theorem value_map {τ α β : Type} {text : List τ} (transform : α → β)
    (reading : Reading α text) :
    (reading.map transform).value = transform reading.value := rfl

@[simp] theorem rest_map {τ α β : Type} {text : List τ} (transform : α → β)
    (reading : Reading α text) : (reading.map transform).rest =
      reading.rest := rfl

@[simp] theorem value_widen {τ α : Type} {inner text : List τ}
    (reading : Reading α inner) (within : inner.length ≤ text.length) :
    (reading.widen within).value = reading.value := rfl

@[simp] theorem rest_widen {τ α : Type} {inner text : List τ}
    (reading : Reading α inner) (within : inner.length ≤ text.length) :
    (reading.widen within).rest = reading.rest := rfl

end Reading

theorem length_dropWhile_le {α : Type} (test : α → Bool) (items : List α) :
    (items.dropWhile test).length ≤ items.length :=
  (List.dropWhile_suffix test).length_le

theorem eq_false_of_mem_head?_dropWhile {α : Type} {test : α → Bool}
    {items : List α} {item : α} (first : item ∈ (items.dropWhile test).head?) :
    test item = false := by
  have ends := List.head?_dropWhile_not test items
  rwa [Option.mem_def.1 first] at ends

theorem length_lt_of_dropWhile_eq_cons {α : Type} {test : α → Bool}
    {items rest : List α} {head : α}
    (found : items.dropWhile test = head :: rest) :
    rest.length < items.length := by
  have bound := length_dropWhile_le test items
  rw [found, List.length_cons] at bound
  omega

def after? (front text : List Char) : Option (List Char) :=
  match front, text with
  | [], rest => some rest
  | _ :: _, [] => none
  | expected :: front, found :: rest =>
      if expected = found then after? front rest else none

theorem after?_eq_some_iff {front text rest : List Char} :
    after? front text = some rest ↔ text = front ++ rest := by
  induction front generalizing text with
  | nil => simp [after?, eq_comm]
  | cons expected front induction =>
      cases text with
      | nil => simp [after?]
      | cons found text =>
          by_cases same : expected = found
          · subst same
            simp [after?, induction]
          · simp [after?, same, Ne.symm same]

def withoutFront (front text : List Char) : List Char :=
  (after? front text).getD text

def occursIn (part : List Char) : List Char → Bool
  | [] => part.isEmpty
  | head :: rest => (after? part (head :: rest)).isSome || occursIn part rest

end FencedJson
