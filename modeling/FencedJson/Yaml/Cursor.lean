import FencedJson.Yaml.Character

/-! # Cursors

A cursor is what is left of a text together with the place where it begins,
since indentation counts.
-/

namespace FencedJson.Yaml

/-- What is left of a text. Lines, columns and offsets count from zero. -/
structure Cursor where
  rest : List Char
  line : Nat
  column : Nat
  offset : Nat
  deriving DecidableEq, Repr

namespace Cursor

def start (text : List Char) : Cursor :=
  match text with
  | '\ufeff' :: rest => ⟨rest, 0, 0, 1⟩
  | text => ⟨text, 0, 0, 0⟩

def step (cursor : Cursor) : Cursor :=
  match cursor.rest with
  | [] => cursor
  | c :: rest =>
      if isBreak c then ⟨rest, cursor.line + 1, 0, cursor.offset + 1⟩
      else if c = '\ufeff' then ⟨rest, cursor.line, cursor.column,
        cursor.offset + 1⟩
      else ⟨rest, cursor.line, cursor.column + 1, cursor.offset + 1⟩

def skip : (count : Nat) → Cursor → Cursor
  | 0, cursor => cursor
  | count + 1, cursor => skip count cursor.step

@[simp] theorem rest_step (cursor : Cursor) :
    cursor.step.rest = cursor.rest.tail := by
  unfold step
  split
  · next empty => simp [empty]
  · next c rest found => grind

theorem rest_skip (count : Nat) (cursor : Cursor) :
    (cursor.skip count).rest = cursor.rest.drop count := by
  induction count generalizing cursor with
  | zero => rfl
  | succ count induction => simp [skip, induction]

def goto (cursor : Cursor) (rest : List Char) : Cursor :=
  cursor.skip (cursor.rest.length - rest.length)

end Cursor
end FencedJson.Yaml
