import FencedJson.Field.Conversion

/-! # Errors of blocks -/

namespace FencedJson.Check

/-- A block that could not be parsed: where in its file, and why. -/
structure BlockError where
  line : Nat
  column : Nat
  message : String
  line_pos : 1 ≤ line
  column_pos : 1 ≤ column
  deriving DecidableEq

namespace BlockError

def ordinal (location : String) (datum : Datum) : Filled { n : Nat // 1 ≤ n } :=
  match Filled.convert location Datum.toInteger datum with
  | .error faults => .error faults
  | .ok number =>
      if positive : 1 ≤ number.toNat then .ok ⟨number.toNat, positive⟩
      else .error [⟨location, .belowOne, datum⟩]

def ofFields (entries : List (String × Datum)) : Except Refusal BlockError :=
  let number (name : String) :=
    Filled.field entries name (Filled.missing entries name) (ordinal name)
  let message := Filled.field entries "message"
      (Filled.missing entries "message")
    (Filled.convert "message" Datum.toText)
  match Filled.both (number "line") (Filled.both (number "column") message) with
  | .ok (line, column, message) =>
      .ok ⟨line.val, column.val, message, line.property, column.property⟩
  | .error faults => .error ⟨"BlockError", faults⟩

def ofParts (line column : Int) (message : String) :
    Except Refusal BlockError :=
  ofFields [("line", .integer line), ("column", .integer column),
    ("message", .text message)]

theorem ordinal_integer {location : String} {number : Int}
    (positive : 1 ≤ number) :
    ordinal location (.integer number) = .ok ⟨number.toNat, by omega⟩ := by
  have whole : 1 ≤ number.toNat := by omega
  have converted : Filled.convert location Datum.toInteger (.integer number) =
      .ok number := rfl
  simp [ordinal, converted, whole]

theorem ofParts_of_pos {line column : Int} (message : String)
    (line_pos : 1 ≤ line) (column_pos : 1 ≤ column) :
    ofParts line column message =
      .ok ⟨line.toNat, column.toNat, message, by omega, by omega⟩ := by
  have converted : Filled.convert "message" Datum.toText (.text message) =
      .ok message := rfl
  simp [ofParts, ofFields, Filled.field, List.lookup_cons,
    ordinal_integer line_pos, ordinal_integer column_pos,
    converted, Filled.both]

end BlockError
end FencedJson.Check
