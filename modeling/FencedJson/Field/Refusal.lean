import FencedJson.Field.Datum

/-! # Refusals of fields

A record is filled from data field by field. The fields that do not fit are
reported together, each with the reason and the datum.
-/

namespace FencedJson

inductive Reason where
  | missing
  | belowOne
  | noInteger
  | unreadableInteger
  | fractional
  | notFinite
  | noText
  | unreadableText
  | noList
  | noBoolean
  | unreadableBoolean
  deriving DecidableEq, Repr

namespace Reason

def name : Reason → String
  | missing => "missing"
  | belowOne => "greater_than_equal"
  | noInteger => "int_type"
  | unreadableInteger => "int_parsing"
  | fractional => "int_from_float"
  | notFinite => "finite_number"
  | noText => "string_type"
  | unreadableText => "string_unicode"
  | noList => "list_type"
  | noBoolean => "bool_type"
  | unreadableBoolean => "bool_parsing"

def message : Reason → String
  | missing => "Field required"
  | belowOne => "Input should be greater than or equal to 1"
  | noInteger => "Input should be a valid integer"
  | unreadableInteger =>
      "Input should be a valid integer, unable to parse string as an integer"
  | fractional =>
      "Input should be a valid integer, got a number with a fractional part"
  | notFinite => "Input should be a finite number"
  | noText => "Input should be a valid string"
  | unreadableText =>
      "Input should be a valid string, unable to parse raw data as a unicode string"
  | noList => "Input should be a valid list"
  | noBoolean => "Input should be a valid boolean"
  | unreadableBoolean =>
      "Input should be a valid boolean, unable to interpret input"

end Reason

/-- A field, or an item of a list in it, that was not accepted. -/
structure Fault where
  location : String
  reason : Reason
  datum : Datum

def Fault.lines (fault : Fault) : List String :=
  let name := fault.reason.name
  [fault.location,
    s!"  {fault.reason.message} [type={name}, input_value={fault.datum.excerpt}, " ++
      s!"input_type={fault.datum.kind}]",
    s!"    For further information visit https://errors.pydantic.dev/2.14/v/{name}"]

structure Refusal where
  subject : String
  faults : List Fault

def Refusal.message (refusal : Refusal) : String :=
  let count := refusal.faults.length
  let errors := if count = 1 then "error" else "errors"
  "\n".intercalate
    (s!"{count} validation {errors} for {refusal.subject}" ::
      refusal.faults.flatMap Fault.lines)

/-- A record's value out of data, or the faults of the fields. -/
abbrev Filled (α : Type) := Except (List Fault) α

namespace Filled

def faults {α : Type} : Filled α → List Fault
  | .ok _ => []
  | .error faults => faults

/-- The value of a field that was read with `read`; `otherwise` stands in for
one that is not there. -/
def field {α : Type} (entries : List (String × Datum)) (name : String)
    (otherwise : Filled α) (read : Datum → Filled α) : Filled α :=
  match entries.lookup name with
  | some datum => read datum
  | none => otherwise

def missing {α : Type} (entries : List (String × Datum)) (name : String) :
    Filled α :=
  .error
    [⟨name, .missing, .mapping
      (entries.map fun (key, value) => (.text key, value))⟩]

def convert {α : Type} (location : String) (read : Datum → Except Reason α)
    (datum : Datum) : Filled α :=
  (read datum).mapError fun reason => [⟨location, reason, datum⟩]

def both {α β : Type} (first : Filled α) (second : Filled β) : Filled (α × β) :=
  match first, second with
  | .ok left, .ok right => .ok (left, right)
  | first, second => .error (first.faults ++ second.faults)

end Filled
end FencedJson
