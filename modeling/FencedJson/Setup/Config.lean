import FencedJson.Field.Conversion

/-! # Configuration -/

namespace FencedJson

structure Config where
  enabled : Bool
  includes : List String
  excludes : List String
  deriving DecidableEq, Repr

namespace Config

def standard : Config := ⟨true, ["**/*.md"], ["**/node_modules/**", ".git/**"]⟩

/-- A configuration out of the data of its fields. Options that are not given
keep their standard values, and unknown ones are ignored. -/
def ofFields (entries : List (String × Datum)) : Except Refusal Config :=
  let texts (name : String) (otherwise : List String) :=
    Filled.field entries name (.ok otherwise) (Datum.toTexts name)
  let enabled := Filled.field entries "enabled" (.ok standard.enabled)
    (Filled.convert "enabled" Datum.toBoolean)
  match Filled.both enabled (Filled.both (texts "includes" standard.includes)
      (texts "excludes" standard.excludes)) with
  | .ok (enabled, includes, excludes) => .ok ⟨enabled, includes, excludes⟩
  | .error faults => .error ⟨"CheckConfig", faults⟩

end Config
end FencedJson
