/-! # Association lists

Lists of keys with their values in which no key occurs twice. A key keeps the
place at which it was first entered.
-/

namespace FencedJson

/-- Enter a key into an association list: a key that is there keeps its place
and takes the new value, a new key goes to the end. -/
def putEntry {κ ν : Type} [DecidableEq κ] (key : κ) (value : ν) :
    List (κ × ν) → List (κ × ν)
  | [] => [(key, value)]
  | (first, old) :: rest =>
      if first = key then (first, value) :: rest
      else (first, old) :: putEntry key value rest

def entriesOf {κ ν : Type} [DecidableEq κ] (pairs : List (κ × ν)) :
    List (κ × ν) :=
  pairs.foldl (fun entries pair => putEntry pair.1 pair.2 entries) []

theorem mem_of_lookup {κ ν : Type} [DecidableEq κ] {entries : List (κ × ν)}
    {key : κ} {value : ν} (found : entries.lookup key = some value) :
    (key, value) ∈ entries := by
  rcases List.lookup_eq_some_iff.1 found with ⟨front, back, rfl, -⟩
  exact List.mem_append_right _ (List.mem_cons_self ..)

theorem keys_putEntry {κ ν : Type} [DecidableEq κ] (key : κ) (value : ν)
    (entries : List (κ × ν)) :
    (putEntry key value entries).map Prod.fst =
      if key ∈ entries.map Prod.fst then entries.map Prod.fst
      else entries.map Prod.fst ++ [key] := by
  induction entries with
  | nil => simp [putEntry]
  | cons entry rest induction =>
      by_cases same : entry.1 = key
      · simp [putEntry, same]
      · by_cases later : key ∈ rest.map Prod.fst
        · simp_all [putEntry, Ne.symm same]
        · simp_all [putEntry, Ne.symm same]

theorem lookup_putEntry_self {κ ν : Type} [DecidableEq κ] (key : κ) (value : ν)
    (entries : List (κ × ν)) : (putEntry key value entries).lookup key =
      some value := by
  induction entries with
  | nil => simp [putEntry]
  | cons entry rest induction =>
      rcases entry with ⟨first, old⟩
      by_cases same : first = key
      · simp [putEntry, same]
      · have different : (key == first) = false := by simpa using Ne.symm same
        simp [putEntry, same, List.lookup_cons, different, induction]

end FencedJson
