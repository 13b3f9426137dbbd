import FencedJson.Check.BlockError
import FencedJson.Entries

/-! # The summary of a run

A summary counts the files that were checked and keeps the errors of those that
are not valid.
-/

namespace FencedJson.Check

structure Summary where
  checked : Nat
  valid : Nat
  invalid : Nat
  /-- The errors of each invalid file, in the order in which the files were
  first found invalid. -/
  errorsByPath : List (String × List BlockError)
  deriving DecidableEq

namespace Summary

def empty : Summary := ⟨0, 0, 0, []⟩

def passed (summary : Summary) : Bool := summary.invalid == 0

/-- Count one file. The errors of a file that is recorded again take the place
of its former errors. -/
def record (summary : Summary) (path : String) (errors : List BlockError) :
    Summary :=
  match errors with
  | [] =>
      { summary with checked := summary.checked + 1, valid :=
        summary.valid + 1 }
  | _ :: _ =>
      { summary with
        checked := summary.checked + 1
        invalid := summary.invalid + 1
        errorsByPath := putEntry path errors summary.errorsByPath }

/-- Record a file whose errors are given by the data of their fields. Data that
make no error are refused, and nothing is recorded then. -/
def recordData (summary : Summary) (path : String)
    (errors : List (List (String × Datum))) :
    Summary × Except Refusal Unit :=
  match errors.mapM BlockError.ofFields with
  | .error refusal => (summary, .error refusal)
  | .ok errors => (summary.record path errors, .ok ())

@[simp] theorem checked_record (summary : Summary) (path : String)
    (errors : List BlockError) : (summary.record path errors).checked =
      summary.checked + 1 := by
  cases errors <;> rfl

def errorLine (path : String) (error : BlockError) : String :=
  s!"{path}:{error.line}:{error.column}: {error.message}"

def countLine (summary : Summary) : String :=
  s!"{summary.checked} file(s) checked, {summary.valid} valid, {summary.invalid} invalid"

def lines (summary : Summary) : List String :=
  (summary.errorsByPath.flatMap fun (path, errors) =>
    errors.map (errorLine path)) ++ [summary.countLine]

end Summary

/-! ## Summaries in use -/

/-- The number by which a summary is known. Whoever holds it sees what is
recorded later. -/
abbrev SummaryId := Nat

structure Summaries where
  kept : List Summary

namespace Summaries

def empty : Summaries := ⟨[]⟩

def get (summaries : Summaries) (id : SummaryId) : Summary :=
  summaries.kept[id]?.getD .empty

def put (summaries : Summaries) (id : SummaryId) (summary : Summary) :
    Summaries :=
  ⟨summaries.kept.set id summary⟩

def fresh (summaries : Summaries) : SummaryId × Summaries :=
  (summaries.kept.length, ⟨summaries.kept ++ [.empty]⟩)

def Holds (summaries : Summaries) (id : SummaryId) : Prop :=
  id < summaries.kept.length

theorem get_put_self {summaries : Summaries} {id : SummaryId}
    (held : summaries.Holds id) (summary : Summary) :
    (summaries.put id summary).get id = summary := by
  rw [put, get, List.getElem?_set_self held, Option.getD_some]

@[simp] theorem holds_put {summaries : Summaries} {id other : SummaryId}
    {summary : Summary} :
    (summaries.put id summary).Holds other ↔ summaries.Holds other := by
  simp only [Holds, put, List.length_set]

@[simp] theorem get_fresh (summaries : Summaries) (id : SummaryId) :
    summaries.fresh.2.get id = summaries.get id := by
  simp only [fresh, get]
  rcases Nat.lt_or_ge id summaries.kept.length with within | beyond
  · rw [List.getElem?_append_left within]
  · rw [List.getElem?_append_right beyond, List.getElem?_eq_none beyond]
    cases id - summaries.kept.length <;> rfl

theorem put_get (summaries : Summaries) (id : SummaryId) :
    summaries.put id (summaries.get id) = summaries := by
  rcases Nat.lt_or_ge id summaries.kept.length with within | beyond
  · rw [put, get, List.getElem?_eq_getElem within, Option.getD_some,
      List.set_getElem_self]
  · rw [put, List.set_eq_of_length_le beyond]

end Summaries
end FencedJson.Check
