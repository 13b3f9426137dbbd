import FencedJson.Proofs.Check.Recording
import FencedJson.Proofs.Check.Wording

/-! # The errors of a file

A file that can be checked has one error for each of its refused fences, in
their order and with the words of the refusals.
-/

namespace FencedJson.Check

open Markdown (Fence documentFences)

/-! ## The words of an error -/

private theorem BlockError.message_of_ofParts {line column : Int}
    {message : String} {error : BlockError}
    (made : ofParts line column message = .ok error) :
    error.message = message := by
  unfold ofParts ofFields at made
  dsimp only at made
  split at made
  · next line column told filled =>
      cases made
      rcases Filled.both_eq_ok_iff.1 (Filled.both_eq_ok_iff.1 filled).2 with
        ⟨-, told⟩
      exact (Except.ok.inj told).symm
  · cases made

private theorem message_of_locate {block : Node} {rejection : Rejection}
    {error : BlockError} (located : locate block rejection = .ok error) :
    error.message = rejection.message := by
  have placed {line column : Int}
      (made : (BlockError.ofParts line column rejection.message).mapError
        ValidationFailure.place = .ok error) :
        error.message = rejection.message := by
    cases outcome : BlockError.ofParts line column rejection.message with
    | error refusal =>
        rw [outcome] at made
        cases made
    | ok other =>
        rw [outcome] at made
        cases made
        exact BlockError.message_of_ofParts outcome
  unfold locate at located
  dsimp only at located
  split at located
  · split at located
    · cases located
    · exact placed located
  · exact placed located

theorem exists_report_of_validate {stack : Stack} {fence : Fence}
    {error : ParseError} {result : Option BlockError}
    (refused : refusal? stack fence = some error)
    (validated : validate (.standard stack) fence.node = .ok result) :
    ∃ report, result = some report ∧ report.message = error.message := by
  have rejected : ∃ rejection, rejection.message = error.message ∧
      (locate fence.node rejection).map some = .ok result := by
    have text : blockText fence.node = fence.text := rfl
    rcases refusal?_eq_some_iff.1 refused with ⟨found, reason, parsed, rfl⟩ |
      ⟨found, reason, parsed, rfl⟩
    · rcases rejection_of_strict parsed with ⟨rejection, rejected, message⟩
      refine ⟨rejection, message, ?_⟩
      simpa [validate, isStrict_node, found, Parsers.standard, text, rejected]
        using validated
    · rcases rejection_of_relaxed parsed with ⟨rejection, rejected, message, -⟩
      refine ⟨rejection, message, ?_⟩
      simpa [validate, isStrict_node, found, Parsers.standard, text, rejected]
        using validated
  rcases rejected with ⟨rejection, message, outcome⟩
  rcases map_eq_ok_iff.1 outcome with ⟨report, located, rfl⟩
  exact ⟨report, rfl, (message_of_locate located).trans message⟩

/-- The error has the words of the refusal, and shows a line feed where the
refusal does. -/
structure IsToldBy (refusal : ParseError) (error : BlockError) : Prop where
  message : error.message = refusal.message
  feeds : error.message.toList.count '\n' ≤ 1
  feed : '\n' ∈ error.message.toList ↔ refusal.IsAtLineFeed

private theorem isToldBy_of_refused {stack : Stack} {fence : Fence}
    {refusal : ParseError} {error : BlockError}
    (refused : refusal? stack fence = some refusal)
    (message : error.message = refusal.message) :
    IsToldBy refusal error := by
  rcases count_message refused with ⟨feeds, feed⟩
  exact ⟨message, message ▸ feeds, message ▸ feed⟩

/-! ## The errors of a text -/

private theorem isToldBy_of_findings {stack : Stack} {fences : List Fence}
    {found : List Finding} (json : ∀ fence ∈ fences, fence.isJson)
    (made : findings (.standard stack) (fences.map Fence.node) = .ok found) :
    List.Forall₂ IsToldBy (fences.filterMap (refusal? stack))
    (found.map Finding.error) := by
  induction fences generalizing found with
  | nil =>
      cases made
      exact .nil
  | cons fence rest induction =>
      rcases List.forall_mem_cons.1 json with ⟨first, others⟩
      rw [List.map_cons, findings] at made
      cases refused : refusal? stack fence with
      | none =>
          rw [validate_of_accepted first refused] at made
          rw [List.filterMap_cons_none refused]
          exact induction others made
      | some refusal =>
          rw [List.filterMap_cons_some refused]
          split at made
          · cases made
          · next validated =>
              rcases exists_report_of_validate refused validated with
                ⟨report, same, -⟩
              cases same
          · next report validated =>
              rcases exists_report_of_validate refused validated with
                ⟨other, same, message⟩
              cases same
              rcases map_eq_ok_iff.1 made with ⟨later, further, rfl⟩
              exact .cons (isToldBy_of_refused refused message)
                (induction others further)

private theorem isToldBy_of_checkText {stack : Stack} {markdown : String}
    {found : List Finding} (checked : checkText stack markdown = .ok found) :
    List.Forall₂ IsToldBy
      ((documentFences markdown).filterMap (refusal? (stack.call 4)))
      (found.map Finding.error) := by
  rw [checkText, Markdown.jsonBlocks_parse] at checked
  have told := isToldBy_of_findings
      (fun fence member => (List.mem_filter.1 member).2) checked
  have same : ((documentFences markdown).filter Fence.isJson).filterMap
        (refusal? (stack.call 4)) =
      (documentFences markdown).filterMap (refusal? (stack.call 4)) := by
    rw [List.filterMap_filter]
    refine List.filterMap_congr fun fence _ => ?_
    cases refused : refusal? (stack.call 4) fence with
    | none => simp
    | some refusal => rw [if_pos (isJson_of_refusal? refused)]
  rwa [same] at told

/-! ## The errors of a file -/

/-- Why fences of the file at a path are refused when it is checked on a stack,
in the order of the fences. -/
def refusalsOf (stack : Stack) (disk : Disk) (path : Path) : List ParseError :=
  match readText disk path with
  | .error _ => []
  | .ok markdown =>
      (documentFences markdown).filterMap (refusal? (stack.call 5))

theorem isToldBy_of_checkFile {stack : Stack} {disk : Disk} {path : Path}
    {found : List Finding} (checked : checkFile stack disk path = .ok found) :
    List.Forall₂ IsToldBy (refusalsOf stack disk path)
    (found.map Finding.error) := by
  rcases checkFile_eq_ok_iff.1 checked with
    ⟨content, text, bytes, decoded, checked⟩
  have read := readText_eq_ok_iff.2 ⟨content, text, bytes, decoded, rfl⟩
  have told := isToldBy_of_checkText checked
  rw [Stack.call_call] at told
  unfold refusalsOf
  simpa only [read] using told

theorem isToldBy_of_recordOf? {stack : Stack} {disk : Disk} {root path : Path}
    {name : String} {errors : List BlockError}
    (recorded : recordOf? stack disk root path = some (name, errors)) :
    List.Forall₂ IsToldBy (refusalsOf stack disk path) errors := by
  rcases recordOf?_eq_some_iff.1 recorded with ⟨-, found, checked, rfl⟩
  exact isToldBy_of_checkFile checked

end FencedJson.Check
