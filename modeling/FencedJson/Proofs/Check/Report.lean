import FencedJson.Proofs.Check.Verdict
import FencedJson.Proofs.Markdown.Content

/-! # Reports on documents

A check of a document comes to its end with one report for every refused fence.
The report stands on a line of its fence, so that reports come in the order of
their lines.
-/

namespace FencedJson.Check

open Markdown (Fence documentFences sourceLines)

theorem findings_eq {parsers : Parsers} {report? : Node → Option BlockError}
    {blocks : List Node} (validated : ∀ block ∈ blocks, validate parsers block =
      .ok (report? block)) :
    findings parsers blocks =
      .ok (blocks.filterMap fun block =>
        (report? block).map (Finding.mk block)) := by
  induction blocks with
  | nil => rfl
  | cons block rest induction =>
      have head := validated block (List.mem_cons_self ..)
      have tail := induction fun block member =>
          validated block (List.mem_cons_of_mem _ member)
      unfold findings
      rw [head]
      cases found : report? block with
      | none => simp [found, tail]
      | some error => simp [found, tail, Except.map]

/-- The report on a block, if its validation ends with one. -/
def report? (stack : Stack) (block : Node) : Option BlockError :=
  (validate (.standard stack) block).toOption.join

def finding? (stack : Stack) (fence : Fence) : Option Finding :=
  (refusal? stack fence).bind fun _ => (report? stack fence.node).map
    (Finding.mk fence.node)

section

variable {stack : Stack} {markdown : String} {fence : Fence}
  {error : ParseError}

theorem one_le_line (member : fence ∈ documentFences markdown) :
    1 ≤ fence.line :=
  ((Markdown.placed_documentFences markdown).choose_spec.within fence member).1

private theorem length_text_lt (addressable : IsAddressable markdown)
    (member : fence ∈ documentFences markdown) :
    fence.text.length < 10 ^ integerDigitLimit := by
  have short : markdown.length + 4 < 2 ^ 64 := by
    have : markdown.length < 2 ^ 63 := addressable
    omega
  calc fence.text.length
    _ ≤ markdown.length * (markdown.length + 4) :=
      Markdown.length_text_le member
    _ ≤ (markdown.length + 4) ^ 2 := by
      rw [Nat.pow_two]
      exact Nat.mul_le_mul_right _ (Nat.le_add_right ..)
    _ < (2 ^ 64) ^ 2 := Nat.pow_lt_pow_left short (by decide)
    _ < 10 ^ 128 := by decide
    _ ≤ 10 ^ integerDigitLimit := Nat.pow_le_pow_right (by decide) (by decide)

theorem exists_report_of_refused (addressable : IsAddressable markdown)
    (member : fence ∈ documentFences markdown)
    (refused : refusal? stack fence = some error) :
    ∃ report, report? stack fence.node = some report ∧
      validate (.standard stack) fence.node = .ok (some report) ∧
      report.line = fence.line + error.line fence.text ∧
      report.message = error.message := by
  rcases exists_validate_of_refused (one_le_line member)
    (length_text_lt addressable member) refused with
      ⟨report, validated, line, message⟩
  refine ⟨report, ?_, validated, line, message⟩
  rw [report?, validated]
  rfl

private theorem validate_eq_report? (addressable : IsAddressable markdown)
    (member : fence ∈ documentFences markdown) (json : fence.isJson) :
    validate (.standard stack) fence.node = .ok (report? stack fence.node) := by
  cases refused : refusal? stack fence with
  | none =>
      rw [report?, validate_of_accepted json refused]
      rfl
  | some error =>
      rcases exists_report_of_refused addressable member refused with
        ⟨report, found, validated, -⟩
      rw [validated, found]

theorem checkText_eq (addressable : IsAddressable markdown) :
    checkText stack markdown =
      .ok ((documentFences markdown).filterMap (finding? (stack.call 4))) := by
  have verdicts : ∀ block ∈ (Markdown.parse markdown).jsonBlocks,
      validate (.standard (stack.call 4)) block =
        .ok (report? (stack.call 4) block) := by
    rw [Markdown.jsonBlocks_parse]
    intro block member
    rcases List.mem_map.1 member with ⟨fence, found, rfl⟩
    rcases List.mem_filter.1 found with ⟨member, json⟩
    exact validate_eq_report? addressable member json
  rw [checkText, findings_eq verdicts, Markdown.jsonBlocks_parse,
    List.filterMap_map, List.filterMap_filter]
  refine congrArg _ (List.filterMap_congr fun fence _ => ?_)
  unfold finding?
  cases refused : refusal? (stack.call 4) fence with
  | some error => rw [if_pos (isJson_of_refusal? refused)]; rfl
  | none =>
      split
      · next json =>
          have none : report? (stack.call 4) fence.node = none := by
            rw [report?, validate_of_accepted json refused]
            rfl
          simp [none]
      · rfl

end

end FencedJson.Check
