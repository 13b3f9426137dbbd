import FencedJson.Proofs.Check.Refusals
import FencedJson.Proofs.Check.Report
import FencedJson.Proofs.Check.RoundTrip
import FencedJson.Proofs.Json.Room

/-! # Checks on larger stacks

A block that is checked on a stack comes to the same on every larger one, unless
its parser gave up for want of a call. So does a text, and so does a file.
-/

namespace FencedJson

/-- The second stack has no fewer calls left than the first one. -/
structure Stack.IsWithin (narrow wide : Stack) : Prop where
  frames_le : narrow.frames ≤ wide.frames
  relaxed_eq : narrow.relaxed = wide.relaxed

namespace Stack

variable {narrow wide : Stack}

theorem IsWithin.call (within : narrow.IsWithin wide) (count : Nat) :
    (narrow.call count).IsWithin (wide.call count) :=
  ⟨Nat.sub_le_sub_right within.frames_le count, within.relaxed_eq⟩

theorem isWithin_call (stack : Stack) (count : Nat) :
    (stack.call count).IsWithin stack :=
  ⟨Nat.sub_le .., rfl⟩

theorem IsWithin.strictLevels_le (within : narrow.IsWithin wide) :
    narrow.strictLevels ≤ wide.strictLevels :=
  Nat.sub_le_sub_right within.frames_le 5

theorem IsWithin.relaxedLevels_le (within : narrow.IsWithin wide)
    (text : String) :
    narrow.relaxedLevels text ≤ wide.relaxedLevels text := by
  unfold relaxedLevels
  rw [within.relaxed_eq]
  exact wide.relaxed.levels_mono text within.frames_le

end Stack

namespace Check

open Markdown (Fence documentFences)

def ParseError.IsOverflow : ParseError → Prop
  | strict (.tooDeep _) | relaxed (.tooDeep _) => True
  | _ => False

/-! ## Blocks -/

section

variable {narrow wide : Stack} {fence : Fence}

private theorem acceptStrict_congr {text : String}
    (same : Json.Strict.parse wide text = Json.Strict.parse narrow text) :
    Parsers.acceptStrict wide text = Parsers.acceptStrict narrow text := by
  rw [Parsers.acceptStrict, same, Parsers.acceptStrict]

private theorem acceptRelaxed_congr {text : String}
    (same : Json.Relaxed.parse wide text = Json.Relaxed.parse narrow text) :
    Parsers.acceptRelaxed wide text = Parsers.acceptRelaxed narrow text := by
  rw [Parsers.acceptRelaxed, same, Parsers.acceptRelaxed]

theorem verdict_congr_strict (strict : fence.language = some "json")
    (same : Json.Strict.parse wide fence.text =
      Json.Strict.parse narrow fence.text) :
    refusal? wide fence = refusal? narrow fence ∧
      validate (.standard wide) fence.node =
        validate (.standard narrow) fence.node := by
  have text : blockText fence.node = fence.text := rfl
  have known : isStrict fence.node = true := by rw [isStrict_node, strict]; rfl
  refine ⟨by simp only [refusal?, strict, same], ?_⟩
  simp only [validate, known, if_true, Parsers.standard, text,
    acceptStrict_congr same]

private theorem verdict_congr_relaxed (relaxed : fence.language = some "json5")
    (same : Json.Relaxed.parse wide fence.text =
      Json.Relaxed.parse narrow fence.text) :
    refusal? wide fence = refusal? narrow fence ∧
      validate (.standard wide) fence.node =
        validate (.standard narrow) fence.node := by
  have text : blockText fence.node = fence.text := rfl
  have known : isStrict fence.node = false := by
    rw [isStrict_node, relaxed]; rfl
  refine ⟨by simp only [refusal?, relaxed, same], ?_⟩
  simp only [validate, known, Bool.false_eq_true, if_false,
    Parsers.standard, text, acceptRelaxed_congr same]

private theorem verdict_of_isWithin (within : narrow.IsWithin wide)
    (json : fence.isJson) :
    (∃ error, refusal? narrow fence = some error ∧ error.IsOverflow) ∨
      refusal? wide fence = refusal? narrow fence ∧
        validate (.standard wide) fence.node =
          validate (.standard narrow) fence.node := by
  rcases language_of_isJson json with strict | relaxed
  · rcases Json.Strict.parse_of_larger within.strictLevels_le fence.text with
      ⟨overflow, short⟩ | same
    · exact .inl ⟨_, refusal?_eq_some_iff.2 (.inl ⟨strict, _, short, rfl⟩),
        trivial⟩
    · exact .inr (verdict_congr_strict strict same)
  · rcases Json.Relaxed.parse_of_larger
      (within.relaxedLevels_le fence.text) with ⟨overflow, short⟩ | same
    · exact .inl ⟨_, refusal?_eq_some_iff.2 (.inr ⟨relaxed, _, short, rfl⟩),
        trivial⟩
    · exact .inr (verdict_congr_relaxed relaxed same)

end

private theorem findings_congr {parsers other : Parsers} {blocks : List Node}
    (same : ∀ block ∈ blocks, validate parsers block = validate other block) :
    findings parsers blocks = findings other blocks := by
  induction blocks with
  | nil => rfl
  | cons block rest induction =>
      rcases List.forall_mem_cons.1 same with ⟨first, others⟩
      rw [findings, findings, first, induction others]

/-! ## Texts and files -/

section

variable {narrow wide : Stack} {markdown : String} {disk : Disk} {path : Path}

theorem checkText_of_isWithin (within : narrow.IsWithin wide)
    (room : ∀ fence ∈ documentFences markdown, ∀ error,
      refusal? (narrow.call 4) fence = some error → ¬ error.IsOverflow) :
    checkText wide markdown = checkText narrow markdown := by
  unfold checkText
  refine findings_congr fun block member => ?_
  rw [Markdown.jsonBlocks_parse] at member
  rcases List.mem_map.1 member with ⟨fence, found, rfl⟩
  rcases List.mem_filter.1 found with ⟨member, json⟩
  rcases verdict_of_isWithin (within.call 4) json with
    ⟨error, refused, short⟩ | ⟨-, same⟩
  · exact absurd short (room fence member error refused)
  · exact same

theorem checkFile_of_isWithin (within : narrow.IsWithin wide)
    (room : ∀ refusal ∈ refusalsOf narrow disk path, ¬ refusal.IsOverflow) :
    checkFile wide disk path = checkFile narrow disk path := by
  unfold refusalsOf at room
  unfold checkFile
  cases read : readText disk path with
  | error failure => rfl
  | ok markdown =>
      rw [read] at room
      have same : checkText (wide.call 1) markdown =
          checkText (narrow.call 1) markdown := by
        refine checkText_of_isWithin (within.call 1)
          fun fence member error refused => ?_
        rw [Stack.call_call] at refused
        exact room error (List.mem_filterMap.2 ⟨fence, member, refused⟩)
      simp only [same]

theorem checkFile_eq_nil_of_isWithin (within : narrow.IsWithin wide)
    (fine : checkFile narrow disk path = .ok []) :
    checkFile wide disk path = .ok [] := by
  have told := isToldBy_of_checkFile fine
  rw [checkFile_of_isWithin within, fine]
  rw [List.forall₂_nil_right_iff.1 told]
  exact nofun

end

/-! ## Arrays in arrays -/

def nestedDocument (count : Nat) : String :=
  "```json\n" ++ Json.nestedArrays count ++ "\n```\n"

theorem not_mem_nestedArrays {c : Char} (other : c ≠ '[' ∧ c ≠ ']')
    (count : Nat) :
    c ∉ (Json.nestedArrays count).toList := by
  rw [Json.nestedArrays, String.toList_ofList, List.mem_append, not_or]
  exact ⟨fun member => other.1 (List.eq_of_mem_replicate member),
    fun member => other.2 (List.eq_of_mem_replicate member)⟩

theorem return_not_mem_nestedDocument (count : Nat) :
    '\r' ∉ (nestedDocument count).toList := by
  have absent :=
      not_mem_nestedArrays (show '\r' ≠ '[' ∧ '\r' ≠ ']' by decide) count
  simp [nestedDocument, absent]

theorem isAddressable_nestedArrays {count : Nat} (small : count < 2 ^ 62) :
    IsAddressable (Json.nestedArrays count) := by
  rw [IsAddressable, ← String.length_toList, Json.nestedArrays,
    String.toList_ofList, List.length_append, List.length_replicate,
    List.length_replicate]
  omega

private theorem nestedDocument_eq (count : Nat) : nestedDocument count =
    Markdown.fencedDocument 0 3 "json" (Json.nestedArrays count) true := by
  have lines : (Json.nestedArrays count).toList.splitOn '\n' =
      [(Json.nestedArrays count).toList] := by
    have single :=
        not_mem_nestedArrays (show '\n' ≠ '[' ∧ '\n' ≠ ']' by decide) count
    exact Markdown.splitOn_joinLines (List.cons_ne_nil _ [])
      (List.forall_mem_singleton.2 single)
  refine String.toList_injective ?_
  simp only [Markdown.fencedDocument, Markdown.fenceLines, lines,
    nestedDocument, String.toList_append, String.toList_ofList]
  simp [Markdown.joinLines, Markdown.quoteMarks]

theorem checkText_nestedDocument (stack : Stack) (count : Nat) :
    let block := Node.codeBlock (Json.nestedArrays count) (some "json") 1
    checkText stack (nestedDocument count) =
      (validate (.standard (stack.call 4)) block).map fun error? =>
        (error?.map (Finding.mk block)).toList := by
  have absent {c : Char} (other : c ≠ '[' ∧ c ≠ ']') :=
    not_mem_nestedArrays other count
  have short (length : Nat)
      (run : List.replicate length '`' <:+: (Json.nestedArrays count).toList) :
      length < 3 := by
    cases length with
    | zero => decide
    | succ length =>
        exact absurd (run.subset (List.mem_cons_self ..)) (absent (by decide))
  rw [nestedDocument_eq]
  exact (checkText_fencedDocument stack (absent (by decide))
    (absent (by decide)) (.inl rfl) (Nat.le_refl 3) short
      (Nat.zero_le 19) true).2

theorem checkText_nestedDocument_of_le {stack : Stack} {count : Nat}
    (some : 0 < count) (room : count ≤ (stack.call 4).strictLevels) :
    checkText stack (nestedDocument count) = .ok [] := by
  rcases (Json.Strict.parse_nestedArrays (stack.call 4) some).1 room with
    ⟨value, parsed⟩
  rw [checkText_nestedDocument]
  simp [validate, isStrict, blockText, Node.codeBlock, Node.lang, Node.value,
    Parsers.standard, Parsers.acceptStrict, parsed, Except.map]

theorem checkText_nestedDocument_of_lt {stack : Stack} {count : Nat}
    (small : count < 2 ^ 62) (short : (stack.call 4).strictLevels < count) :
    ∃ finding, checkText stack (nestedDocument count) = .ok [finding] ∧
      finding.error.line = 1 ∧ finding.error.column = 1 ∧
      finding.error.message = Overflow.array.message := by
  let block := Node.codeBlock (Json.nestedArrays count) (some "json") 1
  have refused :=
    (Json.Strict.parse_nestedArrays (stack.call 4) (Nat.zero_lt_of_lt short)).2
      short
  have strict : isStrict block := rfl
  have begins : 1 ≤ block.startLine := Int.le_refl 1
  rcases exists_validate_of_strict strict begins
    (lt_pow_of_isAddressable (isAddressable_nestedArrays small)) refused with
    ⟨report, validated, line, column, message⟩
  rw [checkText_nestedDocument, validated]
  exact ⟨⟨block, report⟩, rfl, Int.ofNat_inj.1 line, column, message⟩

end Check
end FencedJson
