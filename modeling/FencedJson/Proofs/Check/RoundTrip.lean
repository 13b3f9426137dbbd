import FencedJson.Check.Validation
import FencedJson.Proofs.Markdown.Quoting

/-! # Texts in fences and back

A text that is put into a fence long enough for it comes out of the document as
it went in, and the check of the document is the validation of that text.
-/

namespace FencedJson.Check

open Markdown (Fence IsTag fencedDocument fenceLanguage)

theorem findings_singleton (parsers : Parsers) (block : Node) :
    findings parsers [block] =
      (validate parsers block).map fun error? =>
        (error?.map (Finding.mk block)).toList := by
  unfold findings
  cases validate parsers block with
  | error failure => rfl
  | ok error? => cases error? <;> rfl

theorem lt_of_not_infix_replicate {c : Char} {text : List Char} {length : Nat}
    (none : ¬ List.replicate length c <:+: text) {count : Nat}
    (run : List.replicate count c <:+: text) : count < length := by
  by_contra long
  have part : List.replicate length c <+: List.replicate count c :=
    ⟨List.replicate (count - length) c, by
      rw [List.replicate_append_replicate,
        Nat.add_sub_cancel' (Nat.not_lt.1 long)]⟩
  exact none (part.isInfix.trans run)

private theorem isTag_and_language {tag : String}
    (json : tag = "json" ∨ tag = "json5") :
    IsTag tag ∧ fenceLanguage (String.ofList tag.toList) = some tag := by
  rcases json with rfl | rfl
  · exact ⟨by simp [IsTag], by decide +kernel⟩
  · exact ⟨by simp [IsTag], by decide +kernel⟩

/-- A text goes through a fence and quotes unchanged, whatever Markdown it
holds. The document has the one block to check, on its first line, and a check
of the document is the validation of that block. -/
theorem checkText_fencedDocument (stack : Stack) {text tag : String}
    {length depth : Nat} (plain : '\r' ∉ text.toList)
    (shown : '\x00' ∉ text.toList) (json : tag = "json" ∨ tag = "json5")
    (long : 3 ≤ length)
    (longer : ∀ count, List.replicate count '`' <:+: text.toList →
      count < length) (shallow : depth ≤ 19) (ended : Bool) :
    let document := fencedDocument depth length tag text ended
    let block := Node.codeBlock text (some tag) 1
    (Markdown.parse document).jsonBlocks = [block] ∧
      checkText stack document = (validate (.standard (stack.call 4)) block).map
        fun error? =>
        (error?.map (Finding.mk block)).toList := by
  rcases isTag_and_language json with ⟨tagged, language⟩
  have noRun : ¬ List.replicate length '`' <:+: text.toList := by
    intro run
    exact Nat.lt_irrefl _ (longer length run)
  have fences := Markdown.documentFences_fencedDocument tagged plain
      shown long noRun
    (Nat.lt_succ_of_le shallow) ended
  let fence : Fence := ⟨1, tag.toList, text.toList.splitOn '\n', true⟩
  have node : fence.node = Node.codeBlock text (some tag) 1 := by
    have same : fence.text = text := by
      rw [Fence.text, Markdown.joinLines_splitOn, String.ofList_toList]
    rw [Fence.node, same, Fence.language, language]
    rfl
  have selected : fence.isJson := by
    rw [Fence.isJson, Fence.language, language]
    rcases json with rfl | rfl <;> decide
  have blocks :
      (Markdown.parse (fencedDocument depth length tag text ended)).jsonBlocks =
        [Node.codeBlock text (some tag) 1] := by
    rw [Markdown.jsonBlocks_parse, fences, List.filter_cons_of_pos selected,
      List.filter_nil, List.map_singleton, node]
  refine ⟨blocks, ?_⟩
  rw [checkText, blocks, findings_singleton]

/-- Shorter fences, markers, blank lines and raw HTML inside two quotes. -/
theorem checkText_fencedDocument_markup :
    ∃ text, text = "``\n> - [\n\n\t<pre>\n" ∧ '\r' ∉ text.toList ∧
    '\x00' ∉ text.toList ∧
      ¬ List.replicate 3 '`' <:+: text.toList ∧
      fencedDocument 2 3 "json5" text true =
        "> > ```json5\n> > ``\n> > > - [\n> > \n> > \t<pre>\n> > \n> > ```\n" ∧
      (Markdown.parse (fencedDocument 2 3 "json5" text true)).jsonBlocks =
        [.codeBlock text (some "json5") 1] := by
  have plain : '\r' ∉ "``\n> - [\n\n\t<pre>\n".toList := by decide
  have shown : '\x00' ∉ "``\n> - [\n\n\t<pre>\n".toList := by decide
  have noRun :
      ¬ List.replicate 3 '`' <:+:
        "``\n> - [\n\n\t<pre>\n".toList := by decide +kernel
  refine ⟨_, rfl, plain, shown, noRun, by decide +kernel, ?_⟩
  exact (checkText_fencedDocument .standard plain shown (.inr rfl)
    (Nat.le_refl 3) (fun count run => lt_of_not_infix_replicate noRun run)
    (by decide) true).1

end FencedJson.Check
