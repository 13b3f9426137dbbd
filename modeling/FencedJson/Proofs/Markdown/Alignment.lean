import FencedJson.Proofs.Markdown.Content
import FencedJson.Proofs.Markdown.Quoting

/-! # Fences on the lines of their source

A fence begins on the source line with its number, whatever containers that line
opens, and the lines of its text are ends of the source lines that follow. A
line of the text, counted from the opening fence on, is the source line at that
distance.
-/

namespace FencedJson

/-! ## First words -/

namespace Markdown

/-! ## Lines of fences -/

/-- The line is the end of a source line, behind the spaces that are left of a
tab. -/
structure IsEnd (source line : List Char) : Prop where
  spaced : ∃ spaces rest, spaces ≤ 3 ∧ rest <:+ source ∧
      line = List.replicate spaces ' ' ++ rest
  trimmed : line.dropWhile isIndent <:+ source

theorem isEnd_content {line : Line} {source : List Char}
    (suffix : line.lead ++ line.body <:+ source) (columns : Nat) :
    IsEnd source (line.content columns) := by
  rcases content_eq line columns with ⟨spaces, rest, few, within, same⟩
  refine ⟨⟨spaces, rest, few, within.trans suffix, same⟩, ?_⟩
  have blank : ∀ c ∈ List.replicate spaces ' ', isIndent c := fun c member => by
    rw [List.eq_of_mem_replicate member]
    rfl
  rw [same, List.dropWhile_append_of_pos blank]
  exact (List.dropWhile_suffix _).trans (within.trans suffix)

/-! ## Opening and closing -/

theorem Fence.Origin.shows {source : List (List Char)} {fence : Fence}
    (origin : fence.Origin source) {index : Nat} {line : List Char}
    (found : fence.lines[index]? = some line) :
    ∃ text, source[fence.line + index]? = some text ∧ IsEnd text line := by
  rw [origin.lines_eq, List.getElem?_map, Option.map_eq_some_iff] at found
  rcases found with ⟨inner, inside, rfl⟩
  rcases (origin.inside_follows.shows_of_getElem? inside).suffix with
    ⟨text, shown, suffix⟩
  rw [Nat.add_right_comm, Nat.add_sub_cancel] at shown
  exact ⟨text, shown, isEnd_content suffix origin.columns⟩

end Markdown
end FencedJson
