import FencedJson.Proofs.Markdown.Renumbering

/-! # Complete passages

Blank lines, headings behind number signs and closed fences are complete:
nothing that follows them can become part of them, and they leave nothing open.
So a document that begins with such passages has their fences and then those of
what follows.
-/

namespace FencedJson.Markdown

/-! ## Passages -/

/-- Does the line close a fence of `length` backticks? Before its backticks
stand three spaces at most, and behind them blanks alone. -/
def closesFence (length : Nat) (line : List Char) : Bool :=
  let margin := (line.takeWhile (· = ' ')).length
  let body := line.drop margin
  let count := (body.takeWhile (· = '`')).length
  margin ≤ 3 && length ≤ count && (body.drop count).all isIndent

def IsSingle (text : List Char) : Prop := '\n' ∉ text ∧ '\r' ∉ text

inductive Passage where
  | blank (line : List Char) (blank : line.all isIndent)
  | heading (margin level : Nat) (text : List Char) (margin_le : margin ≤ 3)
      (level_pos : 1 ≤ level) (level_le : level ≤ 6)
      (apart : ∀ c ∈ text.head?, isIndent c) (single : IsSingle text)
  | fence (length : Nat) (info : List Char) (lines : List (List Char))
      (long : 3 ≤ length) (plain : '`' ∉ info)
      (opened : ∀ line ∈ lines, closesFence length line = false)
      (single : ∀ line ∈ info :: lines, IsSingle line)

namespace Passage

def lines : Passage → List (List Char)
  | blank line _ => [line]
  | heading margin level text .. =>
      [List.replicate margin ' ' ++ (List.replicate level '#' ++ text)]
  | fence length info lines .. =>
      (List.replicate length '`' ++ info) ::
        (lines ++ [List.replicate length '`'])

def tag? : Passage → Option String
  | fence _ info .. => fenceLanguage (String.ofList info)
  | blank .. | heading .. => none

def fences (number : Nat) : Passage → List Fence
  | fence _ info lines .. => [⟨number, info, lines, true⟩]
  | blank .. | heading .. => []

end Passage

/-! ## Visible passages -/

theorem isIndent_visibleChar (c : Char) :
    isIndent (visibleChar c) = isIndent c := by
  simp [isIndent, visibleChar_eq_iff]

theorem all_isIndent_visible (text : List Char) :
    (text.map visibleChar).all isIndent = text.all isIndent := by
  simp only [List.all_map, Function.comp_def, isIndent_visibleChar]

theorem isSingle_visible {text : List Char} (single : IsSingle text) :
    IsSingle (text.map visibleChar) := by
  simpa [IsSingle, visibleChar_eq_iff] using single

theorem closesFence_visible (length : Nat) (line : List Char) :
    closesFence length (line.map visibleChar) = closesFence length line := by
  have space (c : Char) : visibleChar c = ' ' ↔ c = ' ' :=
    visibleChar_eq_iff (by decide) (by decide)
  have tick (c : Char) : visibleChar c = '`' ↔ c = '`' :=
    visibleChar_eq_iff (by decide) (by decide)
  simp only [closesFence, List.takeWhile_map, List.length_map, ← List.map_drop,
    Function.comp_def, space, tick, all_isIndent_visible]

namespace Passage

def visible : Passage → Passage
  | blank line isBlank =>
      .blank (line.map visibleChar) ((all_isIndent_visible line).trans isBlank)
  | heading margin level text margin_le level_pos level_le apart single =>
      .heading margin level (text.map visibleChar) margin_le level_pos level_le
        (by
          simp only [List.head?_map, Option.mem_def, Option.map_eq_some_iff]
          rintro _ ⟨c, found, rfl⟩
          exact (isIndent_visibleChar c).trans (apart c found))
        (isSingle_visible single)
  | fence length info lines long plain opened single =>
      .fence length (info.map visibleChar)
      (lines.map (List.map visibleChar)) long
        (by simpa [visibleChar_eq_iff] using plain)
        (by
          intro line member
          rcases List.mem_map.1 member with ⟨raw, found, rfl⟩
          exact (closesFence_visible length raw).trans (opened raw found))
        (by
          intro line member
          rw [← List.map_cons (f := List.map visibleChar)] at member
          rcases List.mem_map.1 member with ⟨raw, found, rfl⟩
          exact isSingle_visible (single raw found))

end Passage

/-! ## Completeness -/

def IsComplete (lines : List Line) (fences : List Fence) : Prop :=
  ∀ rest, fencesOf (blocksOf nestingLimit Frame.top (lines ++ rest)).blocks =
    fences ++ fencesOf (blocksOf nestingLimit Frame.top rest).blocks

namespace IsComplete

theorem nil : IsComplete [] [] := fun _ => rfl

theorem append {front back : List Line} {above below : List Fence}
    (first : IsComplete front above) (second : IsComplete back below) :
    IsComplete (front ++ back) (above ++ below) := by
  intro rest
  rw [List.append_assoc, first, second, List.append_assoc]

end IsComplete

namespace Passage

def allLines (passages : List Passage) : List (List Char) :=
  passages.flatMap lines

def textOf (passages : List Passage) : String :=
  String.ofList (terminated (allLines passages))

end Passage

end FencedJson.Markdown
