import FencedJson.Proofs.Markdown.Fence
import Mathlib.Data.List.Infix

/-! # Lines and their source

A container passes on the lines that stand inside of it. However deep it is
nested, each of them shows the end of the source line with its number, and the
numbers run on.
-/

namespace FencedJson.Markdown

def sourceLines (text : String) : List (List Char) :=
  (rawLines (visibleText text.toList)).map RawLine.text

/-- The line has the number, and shows the end of the source line with that
number. -/
structure Line.Shows (source : List (List Char)) (number : Nat) (line : Line) :
    Prop where
  number_eq : line.number = number
  suffix : ∃ text, source[number - 1]? = some text ∧
      line.lead ++ line.body <:+ text

/-- The lines show the source from a number on, with blanks before their bodies.
-/
def Follows (source : List (List Char)) : Nat → List Line → Prop
  | _, [] => True
  | number, line :: rest =>
      line.Shows source number ∧ line.lead.all isIndent ∧
      Follows source (number + 1) rest

/-- The lines show the source from a number on. The marker of a list item may
stand before the body of the first one. -/
def View (source : List (List Char)) (number : Nat) : List Line → Prop
  | [] => True
  | line :: rest => line.Shows source number ∧ Follows source (number + 1) rest

theorem Line.Shows.of_suffix {source : List (List Char)} {number : Nat}
    {line inner : Line} (shows : line.Shows source number)
    (same : inner.number = line.number)
    (suffix : inner.lead ++ inner.body <:+ line.lead ++ line.body) :
    inner.Shows source number := by
  rcases shows.suffix with ⟨text, found, whole⟩
  exact ⟨same.trans shows.number_eq, text, found, suffix.trans whole⟩

theorem Line.Shows.le_length {source : List (List Char)}
    {number : Nat} {line : Line} (shows : line.Shows source number) :
    number ≤ source.length := by
  rcases shows.suffix with ⟨text, found, -⟩
  rcases List.getElem?_eq_some_iff.1 found with ⟨within, -⟩
  omega

namespace Follows

variable {source : List (List Char)} {number : Nat} {lines : List Line}

theorem view (follows : Follows source number lines) :
    View source number lines := by
  cases lines with
  | nil => trivial
  | cons line rest => exact ⟨follows.1, follows.2.2⟩

theorem drop (follows : Follows source number lines) (count : Nat) :
    Follows source (number + count) (lines.drop count) := by
  induction count generalizing number lines with
  | zero => exact follows
  | succ count induction =>
      cases lines with
      | nil => trivial
      | cons line rest =>
          rw [List.drop_succ_cons, ← Nat.add_assoc, Nat.add_right_comm]
          exact induction follows.2.2

theorem take (follows : Follows source number lines) (count : Nat) :
    Follows source number (lines.take count) := by
  induction count generalizing number lines with
  | zero => trivial
  | succ count induction =>
      cases lines with
      | nil => trivial
      | cons line rest => exact ⟨follows.1, follows.2.1, induction follows.2.2⟩

theorem shows_of_getElem? {index : Nat} {line : Line}
    (follows : Follows source number lines)
    (found : lines[index]? = some line) :
    line.Shows source (number + index) := by
  have later := follows.drop index
  rw [List.drop_eq_getElem?_toList_append, found] at later
  exact later.1

end Follows

theorem View.drop {source : List (List Char)} {number : Nat} {lines : List Line}
    (view : View source number lines) (count : Nat) :
    View source (number + count) (lines.drop count) := by
  cases count with
  | zero => exact view
  | succ count =>
      cases lines with
      | nil => trivial
      | cons line rest =>
          rw [List.drop_succ_cons, ← Nat.add_assoc, Nat.add_right_comm]
          exact (view.2.drop count).view

/-! ## Lines inside of containers -/

theorem unquote_spec (line : Line) : ∃ inner, inner <:+ line.body ∧
    (unquote line).number = line.number ∧
    (unquote line).lead = inner.takeWhile isIndent ∧
      (unquote line).body = inner.dropWhile isIndent := by
  have dropped : line.body.drop 1 <:+ line.body := List.drop_suffix 1 line.body
  cases rest : line.body.drop 1 with
  | nil => exact ⟨[], List.nil_suffix, by simp [unquote, rest]⟩
  | cons c inner =>
      rw [rest] at dropped
      by_cases blank : c = ' ' ∨ c = '\t' ∧
        (line.start + (line.indent.toNat + 1)) % 4 = 3
      · refine ⟨inner, (List.suffix_cons ..).trans dropped, ?_⟩
        rcases blank with rfl | ⟨rfl, stop⟩ <;> simp [unquote, *]
      · refine ⟨c :: inner, dropped, ?_⟩
        rw [not_or, not_and] at blank
        by_cases tab : c = '\t'
        · simp [unquote, *]
        · have other : c ≠ ' ' := blank.1
          unfold unquote
          rw [rest]
          simp [*]

theorem shows_unquote {source : List (List Char)} {number : Nat} {line : Line}
    (shows : line.Shows source number) :
    (unquote line).Shows source number := by
  rcases unquote_spec line with ⟨inner, suffix, same, lead, body⟩
  apply shows.of_suffix same
  rw [lead, body, List.takeWhile_append_dropWhile]
  exact suffix.trans (List.suffix_append ..)

private theorem all_lead_unquote (line : Line) :
    (unquote line).lead.all isIndent := by
  rcases unquote_spec line with ⟨inner, -, -, lead, -⟩
  rw [lead]
  exact List.all_takeWhile

theorem follows_quoteLines {source : List (List Char)} {frame : Frame}
    {afterBlank : Bool} {number : Nat} {lines : List Line}
    (follows : Follows source number lines) :
    Follows source number (quoteLines frame afterBlank lines) := by
  fun_induction quoteLines frame afterBlank lines generalizing number with
  | case1 => trivial
  | case2 => trivial
  | case3 afterBlank line rest notBlank marked =>
      rename_i induction
      exact ⟨shows_unquote follows.1, all_lead_unquote line,
        induction follows.2.2⟩
  | case4 => trivial
  | case5 afterBlank line rest notBlank unmarked goesOn induction =>
      exact ⟨follows.1.of_suffix rfl List.suffix_rfl, follows.2.1,
        induction follows.2.2⟩

theorem shows_unmark {source : List (List Char)} {number : Nat} {line : Line}
    (shows : line.Shows source number) (marker : Marker) :
    (unmark marker line).1.Shows source number := by
  have whole : (unmark marker line).1.lead ++ (unmark marker line).1.body =
      line.lead ++ line.body := by
    simp only [unmark, List.append_assoc, List.takeWhile_append_dropWhile,
      List.take_append_drop]
  exact shows.of_suffix rfl (by rw [whole])

/-! ## The lines of a document -/

theorem isChain_rawLines (text : List Char) :
    (rawLines text).IsChain fun line _ => line.ended := by
  induction text with
  | nil => exact .nil
  | cons c rest induction =>
      unfold rawLines
      split
      · cases others : rawLines rest with
        | nil => exact .singleton _
        | cons first others => exact .cons_cons rfl (others ▸ induction)
      · cases others : rawLines rest with
        | nil => exact .singleton _
        | cons first others =>
            rw [others] at induction
            cases induction with
            | singleton => exact .singleton _
            | cons_cons ended chain => exact .cons_cons ended chain

private theorem filter_prefix_of_isChain {lines : List RawLine}
    {test : RawLine → Bool} (chain : lines.IsChain fun line _ => line.ended)
    (passes : ∀ line, line.ended → test line) :
    lines.filter test <+: lines := by
  induction lines with
  | nil => exact List.nil_prefix
  | cons line rest induction =>
      cases rest with
      | nil => cases passed : test line <;> simp [passed]
      | cons next rest =>
          rw [List.isChain_cons_cons] at chain
          rw [List.filter_cons_of_pos (passes line chain.1)]
          exact (List.prefix_cons_inj _).2 (induction chain.2)

private theorem follows_ofRaw {source : List (List Char)}
    {lines : List RawLine} {index : Nat}
    (found : ∀ offset line, lines[offset]? = some line →
      source[index + offset]? = some line.text) :
    Follows source (index + 1)
      ((lines.zipIdx index).map fun (line, index) =>
        Line.ofRaw (index + 1) line) := by
  induction lines generalizing index with
  | nil => trivial
  | cons line rest induction =>
      rw [List.zipIdx_cons, List.map_cons]
      refine ⟨⟨rfl, line.text, found 0 line rfl, ?_⟩, List.all_takeWhile, ?_⟩
      · change line.text.takeWhile isIndent ++
          line.text.dropWhile isIndent <:+ line.text
        rw [List.takeWhile_append_dropWhile]
      · apply induction
        intro offset other later
        rw [Nat.add_assoc, Nat.add_comm 1]
        exact found (offset + 1) other later

theorem follows_documentLines (text : String) :
    Follows (sourceLines text) 1 (documentLines (visibleText text.toList)) := by
  obtain ⟨others, whole⟩ :
      (rawLines (visibleText text.toList)).filter
          (fun line => line.ended || !line.text.all isIndent) <+:
        rawLines (visibleText text.toList) :=
    filter_prefix_of_isChain (isChain_rawLines _) (by simp +contextual)
  refine follows_ofRaw fun offset line found => ?_
  rw [sourceLines, List.getElem?_map, ← whole, Nat.zero_add,
    List.getElem?_append_left, found]
  · rfl
  · exact (List.getElem?_eq_some_iff.1 found).1

end FencedJson.Markdown
