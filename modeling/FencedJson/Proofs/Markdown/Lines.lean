import FencedJson.Markdown.Block

/-! # Lines of texts put together

A text that ends with a line feed can be put before any other. The lines of both
stay as they are, and those of the second one are numbered from where the first
one ends.
-/

namespace FencedJson

theorem unifyNewlines_append {front : List Char} (plain : '\r' ∉ front)
    (back : List Char) :
    unifyNewlines (front ++ back) = front ++ unifyNewlines back := by
  induction front with
  | nil => rfl
  | cons c front induction =>
      rw [List.mem_cons, not_or] at plain
      rw [List.cons_append, List.cons_append, ← induction plain.2]
      apply unifyNewlines.eq_4
      · intro rest same
        exact absurd same (Ne.symm plain.1)
      · exact Ne.symm plain.1

theorem unifyNewlines_of_plain {text : List Char} (plain : '\r' ∉ text) :
    unifyNewlines text = text := by
  have whole := unifyNewlines_append plain []
  rwa [List.append_nil, unifyNewlines, List.append_nil] at whole

theorem rawLines_append_feed {text : List Char} (single : '\n' ∉ text)
    (rest : List Char) :
    rawLines (text ++ '\n' :: rest) = ⟨text, true⟩ :: rawLines rest := by
  induction text with
  | nil => rw [List.nil_append, rawLines, if_pos rfl]
  | cons c text induction =>
      rw [List.mem_cons, not_or] at single
      rw [List.cons_append, rawLines, if_neg (Ne.symm single.1),
        induction single.2]

theorem rawLines_of_single {text : List Char} (single : '\n' ∉ text)
    (some : text ≠ []) :
    rawLines text = [⟨text, false⟩] := by
  induction text with
  | nil => contradiction
  | cons c text induction =>
      rw [List.mem_cons, not_or] at single
      rw [rawLines, if_neg (Ne.symm single.1)]
      cases text with
      | nil => rfl
      | cons next text => rw [induction single.2 (List.cons_ne_nil next text)]

namespace Markdown

/-! ## Visible texts -/

def visibleChar (c : Char) : Char := if c = '\x00' then '\ufffd' else c

theorem visibleChar_of_ne {c : Char} (other : c ≠ '\x00') :
    visibleChar c = c := if_neg other

theorem visibleChar_eq_iff {c mark : Char} (known : mark ≠ '\ufffd')
    (other : mark ≠ '\x00') :
    visibleChar c = mark ↔ c = mark := by
  by_cases null : c = '\x00'
  · subst null
    exact iff_of_false (Ne.symm known) (Ne.symm other)
  · rw [visibleChar_of_ne null]

theorem visibleText_of_plain {text : List Char} (plain : '\r' ∉ text)
    (shown : '\x00' ∉ text) :
    visibleText text = text := by
  have same : ∀ c ∈ text, visibleChar c = id c := fun c member =>
    visibleChar_of_ne fun null => shown (null ▸ member)
  rw [visibleText, unifyNewlines_of_plain plain]
  exact (List.map_congr_left same).trans (List.map_id text)

/-! ## Terminated lines -/

def terminated (lines : List (List Char)) : List Char :=
  lines.flatMap (· ++ ['\n'])

theorem terminated_cons (line : List Char) (lines : List (List Char)) :
    terminated (line :: lines) = line ++ '\n' :: terminated lines := by
  rw [terminated, List.flatMap_cons, List.append_assoc]
  rfl

theorem joinLines_append_singleton (lines : List (List Char))
    (last : List Char) :
    joinLines (lines ++ [last]) = terminated lines ++ last := by
  induction lines with
  | nil => rfl
  | cons line lines induction =>
      have several : lines ++ [last] ≠ [] :=
        List.append_ne_nil_of_right_ne_nil _ (by simp)
      rw [List.cons_append, joinLines.eq_3 _ _ several, induction,
        terminated_cons, List.append_assoc, List.cons_append]

/-! ## Numbers of lines -/

def Line.renumber (f : Nat → Nat) (line : Line) : Line :=
  { line with number := f line.number }

def numbered : (number : Nat) → List (List Char) → List Line
  | _, [] => []
  | number, text :: rest =>
      .ofRaw number ⟨text, true⟩ :: numbered (number + 1) rest

private theorem map_renumber_ofRaw (lines : List RawLine) (index : Nat) :
    ((lines.zipIdx index).map fun (line, index) =>
      Line.ofRaw (index + 1) line).map (Line.renumber (· + 1)) =
      (lines.zipIdx (index + 1)).map fun (line, index) =>
        Line.ofRaw (index + 1) line := by
  induction lines generalizing index with
  | nil => rfl
  | cons line lines induction =>
      rw [List.zipIdx_cons, List.zipIdx_cons, List.map_cons, List.map_cons,
        List.map_cons, induction]
      rfl

theorem documentLines_append_feed {text : List Char} (single : '\n' ∉ text)
    (rest : List Char) :
    documentLines (text ++ '\n' :: rest) =
      .ofRaw 1 ⟨text, true⟩ :: (documentLines rest).map
        (Line.renumber (· + 1)) := by
  simp only [documentLines]
  rw [rawLines_append_feed single, List.filter_cons_of_pos rfl,
    map_renumber_ofRaw]
  rfl

private theorem map_renumber_numbered (number : Nat)
    (lines : List (List Char)) :
    (numbered number lines).map (Line.renumber (· + 1)) =
      numbered (number + 1) lines := by
  induction lines generalizing number with
  | nil => rfl
  | cons line lines induction =>
      rw [numbered, List.map_cons, induction]
      rfl

theorem documentLines_terminated_append {lines : List (List Char)}
    (single : ∀ line ∈ lines, '\n' ∉ line) (rest : List Char) :
    documentLines (terminated lines ++ rest) =
      numbered 1 lines ++ (documentLines rest).map
        (Line.renumber (· + lines.length)) := by
  induction lines with
  | nil =>
      change documentLines rest = (documentLines rest).map id
      exact (List.map_id _).symm
  | cons line lines induction =>
      rcases List.forall_mem_cons.1 single with ⟨head, tail⟩
      rw [terminated_cons, List.append_assoc, List.cons_append,
        documentLines_append_feed head,
        induction tail, List.map_append, map_renumber_numbered,
          List.map_map, numbered,
        List.cons_append]
      rfl

theorem documentLines_of_single {text : List Char} (single : '\n' ∉ text)
    (filled : text.all isIndent = false) (ended : Bool) :
    documentLines (text ++ if ended then ['\n'] else []) =
      [.ofRaw 1 ⟨text, ended⟩] := by
  cases ended with
  | true => exact documentLines_append_feed single []
  | false =>
      have some : text ≠ [] := by
        rintro rfl
        simp at filled
      simp [documentLines, rawLines_of_single single some, filled]

end Markdown
end FencedJson
