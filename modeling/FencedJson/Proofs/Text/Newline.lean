import FencedJson.Proofs.Markdown.Content
import FencedJson.Proofs.Markdown.Lines

/-! # Spellings of line ends

A text can be spelt with each of its line ends as a line feed, as a carriage
return, or as the two. Texts with one line end each, when it is unified, are
those that are spelt in this way.
-/

namespace FencedJson

/-- The second text is the first one with each line feed spelt in one of three
ways. A carriage return that stands alone has no line feed behind it, for they
would be taken for one line end. -/
inductive Respells : (text spelt : List Char) → Prop
  | nil : Respells [] []
  | plain {c : Char} {text spelt : List Char} (other : c ≠ '\n')
      (behind : Respells text spelt) :
      Respells (c :: text) (c :: spelt)
  | feed {text spelt : List Char} (behind : Respells text spelt) :
      Respells ('\n' :: text) ('\n' :: spelt)
  | pair {text spelt : List Char} (behind : Respells text spelt) :
      Respells ('\n' :: text) ('\r' :: '\n' :: spelt)
  | alone {text spelt : List Char} (apart : spelt.head? ≠ some '\n')
      (behind : Respells text spelt) : Respells ('\n' :: text) ('\r' :: spelt)

theorem head?_eq_feed_iff {text : List Char} :
    text.head? = some '\n' ↔ ∃ rest, text = '\n' :: rest := by
  cases text <;> simp

theorem unifyNewlines_of_respells {text spelt : List Char}
    (respells : Respells text spelt) (plain : '\r' ∉ text) :
    unifyNewlines spelt = text := by
  induction respells with
  | nil => rfl
  | @plain c text spelt other behind induction =>
      rw [List.mem_cons, not_or] at plain
      have front : '\r' ∉ [c] := by simpa using plain.1
      rw [← List.singleton_append, unifyNewlines_append front,
        induction plain.2]
      rfl
  | feed behind induction =>
      have front : '\r' ∉ ['\n'] := by decide
      rw [← List.singleton_append, unifyNewlines_append front,
        induction fun member => plain (.tail _ member)]
      rfl
  | pair behind induction =>
      rw [unifyNewlines, induction fun member => plain (.tail _ member)]
  | alone apart behind induction =>
      have alone := fun rest same => apart (head?_eq_feed_iff.2 ⟨rest, same⟩)
      rw [unifyNewlines.eq_3 _ alone, induction fun member =>
        plain (.tail _ member)]

theorem unifyNewlines_eq_iff_respells {text spelt : List Char} :
    unifyNewlines spelt = text ↔ '\r' ∉ text ∧ Respells text spelt := by
  constructor
  · rintro rfl
    refine ⟨not_mem_unifyNewlines spelt, ?_⟩
    fun_induction unifyNewlines spelt with
    | case1 => exact .nil
    | case2 rest induction => exact .pair induction
    | case3 rest other induction =>
        refine .alone (fun feed => ?_) induction
        rcases head?_eq_feed_iff.1 feed with ⟨behind, same⟩
        exact other behind same
    | case4 c rest other notReturn induction =>
        by_cases feed : c = '\n'
        · subst feed
          exact .feed induction
        · exact .plain feed induction
  · rintro ⟨plain, respells⟩
    exact unifyNewlines_of_respells respells plain

end FencedJson
