import FencedJson.Proofs.Markdown.View

/-! # Extents of fences

The fences of a document stand one below the other: each begins behind the last
line of the one before, whatever containers they stand in. The lines of a fence,
its opening and its closing are lines of the document.
-/

namespace FencedJson.Markdown

/-- The lines of the source that a fence is made of. -/
structure Fence.Origin (source : List (List Char)) (fence : Fence) where
  opening : Opening
  first : Line
  first_shows : first.Shows source fence.line
  opens : Opening.ofBody? first.body = some opening
  info_eq : fence.info = opening.info
  /-- The lines between the opening fence and the closing one. -/
  inside : List Line
  inside_follows : Follows source (fence.line + 1) inside
  /-- How many columns of indentation are not part of the text. -/
  columns : Nat
  lines_eq : fence.lines = inside.map (·.content columns)
  closes : fence.closed → ∃ line : Line, line.Shows source fence.last ∧
      opening.isClosedBy line.body

/-- The fences stand one below the other on lines of the source, from `start` on
and before `stop`. -/
structure Placed (source : List (List Char)) (start stop : Nat)
    (fences : List Fence) :
    Prop where
  ordered : fences.Pairwise fun first second => first.last < second.line
  within : ∀ fence ∈ fences, start ≤ fence.line ∧ fence.last < stop
  origin : ∀ fence ∈ fences, Nonempty (fence.Origin source)

namespace Placed

variable {source : List (List Char)} {start middle stop : Nat}

theorem nil : Placed source start stop [] := ⟨.nil, by simp, by simp⟩

theorem mono {fences : List Fence} {start' stop' : Nat}
    (placed : Placed source start stop fences) (earlier : start' ≤ start)
    (later : stop ≤ stop') : Placed source start' stop' fences where
  ordered := placed.ordered
  within fence member := by
    have := placed.within fence member
    omega
  origin := placed.origin

theorem append {front back : List Fence}
    (first : Placed source start middle front)
    (second : Placed source middle stop back) (forward : start ≤ middle)
    (further : middle ≤ stop) :
    Placed source start stop (front ++ back) where
  ordered := by
    rw [List.pairwise_append]
    refine ⟨first.ordered, second.ordered,
      fun upper upperMember lower lowerMember => ?_⟩
    have := first.within upper upperMember
    have := second.within lower lowerMember
    omega
  within fence member := by
    rcases List.mem_append.1 member with member | member
    · have := first.within fence member
      omega
    · have := second.within fence member
      omega
  origin fence member := by
    rcases List.mem_append.1 member with member | member
    · exact first.origin fence member
    · exact second.origin fence member

end Placed

/-! ## Rules -/

/-- A parser of a container keeps the fences on the lines that it takes. -/
def IsFaithful (source : List (List Char)) (nested : Nested) : Prop :=
  ∀ ⦃frame number lines⦄, View source number lines →
    Placed source number (number + (nested frame lines).used)
      (fencesOf (nested frame lines).blocks)

def Step.IsPlaced (source : List (List Char)) (number : Nat) (step : Step) :
    Prop :=
  Placed source number (number + 1 + step.further) step.block.fences

section

variable {source : List (List Char)} {frame : Frame}
  {number : Nat} {line : Line} {rest : List Line} {made : Step}

theorem fenceExtent_spec (frame : Frame) (opening : Opening)
    (lines : List Line) :
    (fenceExtent frame opening lines).1 ≤ lines.length ∧
      ((fenceExtent frame opening lines).2 → ∃ line,
        lines[(fenceExtent frame opening lines).1]? = some line ∧
          opening.isClosedBy line.body) := by
  induction lines with
  | nil => simp [fenceExtent]
  | cons line rest induction =>
      unfold fenceExtent
      split
      · simp
      · split
        · next closes =>
            simp only [Bool.and_eq_true] at closes
            exact ⟨Nat.zero_le _, fun _ => ⟨line, rfl, closes.2⟩⟩
        · exact ⟨Nat.succ_le_succ induction.1, induction.2⟩

theorem isPlaced_fenceStep (view : View source number (line :: rest))
    (found : fenceStep? frame line rest = some made) :
    made.IsPlaced source number := by
  unfold fenceStep? at found
  split at found
  · simp at found
  · rcases Option.map_eq_some_iff.1 found with ⟨opening, opens, rfl⟩
    rcases fenceExtent_spec frame opening rest with ⟨within, closing⟩
    have begins := view.1.number_eq
    generalize fenceExtent frame opening rest = extent at within closing ⊢
    rcases extent with ⟨inside, closed⟩
    have length : (rest.take inside).length = inside :=
      List.length_take_of_le within
    have origin : Fence.Origin source ⟨line.number, opening.info,
        (rest.take inside).map (·.content line.indent.toNat), closed⟩ := {
      opening, first := line, opens, info_eq := rfl
      first_shows := begins ▸ view.1
      inside := rest.take inside
      inside_follows := begins ▸ view.2.take inside
      columns := line.indent.toNat
      lines_eq := rfl
      closes := by
        intro isClosed
        change closed = true at isClosed
        rcases closing isClosed with ⟨last, found, ends⟩
        have shows := view.2.shows_of_getElem? found
        refine ⟨last, ?_, ends⟩
        have same : number + 1 + inside = line.number + inside +
            closed.toNat := by
          rw [begins, isClosed, Bool.toNat_true]
          omega
        rw [same] at shows
        simpa only [Fence.last, List.length_map, length] using shows }
    refine ⟨List.pairwise_singleton .., ?_, ?_⟩
    · intro fence member
      rw [List.mem_singleton.1 member]
      simp only [Fence.last, List.length_map, length, begins]
      cases closed with
      | false => exact ⟨Nat.le_refl _, by simp⟩
      | true => exact ⟨Nat.le_refl _, by simp; omega⟩
    · intro fence member
      rw [List.mem_singleton.1 member]
      exact ⟨origin⟩

theorem isPlaced_quoteStep {nested : Nested}
    (faithful : IsFaithful source nested)
    (view : View source number (line :: rest))
    (found : quoteStep? nested frame line rest = some made) :
    made.IsPlaced source number := by
  unfold quoteStep? at found
  split at found
  · cases found
    have inner : View source number
        (unquote line :: quoteLines frame (unquote line).isBlank rest) :=
      ⟨shows_unquote view.1, follows_quoteLines view.2⟩
    exact (faithful inner).mono (Nat.le_refl _) (by simp only; omega)
  · simp at found

theorem itemContent_cases (nested : Nested) (frame : Frame)
    (marker : Marker) (line : Line) (rest : List Line) :
    itemContent nested frame marker line rest = ⟨[], min 2 (rest.length + 1)⟩ ∨
      itemContent nested frame marker line rest =
        nested ⟨(unmark marker line).2, some frame.indent⟩
          ((unmark marker line).1 :: rest) := by
  cases rest <;> unfold itemContent <;> dsimp only <;> split
  · exact .inl rfl
  · exact .inr rfl
  · exact .inl rfl
  · exact .inr rfl

private theorem placed_itemContent {nested : Nested}
    (faithful : IsFaithful source nested) (marker : Marker)
    (view : View source number (line :: rest)) :
    Placed source number
      (number + (itemContent nested frame marker line rest).used)
      (fencesOf (itemContent nested frame marker line rest).blocks) := by
  have inner : View source number ((unmark marker line).1 :: rest) :=
    ⟨shows_unmark view.1 marker, view.2⟩
  rcases itemContent_cases nested frame marker line rest with empty | parsed
  · rw [empty]
    exact .nil
  · rw [parsed]
    exact faithful inner

theorem placed_item {nested : Nested} (faithful : IsFaithful source nested)
    (marker : Marker) (view : View source number (line :: rest)) :
    Placed source number
      (number + 1 + ((itemContent nested frame marker line rest).used - 1))
      (Block.item line.number
        (itemContent nested frame marker line rest).blocks).fences :=
  (placed_itemContent faithful marker view).mono (Nat.le_refl _) (by omega)

private theorem placed_listItems {nested : Nested}
    (faithful : IsFaithful source nested) (marker : Marker)
    (view : View source number (line :: rest)) :
    Placed source number
      (number + 1 + (listItems nested frame marker line rest).2)
      (fencesOf (listItems nested frame marker line rest).1) := by
  fun_induction listItems nested frame marker line rest generalizing number with
  | case1 | case2 | case3 | case5 =>
      rw [fencesOf, fencesOf, List.append_nil]
      exact placed_item faithful _ view
  | case4 marker line rest content further item next following left inside
      nextMarker found same shorter items more others =>
      rename_i induction
      have size :
          further = (itemContent nested frame marker line rest).used - 1 := rfl
      have remaining := view.2.drop further
      rw [left] at remaining
      have below := induction remaining.view
      rw [others] at below
      rw [fencesOf]
      exact (placed_item faithful marker view).append
        (below.mono (Nat.le_refl _) (by omega)) (by omega) (by omega)

theorem isPlaced_listStep {nested : Nested}
    (faithful : IsFaithful source nested)
    (view : View source number (line :: rest))
    (found : listStep? nested frame line rest = some made) :
    made.IsPlaced source number := by
  rcases Option.map_eq_some_iff.1 found with ⟨marker, -, rfl⟩
  exact placed_listItems faithful marker view

theorem Step.isPlaced_of_fences (none : made.block.fences = []) :
    made.IsPlaced source number := by
  rw [Step.IsPlaced, none]
  exact .nil

private theorem fences_of_plainRule
    {rule : Frame → Line → List Line → Option Step} (plain :
      rule ∈ [codeStep?, ruleStep?, definitionStep?, htmlStep?, headingStep?,
        underlinedStep?]) (found : rule frame line rest = some made) :
        made.block.fences = [] := by
  simp only [List.mem_cons, List.not_mem_nil, or_false] at plain
  rcases plain with rfl | rfl | rfl | rfl | rfl | rfl
  · simp only [codeStep?, Option.ite_none_right_eq_some,
      Option.some.injEq] at found
    rw [← found.2]
    rfl
  · simp only [ruleStep?, Option.ite_none_right_eq_some,
      Option.some.injEq] at found
    rw [← found.2]
    rfl
  · simp only [definitionStep?, Option.ite_none_left_eq_some,
      Option.map_eq_some_iff] at found
    rcases found with ⟨-, ⟨label, further⟩, -, rfl⟩
    rfl
  · simp only [htmlStep?, Option.ite_none_left_eq_some,
      Option.map_eq_some_iff] at found
    rcases found with ⟨-, kind, -, rfl⟩
    rfl
  · simp only [headingStep?, Option.ite_none_left_eq_some,
      Option.map_eq_some_iff] at found
    rcases found with ⟨-, text, -, rfl⟩
    rfl
  · rcases Option.map_eq_some_iff.1 found with ⟨between, -, rfl⟩
    rfl

theorem isPlaced_step {quoteContent itemContent : Nested}
    (quoteFaithful : IsFaithful source quoteContent)
    (itemFaithful : IsFaithful source itemContent)
    (view : View source number (line :: rest)) :
    (step quoteContent itemContent frame line rest).IsPlaced source number := by
  unfold step
  cases found : [codeStep?, fenceStep?, quoteStep? quoteContent, ruleStep?,
      listStep? itemContent, definitionStep?, htmlStep?, headingStep?,
      underlinedStep?].findSome? fun rule => rule frame line rest with
  | none => exact Step.isPlaced_of_fences rfl
  | some made =>
      rcases List.exists_of_findSome?_eq_some found with ⟨rule, member, applied⟩
      by_cases plain :
        rule ∈ [codeStep?, ruleStep?, definitionStep?, htmlStep?, headingStep?,
          underlinedStep?]
      · exact Step.isPlaced_of_fences (fences_of_plainRule plain applied)
      · have container : rule = fenceStep? ∨ rule = quoteStep? quoteContent ∨
            rule = listStep? itemContent := by
          simp only [List.mem_cons, List.not_mem_nil, or_false] at member plain
          tauto
        rcases container with rfl | rfl | rfl
        · exact isPlaced_fenceStep view applied
        · exact isPlaced_quoteStep quoteFaithful view applied
        · exact isPlaced_listStep itemFaithful view applied

theorem isFaithful_sequence {step : Frame → Line → List Line → Step}
    (placed : ∀ ⦃frame number line rest⦄, View source number (line :: rest) →
      (step frame line rest).IsPlaced source number) :
      IsFaithful source (sequence step) := by
  intro frame number lines view
  fun_induction sequence step frame lines generalizing number with
  | case1 | case2 => exact .nil
  | case3 lines blank line rest left inside made others =>
      rename_i induction
      have dropped : lines.drop blank = line :: rest := by
        have whole : lines = lines.takeWhile Line.isBlank ++ line :: rest := by
          rw [← left, List.takeWhile_append_dropWhile]
        exact (congrArg (List.drop blank) whole).trans List.drop_left
      have later := view.drop blank
      rw [dropped] at later
      have first : (step frame line rest).IsPlaced source (number + blank) :=
        placed later
      have below := induction ((later.2.drop made.further).view)
      change Placed source (number + blank) (number + blank + 1 + made.further)
        made.block.fences at first
      change Placed source (number + blank + 1 + made.further)
        (number + blank + 1 + made.further + others.used)
        (fencesOf others.blocks) at below
      change Placed source number
        (number + (blank + 1 + made.further + others.used))
        (made.block.fences ++ fencesOf others.blocks)
      have whole : number + (blank + 1 + made.further + others.used) =
          number + blank + 1 + made.further + others.used := by
        ac_rfl
      rw [whole]
      exact (first.mono (Nat.le_add_right ..) (Nat.le_refl _)).append below
        (by omega) (Nat.le_add_right ..)

theorem isFaithful_skipAll : IsFaithful source skipAll := by
  intro frame number lines view
  unfold skipAll
  split
  · exact .nil
  · split <;> exact .nil

end

/-- At every depth. A list and its item take two levels, so that the content of
an item is known from two levels further in. -/
theorem isFaithful_blocksOf (source : List (List Char)) :
    ∀ depth, IsFaithful source (blocksOf depth)
  | 0 => isFaithful_skipAll
  | 1 => isFaithful_sequence fun _ _ _ _ view =>
      isPlaced_step (isFaithful_blocksOf source 0) isFaithful_skipAll view
  | inner + 2 => isFaithful_sequence fun _ _ _ _ view =>
      isPlaced_step (isFaithful_blocksOf source (inner + 1))
      (isFaithful_blocksOf source inner) view

theorem placed_documentFences (text : String) :
    ∃ stop, Placed (sourceLines text) 1 stop (documentFences text) :=
  ⟨_, isFaithful_blocksOf _ _ (follows_documentLines text).view⟩

end FencedJson.Markdown
