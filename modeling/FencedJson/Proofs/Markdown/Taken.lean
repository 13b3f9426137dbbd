import FencedJson.Proofs.Markdown.Extent

/-! # Lines that blocks take

A rule takes lines of the container around it and no others, so no container
takes a line of what follows it. The blocks of a document take all of its lines.
-/

namespace FencedJson.Markdown

namespace Definition

/-- All lines that a definition was given, whether it fetched them or not. -/
def Input.total (input : Input) : Nat := input.fetched + input.lines.length

private theorem total_label? {held rest : List Char} {lines : List (List Char)}
    {fetched : Nat} {label : List Char} {input : Input}
    (found : label? held rest lines fetched = some (label, input)) :
    input.total = fetched + lines.length := by
  fun_induction label? held rest lines fetched with
  | case1 | case2 => cases found
  | case3 => cases found; rfl
  | case4 _ _ _ induction | case6 _ _ _ induction
  | case8 _ _ _ _ _ _ induction => exact induction found
  | case5 _ _ _ _ _ induction | case7 _ _ _ _ _ induction =>
      rw [induction found, List.length_cons]
      omega
  | case9 =>
      rename_i induction
      exact induction found

private theorem total_skipBlanks (rest : List Char) (lines : List (List Char))
    (fetched : Nat) :
    (skipBlanks rest lines fetched).total = fetched + lines.length := by
  fun_induction skipBlanks rest lines fetched with
  | case1 | case5 => rfl
  | case2 _ _ induction | case4 _ _ _ _ _ _ induction => exact induction
  | case3 _ _ _ _ induction =>
      rw [induction, List.length_cons]
      omega

private theorem total_title? {close : Char} {held after : Bool}
    {rest : List Char} {lines : List (List Char)} {fetched : Nat}
    {input : Input}
    (found : title? close held rest lines fetched = some (after, input)) :
    input.total = fetched + lines.length := by
  fun_induction title? close held rest lines fetched with
  | case1 => cases found; rfl
  | case2 | case3 => cases found
  | case4 _ _ _ _ _ _ _ induction =>
      rw [induction found, List.length_cons]
      omega

private theorem total_afterTitle? {input after : Input}
    (found : afterTitle? input = some after) : after.total = input.total := by
  unfold afterTitle? at found
  extract_lets ends gap titled at found
  have kept {input after : Input} (ended : ends input = some after) :
      after.total = input.total := by
    unfold ends at ended
    dsimp only at ended
    split at ended
    · cases ended; rfl
    · cases ended; rfl
    · cases ended
  have skipped : gap.total = input.total := total_skipBlanks ..
  cases told : titled with
  | none =>
      rw [told] at found
      exact kept found
  | some title =>
      rcases title with ⟨held, behind⟩
      have closed : behind.total = input.total := by
        rw [← skipped]
        unfold titled at told
        split at told
        · split at told
          · rcases Option.bind_eq_some_iff.1 told with ⟨close, -, closed⟩
            exact total_title? closed
          · cases told
        · cases told
      rw [told] at found
      dsimp only at found
      split at found
      · next ended =>
          cases found
          exact (kept ended).trans closed
      · split at found
        · exact kept found
        · cases found

theorem further_le_of_parse? {first label : List Char}
    {lines : List (List Char)} {further : Nat}
    (found : parse? first lines = some (label, further)) :
    further ≤ lines.length := by
  unfold parse? at found
  split at found
  · split at found
    · next rest held behind lines' fetched labelled =>
        have remaining := total_label? labelled
        have skipped := total_skipBlanks behind lines' fetched
        dsimp only at found
        split at found
        · cases found
        · split at found
          · split at found
            · cases found
            · next ended =>
                have behind := total_afterTitle? ended
                split at found
                · cases found
                · cases found
                  unfold Input.total at remaining skipped behind
                  dsimp only at remaining skipped behind
                  omega
          · cases found
    · cases found
  · cases found

end Definition

/-! ## Rules -/

def IsConfined (rule : Frame → Line → List Line → Option Step) : Prop :=
  ∀ ⦃frame line rest made⦄, rule frame line rest = some made →
    made.further ≤ rest.length

/-- A parser of a container takes no line that the container does not have. -/
def Nested.IsConfined (nested : Nested) : Prop :=
  ∀ frame lines, (nested frame lines).used ≤ lines.length

private theorem codeExtent_le (frame : Frame) (lines : List Line) :
    codeExtent frame lines ≤ lines.length := by
  fun_induction codeExtent frame lines with
  | case1 | case2 | case5 => exact Nat.zero_le _
  | case3 line rest blank further found induction =>
      rw [found] at induction
      exact Nat.succ_le_succ induction
  | case4 line rest filled code induction => exact Nat.succ_le_succ induction

private theorem htmlExtent_le (frame : Frame) (kind : Html.BlockKind)
    (lines : List Line) : htmlExtent frame kind lines ≤ lines.length := by
  fun_induction htmlExtent frame kind lines with
  | case1 | case2 | case3 => exact Nat.zero_le _
  | case4 => simp
  | case5 _ _ _ _ induction => exact Nat.succ_le_succ induction

private theorem lt_of_underlineExtent? {lines : List Line} {between : Nat}
    (found : underlineExtent? frame lines = some between) :
    between < lines.length := by
  induction lines generalizing between with
  | nil => cases found
  | cons line rest induction =>
      have deeper {inside : Nat}
          (inner : (underlineExtent? frame rest).map (· + 1) = some inside) :
          inside < (line :: rest).length := by
        rcases Option.map_eq_some_iff.1 inner with ⟨before, underlined, rfl⟩
        exact Nat.succ_lt_succ (induction underlined)
      unfold underlineExtent? at found
      split at found
      · cases found
      · split at found
        · exact deeper found
        · split at found
          · cases found
            exact Nat.zero_lt_succ _
          · split at found
            · exact deeper found
            · cases found

private theorem length_quoteLines_le (frame : Frame) (afterBlank : Bool)
    (lines : List Line) :
    (quoteLines frame afterBlank lines).length ≤ lines.length := by
  fun_induction quoteLines frame afterBlank lines with
  | case1 | case2 | case4 => exact Nat.zero_le _
  | case3 _ _ _ _ _ _ induction | case5 _ _ _ _ _ _ induction =>
      exact Nat.succ_le_succ induction

theorem isConfined_codeStep : IsConfined codeStep? := by
  intro frame line rest made found
  unfold codeStep? at found
  split at found
  · cases found
    exact codeExtent_le frame rest
  · cases found

theorem isConfined_fenceStep : IsConfined fenceStep? := by
  intro frame line rest made found
  unfold fenceStep? at found
  split at found
  · cases found
  · rcases Option.map_eq_some_iff.1 found with ⟨opening, -, rfl⟩
    rcases fenceExtent_spec frame opening rest with ⟨within, closing⟩
    dsimp only
    split
    · next closed =>
        rcases closing closed with ⟨last, found, -⟩
        exact (List.getElem?_eq_some_iff.1 found).1
    · exact within

theorem isConfined_quoteStep {nested : Nested} (inner : nested.IsConfined) :
    IsConfined (quoteStep? nested) := by
  intro frame line rest made found
  unfold quoteStep? at found
  split at found
  · cases found
    have taken := inner { frame with indent := 0 }
      (unquote line :: quoteLines frame (unquote line).isBlank rest)
    have marked := length_quoteLines_le frame (unquote line).isBlank rest
    rw [List.length_cons] at taken
    simp only
    omega
  · cases found

theorem isConfined_ruleStep : IsConfined ruleStep? := by
  intro frame line rest made found
  unfold ruleStep? at found
  split at found
  · cases found
    exact Nat.zero_le _
  · cases found

theorem isConfined_definitionStep : IsConfined definitionStep? := by
  intro frame line rest made found
  unfold definitionStep? at found
  split at found
  · cases found
  · rcases Option.map_eq_some_iff.1 found with ⟨⟨label, further⟩, parsed, rfl⟩
    have fetched := Definition.further_le_of_parse? parsed
    rw [List.length_map] at fetched
    exact fetched.trans (List.takeWhile_sublist _).length_le

theorem isConfined_htmlStep : IsConfined htmlStep? := by
  intro frame line rest made found
  unfold htmlStep? at found
  split at found
  · cases found
  · rcases Option.map_eq_some_iff.1 found with ⟨kind, -, rfl⟩
    dsimp only
    split
    · exact Nat.zero_le _
    · exact htmlExtent_le frame kind rest

theorem isConfined_headingStep : IsConfined headingStep? := by
  intro frame line rest made found
  unfold headingStep? at found
  split at found
  · cases found
  · rcases Option.map_eq_some_iff.1 found with ⟨text, -, rfl⟩
    exact Nat.zero_le _

theorem isConfined_underlinedStep : IsConfined underlinedStep? := by
  intro frame line rest made found
  rcases Option.map_eq_some_iff.1 found with ⟨between, underlined, rfl⟩
  exact lt_of_underlineExtent? underlined

/-! ## Lists -/

/-- Also where the item is empty: the blank line that ends it is taken if the
container has it. -/
theorem used_itemContent_le {nested : Nested} (inner : nested.IsConfined)
    (frame : Frame) (marker : Marker) (line : Line) (rest : List Line) :
    (itemContent nested frame marker line rest).used ≤ rest.length + 1 := by
  rcases itemContent_cases nested frame marker line rest with empty | parsed
  · rw [empty]
    exact Nat.min_le_right ..
  · rw [parsed]
    exact inner ..

private theorem further_listItems_le {nested : Nested}
    (inner : nested.IsConfined) (frame : Frame) (marker : Marker) (line : Line)
    (rest : List Line) :
    (listItems nested frame marker line rest).2 ≤ rest.length := by
  fun_induction listItems nested frame marker line rest with
  | case1 marker line rest | case2 marker line rest | case3 marker line rest
  | case5 marker line rest =>
      exact Nat.sub_le_of_le_add (used_itemContent_le inner ..)
  | case4 marker line rest content' further item next following left inside
      nextMarker found same shorter items more others =>
      rename_i induction
      have length := congrArg List.length left
      rw [List.length_drop, List.length_cons] at length
      rw [others] at induction
      have here : further ≤ rest.length :=
        Nat.sub_le_of_le_add (used_itemContent_le inner frame marker line rest)
      dsimp only at induction ⊢
      omega

theorem isConfined_listStep {nested : Nested} (inner : nested.IsConfined) :
    IsConfined (listStep? nested) := by
  intro frame line rest made found
  rcases Option.map_eq_some_iff.1 found with ⟨marker, -, rfl⟩
  exact further_listItems_le inner frame marker line rest

/-! ## Containers -/

theorem further_step_le {quoteContent itemContent : Nested}
    (quotes : quoteContent.IsConfined) (items : itemContent.IsConfined)
    (frame : Frame) (line : Line) (rest : List Line) :
    (step quoteContent itemContent frame line rest).further ≤ rest.length := by
  have confined : ∀ rule ∈ [codeStep?, fenceStep?, quoteStep? quoteContent,
      ruleStep?, listStep? itemContent, definitionStep?, htmlStep?,
      headingStep?, underlinedStep?], IsConfined rule := by
    simp only [List.forall_mem_cons, List.not_mem_nil]
    exact ⟨isConfined_codeStep, isConfined_fenceStep,
      isConfined_quoteStep quotes, isConfined_ruleStep,
      isConfined_listStep items, isConfined_definitionStep,
      isConfined_htmlStep, isConfined_headingStep,
      isConfined_underlinedStep, by simp⟩
  unfold step
  cases found : [codeStep?, fenceStep?, quoteStep? quoteContent, ruleStep?,
      listStep? itemContent, definitionStep?, htmlStep?, headingStep?,
      underlinedStep?].findSome? fun rule => rule frame line rest with
  | none => exact (List.takeWhile_sublist _).length_le
  | some made =>
      rcases List.exists_of_findSome?_eq_some found with ⟨rule, member, applied⟩
      exact confined rule member applied

private theorem length_of_dropWhile {lines : List Line} {left : List Line}
    (found : lines.dropWhile Line.isBlank = left) :
    (lines.takeWhile Line.isBlank).length + left.length = lines.length := by
  rw [← found, ← List.length_append, List.takeWhile_append_dropWhile]

theorem isConfined_sequence {step : Frame → Line → List Line → Step}
    (confined : ∀ frame line rest,
      (step frame line rest).further ≤ rest.length) :
    Nested.IsConfined (sequence step) := by
  intro frame lines
  fun_induction sequence step frame lines with
  | case1 | case2 => exact (List.takeWhile_sublist _).length_le
  | case3 lines blank line rest left inside made others induction =>
      have whole : blank + (rest.length + 1) = lines.length :=
        length_of_dropWhile left
      have first : made.further ≤ rest.length := confined frame line rest
      have below : others.used ≤ rest.length - made.further :=
        induction.trans_eq List.length_drop
      change blank + 1 + made.further + others.used ≤ lines.length
      omega

theorem isConfined_skipAll : Nested.IsConfined skipAll := by
  intro frame lines
  unfold skipAll
  split
  · exact Nat.le_refl _
  · split
    · exact (List.takeWhile_sublist _).length_le
    · exact Nat.le_refl _

theorem isConfined_blocksOf : ∀ depth, (blocksOf depth).IsConfined
  | 0 => isConfined_skipAll
  | 1 => isConfined_sequence
      (further_step_le (isConfined_blocksOf 0) isConfined_skipAll)
  | inner + 2 => isConfined_sequence
      (further_step_le (isConfined_blocksOf (inner + 1))
        (isConfined_blocksOf inner))

private theorem used_sequence_of_inside
    {step : Frame → Line → List Line → Step} {frame : Frame}
    (confined : ∀ frame line rest,
      (step frame line rest).further ≤ rest.length) {lines : List Line}
    (inside : ∀ line ∈ lines, frame.isOutside line = false) :
    (sequence step frame lines).used = lines.length := by
  fun_induction sequence step frame lines with
  | case1 lines blank left =>
      exact length_of_dropWhile left
  | case2 lines blank line rest left outside =>
      have member : line ∈ lines.dropWhile Line.isBlank :=
        left ▸ List.mem_cons_self
      rw [inside line ((List.dropWhile_sublist _).mem member)] at outside
      cases outside
  | case3 lines blank line rest left _ made others induction =>
      have whole : blank + (rest.length + 1) = lines.length :=
        length_of_dropWhile left
      have first : made.further ≤ rest.length := confined frame line rest
      have below : others.used = (rest.drop made.further).length := by
        refine induction fun line member => inside line ?_
        have kept : line ∈ lines.dropWhile Line.isBlank :=
          left ▸ List.mem_cons_of_mem _ (List.mem_of_mem_drop member)
        exact (List.dropWhile_sublist _).mem kept
      rw [List.length_drop] at below
      change blank + 1 + made.further + others.used = lines.length
      omega

/-- The blocks of a document take all of its lines, and each of them once. -/
theorem used_documentLines (text : List Char) :
    (blocksOf nestingLimit Frame.top (documentLines text)).used =
      (documentLines text).length := by
  refine used_sequence_of_inside (further_step_le (isConfined_blocksOf _)
    (isConfined_blocksOf _)) fun line member => ?_
  rcases List.mem_map.1 member with ⟨⟨raw, index⟩, -, rfl⟩
  exact decide_eq_false (Int.not_lt.2 (Int.natCast_nonneg _))

end FencedJson.Markdown
