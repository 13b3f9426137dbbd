import FencedJson.Proofs.Json.Numerals

/-! # Brackets read

A reader of one construct that agrees with a description of its texts makes a
reader of lists in brackets that agrees with the description of such lists.
-/

namespace FencedJson.Json

variable {α : Type}

def Series (spells : α → List Char → Prop) : List α → List Char → Prop
  | [], body => IsGap body
  | [item], body => IsPadded (spells item) body
  | item :: next :: rest, body => ∃ front back, IsPadded (spells item) front ∧
      Series spells (next :: rest) back ∧ body = front ++ ',' :: back

theorem isGap_nil : IsGap [] := fun _ member => nomatch member

theorem IsGap.append {front back : List Char} (first : IsGap front)
    (second : IsGap back) :
    IsGap (front ++ back) := by
  intro c member
  rcases List.mem_append.1 member with member | member
  · exact first c member
  · exact second c member

theorem IsPadded.widen {spells : List Char → Prop} {gap text : List Char}
    (blank : IsGap gap) (padded : IsPadded spells text) :
    IsPadded spells (gap ++ text) := by
  rcases padded with ⟨before, inner, after, first, spelling, last, rfl⟩
  exact ⟨gap ++ before, inner, after, blank.append first, spelling, last, by
    rw [List.append_assoc]⟩

theorem Series.widen {spells : α → List Char → Prop} {gap body : List Char}
    {items : List α} (blank : IsGap gap) (series : Series spells items body) :
    Series spells items (gap ++ body) := by
  cases items with
  | nil => exact blank.append series
  | cons item rest =>
      cases rest with
      | nil => exact IsPadded.widen blank series
      | cons next rest =>
          rcases series with ⟨front, back, first, others, rfl⟩
          exact ⟨gap ++ front, back, first.widen blank,
            others, by rw [List.append_assoc]⟩

theorem series_exists_iff {β : Type} {spells : β → List Char → Prop}
    {good : β → Prop} {shown : β → α} {items : List α} {body : List Char} :
    Series (fun item text => ∃ origin, good origin ∧ shown origin = item ∧
      spells origin text) items body ↔
      ∃ origins, (∀ origin ∈ origins, good origin) ∧ origins.map shown = items ∧
        Series spells origins body := by
  induction items generalizing body with
  | nil => simp [Series]
  | cons item rest induction =>
      cases rest with
      | nil =>
          constructor
          · rintro ⟨before, inner, after, first,
              ⟨origin, fits, rfl, spelling⟩, last, rfl⟩
            exact ⟨[origin], by simpa using fits, rfl,
              before, inner, after, first, spelling, last, rfl⟩
          · rintro ⟨origins, fits, same, series⟩
            rcases List.map_eq_singleton_iff.1 same with ⟨origin, rfl, rfl⟩
            rcases series with
              ⟨before, inner, after, first, spelling, last, rfl⟩
            exact ⟨before, inner, after, first,
              ⟨origin, fits origin (List.mem_singleton_self _), rfl, spelling⟩,
              last, rfl⟩
      | cons next rest =>
          constructor
          · rintro ⟨_, back,
              ⟨before, inner, after, first, ⟨origin, fits, rfl, spelling⟩, last,
                rfl⟩, others, rfl⟩
            rcases induction.1 others with ⟨origins, allFit, same, series⟩
            rcases List.map_eq_cons_iff.1 same with ⟨second, more, rfl, -, -⟩
            refine ⟨origin :: second :: more,
              List.forall_mem_cons.2 ⟨fits, allFit⟩, ?_,
              _, back, ⟨before, inner, after, first, spelling, last, rfl⟩,
                series, rfl⟩
            rw [List.map_cons, same]
          · rintro ⟨origins, allFit, same, series⟩
            rcases List.map_eq_cons_iff.1 same with
              ⟨origin, others, rfl, rfl, rest⟩
            rcases List.map_eq_cons_iff.1 rest with ⟨second, more, rfl, -, -⟩
            rcases List.forall_mem_cons.1 allFit with ⟨fits, allFit⟩
            rcases series with
              ⟨_, back, ⟨before, inner, after, first, spelling, last, rfl⟩,
                series, rfl⟩
            exact ⟨_, back,
              ⟨before, inner, after, first, ⟨origin, fits, rfl, spelling⟩, last,
                rfl⟩, induction.2 ⟨second :: more, allFit, rest, series⟩, rfl⟩

namespace Strict

def IsSound (reader : Reader α) (spells : α → List Char → Prop) : Prop :=
  ∀ ⦃text value rest⦄, Reads reader text value rest →
    ∃ front, spells value front ∧ text = front ++ rest

def IsComplete (reader : Reader α) (spells : α → List Char → Prop) : Prop :=
  ∀ ⦃front value rest⦄, spells value front → IsBoundary rest →
    Reads reader (front ++ rest) value rest

/-- Texts as described do not begin with what may follow a value. -/
def IsFirm (spells : α → List Char → Prop) : Prop :=
  ∀ ⦃value front⦄, spells value front → ∃ c left, front = c :: left ∧ ¬ IsStop c

theorem exists_gap (text : List Char) : ∃ gap, IsGap gap ∧
    text = gap ++ skipBlank text :=
  ⟨text.takeWhile isBlank, fun _ member => List.mem_takeWhile_imp member,
    List.takeWhile_append_dropWhile.symm⟩

theorem skipBlank_append {gap text : List Char} (blank : IsGap gap) :
    skipBlank (gap ++ text) = skipBlank text :=
  List.dropWhile_append_of_pos blank

theorem skipBlank_cons {c : Char} {text : List Char}
    (other : isBlank c = false) :
    skipBlank (c :: text) = c :: text := by
  simp [skipBlank, other]

/-! ## Items -/

section

variable {close : Char} {item : Reader α} {spells : α → List Char → Prop}
  {text rest : List Char} {values : List α}

theorem exists_isPadded_of_item (sound : IsSound item spells)
    {first : Reading α text} (taken : item text = .ok first) :
    ∃ front, IsPadded (spells first.value) front ∧
    text = front ++ skipBlank first.rest := by
  rcases sound ⟨first.shorter, taken⟩ with ⟨front, spelling, split⟩
  rcases exists_gap first.rest with ⟨gap, blank, after⟩
  rw [after] at split
  exact ⟨front ++ gap, ⟨[], front, gap, isGap_nil, spelling, blank, rfl⟩, by
    rw [List.append_assoc, ← split]⟩

theorem itemsUntil_sound (sound : IsSound item spells)
    (read : Reads (itemsUntil close item) text values rest) :
    ∃ body, values ≠ [] ∧ Series spells values body ∧
    text = body ++ close :: rest := by
  rcases read with ⟨shorter, read⟩
  fun_induction itemsUntil close item text generalizing values rest with
  | case1 | case2 | case5 => cases read
  | case3 text first taken left found longer =>
      cases read
      rcases exists_isPadded_of_item sound taken with ⟨front, padded, split⟩
      rw [found] at split
      exact ⟨front, List.cons_ne_nil _ _, padded, split⟩
  | case4 text first taken left bound found longer notClose induction =>
      rcases map_widen_eq_ok_iff.1 read with ⟨others, otherShorter, inner, rfl⟩
      rcases exists_isPadded_of_item sound taken with ⟨front, padded, split⟩
      rcases induction otherShorter inner with ⟨body, some, series, following⟩
      rcases exists_gap left with ⟨gap, blank, later⟩
      rw [following] at later
      rw [found, later] at split
      rcases List.exists_cons_of_ne_nil some with ⟨next, more, rfl⟩
      refine ⟨front ++ ',' :: (gap ++ body), List.cons_ne_nil _ _,
        ⟨front, gap ++ body, padded, series.widen blank, rfl⟩, ?_⟩
      rw [split, List.append_assoc, List.cons_append, List.append_assoc]

theorem reads_itemsUntil_last {value : α} {middle : List Char}
    (read : Reads item text value middle)
    (found : skipBlank middle = close :: rest) :
    Reads (itemsUntil close item) text [value] rest := by
  rcases read with ⟨shorter, read⟩
  refine ⟨(length_lt_of_skipBlank found).trans shorter, ?_⟩
  unfold itemsUntil
  rw [read]
  dsimp only
  split
  · next none => rw [found] at none; cases none
  · next same => rw [found] at same; cases same; rw [if_pos rfl]

theorem reads_itemsUntil_next {value : α} {middle left : List Char}
    (differs : close ≠ ',') (read : Reads item text value middle)
    (found : skipBlank middle = ',' :: left)
    (others : Reads (itemsUntil close item) (skipBlank left) values rest) :
    Reads (itemsUntil close item) text (value :: values) rest := by
  rcases read with ⟨shorter, read⟩
  rcases others with ⟨otherShorter, others⟩
  have longer := (length_lt_of_skipBlank found).trans shorter
  have bound := length_skipBlank_le left
  refine ⟨by omega, ?_⟩
  unfold itemsUntil
  rw [read]
  dsimp only
  split
  · next none => rw [found] at none; cases none
  · next same =>
      rw [found] at same
      cases same
      rw [if_neg differs.symm, if_pos rfl]
      exact map_widen_eq_ok_iff.2 ⟨values, otherShorter, others, rfl⟩

theorem IsBoundary.gap_append {gap : List Char} (blank : IsGap gap)
    (boundary : IsBoundary rest) :
    IsBoundary (gap ++ rest) := by
  cases gap with
  | nil => exact boundary
  | cons c more =>
      intro head same
      cases same
      exact .inl (blank c (List.mem_cons_self ..))

theorem skipBlank_of_isPadded (firm : IsFirm spells) {value : α}
    {front : List Char} (padded : IsPadded (spells value) front)
    (text : List Char) :
    ∃ c inner after, spells value (c :: inner) ∧ ¬ IsStop c ∧ IsGap after ∧
      skipBlank (front ++ text) = c :: (inner ++ (after ++ text)) := by
  rcases padded with ⟨before, inner, after, first, spelling, last, rfl⟩
  rcases firm spelling with ⟨c, left, rfl, solid⟩
  refine ⟨c, left, after, spelling, solid, last, ?_⟩
  rw [List.append_assoc, List.append_assoc, skipBlank_append first,
    List.cons_append, skipBlank_cons (isBlank_eq_false_of_not_isStop solid)]

theorem skipBlank_of_series (firm : IsFirm spells) {body : List Char}
    (some : values ≠ []) (series : Series spells values body)
    (text : List Char) :
    ∃ c left, skipBlank (body ++ text) = c :: left ∧ ¬ IsStop c := by
  match values, series with
  | [_], padded =>
      rcases skipBlank_of_isPadded firm padded text with
        ⟨c, inner, after, -, solid, -, found⟩
      exact ⟨c, _, found, solid⟩
  | _ :: _ :: _, ⟨front, back, padded, _, same⟩ =>
      rcases skipBlank_of_isPadded firm padded (',' :: back ++ text) with
        ⟨c, inner, after, -, solid, -, found⟩
      exact ⟨c, _, by rw [same, List.append_assoc, found], solid⟩

theorem itemsUntil_complete (complete : IsComplete item spells)
    (firm : IsFirm spells) (closes : close = ']' ∨ close = '\x7d')
    {body : List Char} (some : values ≠ [])
    (series : Series spells values body) :
    Reads (itemsUntil close item) (skipBlank (body ++ close :: rest))
    values rest := by
  have solid : isBlank close = false := by rcases closes with rfl | rfl <;> rfl
  have differs : close ≠ ',' := by rcases closes with rfl | rfl <;> decide
  -- The last item ends at the bracket, every other one at a comma; both are
  -- stops.
  induction values generalizing body with
  | nil => exact absurd rfl some
  | cons value others induction =>
      cases others with
      | nil =>
          rcases skipBlank_of_isPadded firm series (close :: rest) with
            ⟨c, inner, after, spelling, -, blank, found⟩
          rw [found]
          refine reads_itemsUntil_last (complete spelling
            ((isBoundary_cons (.inr (.inr closes)) rest).gap_append blank)) ?_
          rw [skipBlank_append blank, skipBlank_cons solid]
      | cons next more =>
          rcases series with ⟨front, back, padded, later, rfl⟩
          rcases skipBlank_of_isPadded firm padded
            (',' :: (back ++ close :: rest)) with
            ⟨c, inner, after, spelling, -, blank, found⟩
          have comma := isBoundary_cons (.inr (.inl rfl))
              (back ++ close :: rest)
          rw [List.append_assoc, List.cons_append, found]
          refine reads_itemsUntil_next differs
            (complete spelling (comma.gap_append blank)) ?_
              (induction (List.cons_ne_nil _ _) later)
          rw [skipBlank_append blank, skipBlank_cons rfl]

/-! ## Lists in brackets -/

theorem bracketed_sound (sound : IsSound item spells)
    (read : Reads (bracketed close item) text values rest) :
    ∃ body, Series spells values body ∧ text = body ++ close :: rest := by
  rcases read with ⟨shorter, read⟩
  rcases exists_gap text with ⟨gap, blank, split⟩
  unfold bracketed at read
  split at read
  · rcases map_eq_ok_iff.1 read with ⟨reading, -, -⟩
    exact absurd reading.shorter (Nat.not_lt_zero _)
  · next head left found =>
      rw [found] at split
      split at read
      · next same =>
          cases read
          exact ⟨gap, blank, by rw [split, same]⟩
      · rcases map_eq_ok_iff.1 read with
          ⟨⟨items, remaining, innerShorter⟩, taken, same⟩
        cases same
        rcases itemsUntil_sound sound ⟨innerShorter, taken⟩ with
          ⟨body, -, series, inner⟩
        rw [inner, ← List.append_assoc] at split
        exact ⟨gap ++ body, series.widen blank, split⟩

theorem bracketed_of_cons {head : Char} {left : List Char}
    (found : skipBlank text = head :: left) (other : head ≠ close) :
    bracketed close item text = (itemsUntil close item (head :: left)).map
      (·.widen (found ▸ length_skipBlank_le text)) := by
  unfold bracketed
  split
  · next empty => rw [found] at empty; cases empty
  · next same =>
      rw [found] at same
      cases same
      rw [if_neg other]

theorem bracketed_complete (complete : IsComplete item spells)
    (firm : IsFirm spells) (closes : close = ']' ∨ close = '\x7d')
    {body : List Char} (series : Series spells values body) :
    Reads (bracketed close item) (body ++ close :: rest) values rest := by
  have solid : isBlank close = false := by rcases closes with rfl | rfl <;> rfl
  refine ⟨by rw [List.length_append, List.length_cons]; omega, ?_⟩
  by_cases none : values = []
  · subst none
    have found : skipBlank (body ++ close :: rest) = close :: rest := by
      rw [skipBlank_append series, skipBlank_cons solid]
    unfold bracketed
    split
    · next empty => rw [found] at empty; cases empty
    · next same =>
        rw [found] at same
        cases same
        rw [if_pos rfl]
  · rcases skipBlank_of_series firm none series (close :: rest) with
      ⟨c, left, found, starts⟩
    have read : Reads (itemsUntil close item)
        (skipBlank (body ++ close :: rest)) values rest :=
      itemsUntil_complete complete firm closes none series
    rw [found] at read
    rcases read with ⟨shorter, read⟩
    have other : c ≠ close := by
      rintro rfl
      exact starts (.inr (.inr closes))
    rw [bracketed_of_cons found other, map_eq_ok_iff]
    exact ⟨_, read, rfl⟩

end

/-! ## Members -/

section

variable {value : Reader Value} {spells : Value → List Char → Prop}

def MemberSpells (spells : Value → List Char → Prop) (pair : CodeText × Value)
    (text : List Char) : Prop :=
  ∃ name, decoded name = pair.1 ∧ IsMember name (spells pair.2) text

theorem isFirm_member : IsFirm (MemberSpells spells) := by
  rintro pair front ⟨name, -, before, inner, after, -, -, -, rfl⟩
  exact ⟨'"', _, rfl, by decide⟩

theorem isSound_member (sound : IsSound value spells) :
    IsSound (member value) (MemberSpells spells) := by
  rintro text ⟨key, content⟩ rest ⟨shorter, read⟩
  unfold member at read
  split at read
  · next text =>
      split at read
      · cases read
      · next name nameRead =>
          rcases spelled_of_stringBody nameRead with ⟨parts, split, decodes⟩
          split at read
          · next left found =>
              rcases map_widen_eq_ok_iff.1 read with
                ⟨inside, innerShorter, taken, same⟩
              cases same
              rcases sound ⟨innerShorter, taken⟩ with ⟨front, spelling, later⟩
              rcases exists_gap name.rest with ⟨before, blank, first⟩
              rcases exists_gap left with ⟨after, blank', second⟩
              refine ⟨_, ⟨parts, decodes.symm, before, front, after, blank,
                blank', spelling, rfl⟩, ?_⟩
              rw [found, second, later] at first
              rw [split, first, quoted]
              simp only [List.cons_append, List.append_assoc, List.nil_append]
          · cases read
  · cases read

private theorem reads_member {text middle left rest : List Char}
    {key : CodeText} {content : Value}
    (nameRead : Reads (stringBody ('"' :: text)) text key middle)
    (found : skipBlank middle = ':' :: left)
    (read : Reads value (skipBlank left) content rest) :
    Reads (member value) ('"' :: text) (key, content) rest := by
  rcases nameRead with ⟨nameShorter, nameRead⟩
  rcases read with ⟨shorter, read⟩
  have longer := length_lt_of_skipBlank found
  have bound := length_skipBlank_le left
  refine ⟨by rw [List.length_cons]; omega, ?_⟩
  rw [member, nameRead]
  dsimp only
  split
  · next same =>
      rw [found] at same
      cases same
      exact map_widen_eq_ok_iff.2 ⟨content, shorter, read, rfl⟩
  · next other => exact absurd found (other left)

theorem isComplete_member (complete : IsComplete value spells)
    (firm : IsFirm spells) :
    IsComplete (member value) (MemberSpells spells) := by
  rintro front ⟨key, content⟩ rest
    ⟨name, rfl, before, inner, after, blank, blank', spelling, rfl⟩ boundary
  rcases firm spelling with ⟨c, left, rfl, starts⟩
  have whole : quoted name ++ (before ++ ':' :: (after ++ c :: left)) ++ rest =
      '"' ::
        (spelled name ++ '"' ::
          (before ++ ':' :: (after ++ c :: (left ++ rest)))) := by
    simp only [quoted, List.cons_append, List.append_assoc, List.nil_append]
  have colon : skipBlank (before ++ ':' :: (after ++ c :: (left ++ rest))) =
      ':' :: (after ++ c :: (left ++ rest)) := by
    rw [skipBlank_append blank, skipBlank_cons rfl]
  rw [whole]
  refine reads_member (reads_spelled _ _ name) colon ?_
  rw [skipBlank_append blank',
    skipBlank_cons (isBlank_eq_false_of_not_isStop starts)]
  exact complete spelling boundary

end

end Strict
end FencedJson.Json
