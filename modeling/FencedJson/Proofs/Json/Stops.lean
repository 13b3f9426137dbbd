import FencedJson.Proofs.Json.Openings

/-! # Where strict reading stops

A reader that fails has some brackets open, in front of something that it cannot
read. In front of the place that a fault tells there is nothing but the front of
a JSON text, and where a constant is met the constant stands. The other way
round a reader that fails in front of a text fails as well behind brackets that
stand open.
-/

namespace FencedJson.Json

/-! ## Fronts of values -/

theorem isViable_array {items : List Phrase} {body : List Char}
    (series : Series Phrase.Spells items body) : IsViable ('[' :: body) :=
  ⟨.array items, [']'], body, spellItems_iff.2 series, rfl⟩

theorem isViable_object {members : List (List StringPart × Phrase)}
    {body : List Char} (series : Series PairSpells members body) :
    IsViable ('\x7b' :: body) :=
  ⟨.object members, ['\x7d'], body, spellMembers_iff.2 series, rfl⟩

theorem isViable_object_append {members : List (List StringPart × Phrase)}
    {led front more : List Char} {member : List StringPart × Phrase}
    (leads : Led PairSpells members led)
    (spelling : PairSpells member (front ++ more)) :
    IsViable ('\x7b' :: (led ++ front)) := by
  refine ⟨.object (members ++ [member]), more ++ ['\x7d'], _,
    spellMembers_iff.2 (leads.close spelling isGap_nil), ?_⟩
  simp only [List.cons_append, List.append_assoc, List.append_nil]

/-- What may be read of a string before its closing mark: whole parts, and maybe
the backslash of one more. -/
def IsStringFront (front : List Char) : Prop :=
  ∃ parts slash, (slash = [] ∨ slash = ['\\']) ∧
  front = '"' :: (spelled parts ++ slash)

private theorem isStringFront_cons {part : StringPart} {front : List Char}
    (isFront : IsStringFront ('"' :: front)) :
    IsStringFront ('"' :: (part.text ++ front)) := by
  rcases isFront with ⟨parts, slash, maybe, same⟩
  rw [List.cons.injEq] at same
  exact ⟨part :: parts, slash,
    maybe, by rw [spelled_cons, same.2, List.append_assoc]⟩

theorem IsStringFront.exists_quoted {front : List Char}
    (isFront : IsStringFront front) :
    ∃ parts more, front ++ more = quoted parts := by
  rcases isFront with ⟨parts, slash, rfl | rfl, rfl⟩
  · exact ⟨parts,
      ['"'], by simp only [quoted, List.cons_append, List.append_nil]⟩
  · refine ⟨parts ++ [.escape .lineFeed], ['n', '"'], ?_⟩
    simp only [quoted, spelled, List.flatMap_append, List.flatMap_singleton,
      StringPart.text, Escape.letter, List.cons_append, List.append_assoc,
      List.nil_append]

namespace Strict

/-! ## Strings that do not end -/

/-- A fault in the rest of a string, or one that is told at its opening mark. -/
def Failure.IsInString (opening text : List Char) (failure : Failure) : Prop :=
  ∃ reason following, failure = .fault reason following ∧ (following = opening ∨
    ∃ front, IsStringFront ('"' :: front) ∧ text = front ++ following)

theorem Failure.IsInString.behind {opening text : List Char} {failure : Failure}
    (inside : failure.IsInString opening text) (part : StringPart) :
    failure.IsInString opening (part.text ++ text) := by
  rcases inside with ⟨reason, following, rfl, atOpening | ⟨front, isFront, rfl⟩⟩
  · exact ⟨reason, following, rfl, .inl atOpening⟩
  · exact ⟨reason, following, rfl,
      .inr ⟨part.text ++ front, isStringFront_cons isFront, by
      rw [List.append_assoc]⟩⟩

theorem Failure.IsInString.behind_code {opening text : List Char}
    {failure : Failure} {a b c d : Char} {point : CodePoint}
    (found : codeOf? a b c d = some point)
    (inside : failure.IsInString opening text) :
    failure.IsInString opening ('\\' :: 'u' :: a :: b :: c :: d :: text) := by
  rcases exists_code_of_codeOf? found with ⟨w, x, y, z, spelling, -⟩
  have behind := inside.behind (.code w x y z)
  rwa [spelling] at behind

theorem isInString_of_stringBody {opening text : List Char} {failure : Failure}
    (failed : stringBody opening text = .error failure) :
    failure.IsInString opening text := by
  have bare (reason : Fault) (following : List Char) :
      (Failure.fault reason following).IsInString opening following :=
    ⟨reason, following, rfl, .inr ⟨[], ⟨[], [], .inl rfl, rfl⟩, rfl⟩⟩
  have slashed (reason : Fault) (following : List Char) :
      (Failure.fault reason following).IsInString opening ('\\' :: following) :=
    ⟨reason, following, rfl, .inr ⟨['\\'], ⟨[], ['\\'], .inr rfl, rfl⟩, rfl⟩⟩
  fun_induction stringBody opening text with
  | case1 | case3 =>
      cases failed
      exact ⟨_, _, rfl, .inl rfl⟩
  | case2 => cases failed
  | case4 | case9 | case11 =>
      cases failed
      exact slashed _ _
  | case5 a b c d e f g h next left code firstFound high secondBroken =>
      cases failed
      exact (slashed _ _).behind_code firstFound
  | case6 a b c d e f g h next left code firstFound high second secondFound
      low induction =>
      exact ((induction (map_eq_error_iff.1 failed)).behind_code
        secondFound).behind_code firstFound
  | case7 a b c d e f g h next left code firstFound high second secondFound
      notLow induction =>
      exact (induction (map_eq_error_iff.1 failed)).behind_code firstFound
  | case8 a b c d e f g h next left code firstFound notHigh induction =>
      exact (induction (map_eq_error_iff.1 failed)).behind_code firstFound
  | case10 a b c d next left notPair code found induction =>
      exact (induction (map_eq_error_iff.1 failed)).behind_code found
  | case12 | case14 =>
      cases failed
      exact bare _ _
  | case13 letter left notPair notCode notU c found induction =>
      rcases simpleEscape?_eq_some_iff.1 found with ⟨kind, rfl, rfl⟩
      exact (induction (map_eq_error_iff.1 failed)).behind (.escape kind)
  | case15 c left notQuote notLast notPair notCode notU notEscape
      printable induction =>
      have unescaped :=
        isUnescaped_of_printable notQuote notLast notEscape printable
      exact (induction (map_eq_error_iff.1 failed)).behind (.plain c unescaped)

/-- Something that may not follow a value stands in front. -/
def IsSolid (text : List Char) : Prop := ∃ c left, text = c :: left ∧ ¬ IsStop c

theorem skipBlank_of_isSolid {text : List Char} (solid : IsSolid text) :
    skipBlank text = text := by
  rcases solid with ⟨c, left, rfl, notStop⟩
  exact skipBlank_cons (isBlank_eq_false_of_not_isStop notStop)

/-! ## Lists that do not end -/

section

variable {α : Type} {close : Char} {item : Reader α}
  {spells : α → List Char → Prop} {text : List Char} {failure : Failure}

def Failure.IsInList (item : Reader α) (spells : α → List Char → Prop)
    (text : List Char) (failure : Failure) : Prop :=
  (∃ values led inner, Led spells values led ∧ item inner = .error failure ∧
    text = led ++ inner) ∨
  ∃ values body following, values ≠ [] ∧ Series spells values body ∧
    failure = .fault .commaExpected following ∧ text = body ++ following

theorem Failure.IsInList.widen {gap : List Char} (blank : IsGap gap)
    (inside : failure.IsInList item spells text) :
    failure.IsInList item spells (gap ++ text) := by
  rcases inside with ⟨values, led, inner, leads, failed, rfl⟩ |
    ⟨values, body, following, some, series, rfl, rfl⟩
  · exact .inl ⟨values, gap ++ led, inner, leads.widen blank,
      failed, by rw [List.append_assoc]⟩
  · exact .inr ⟨values, gap ++ body, following, some,
      series.widen blank, rfl, by
      rw [List.append_assoc]⟩

theorem Failure.IsInList.behind {front : List Char} {value : α}
    (padded : IsPadded (spells value) front)
    (inside : failure.IsInList item spells text) :
    failure.IsInList item spells (front ++ ',' :: text) := by
  rcases inside with ⟨values, led, inner, leads, failed, rfl⟩ |
    ⟨values, body, following, some, series, rfl, rfl⟩
  · exact .inl ⟨value :: values, _, inner,
      ⟨front, led, padded, leads, rfl⟩, failed, by
      rw [List.append_assoc, List.cons_append]⟩
  · rcases List.exists_cons_of_ne_nil some with ⟨next, more, rfl⟩
    exact .inr ⟨value :: next :: more, _, following, List.cons_ne_nil _ _,
      ⟨front, body, padded, series, rfl⟩,
      rfl, by rw [List.append_assoc, List.cons_append]⟩

private theorem isInList_of_itemsUntil (sound : IsSound item spells)
    (failed : itemsUntil close item text = .error failure) :
    failure.IsInList item spells text := by
  fun_induction itemsUntil close item text with
  | case1 text reason stopped =>
      cases failed
      exact .inl ⟨[], [], text, isGap_nil, stopped, rfl⟩
  | case2 text first taken found =>
      cases failed
      rcases exists_isPadded_of_item sound taken with ⟨front, isPadded, split⟩
      rw [found] at split
      exact .inr ⟨[first.value], front, [], List.cons_ne_nil _ _,
        isPadded, rfl, split⟩
  | case3 => cases failed
  | case4 text first taken left bound found longer notClose induction =>
      rcases exists_isPadded_of_item sound taken with ⟨front, isPadded, split⟩
      rcases exists_gap left with ⟨gap, blank, later⟩
      rw [found, later] at split
      rw [split]
      exact ((induction (map_eq_error_iff.1 failed)).widen blank).behind
        isPadded
  | case5 text first taken head left found longer notClose notComma =>
      cases failed
      rcases exists_isPadded_of_item sound taken with ⟨front, isPadded, split⟩
      rw [found] at split
      exact .inr ⟨[first.value], front, head :: left, List.cons_ne_nil _ _,
        isPadded, rfl, split⟩

theorem isInList_of_bracketed (sound : IsSound item spells)
    (failed : bracketed close item text = .error failure) :
    failure.IsInList item spells text := by
  rcases exists_gap text with ⟨gap, blank, split⟩
  unfold bracketed at failed
  split at failed
  · next found =>
      rw [found] at split
      exact .inl ⟨[], gap, [], blank, map_eq_error_iff.1 failed, split⟩
  · next head left found =>
      rw [found] at split
      split at failed
      · cases failed
      · rw [split]
        exact (isInList_of_itemsUntil sound (map_eq_error_iff.1 failed)).widen
          blank

/-! ## Lists behind complete items -/

theorem skipBlank_of_led (firm : IsFirm spells) {values : List α}
    {led : List Char} (leads : Led spells values led) (solid : IsSolid text) :
    IsSolid (skipBlank (led ++ text)) := by
  cases values with
  | nil =>
      rw [skipBlank_append leads, skipBlank_of_isSolid solid]
      exact solid
  | cons value rest =>
      rcases leads with ⟨front, back, padded, -, rfl⟩
      rcases skipBlank_of_isPadded firm padded (',' :: back ++ text) with
        ⟨c, inner, after, -, solid, -, found⟩
      rw [List.append_assoc, found]
      exact ⟨c, _, rfl, solid⟩

private theorem itemsUntil_next {value : α} {middle left : List Char}
    (differs : close ≠ ',') (read : Reads item text value middle)
    (found : skipBlank middle = ',' :: left)
    (failed : itemsUntil close item (skipBlank left) = .error failure) :
    itemsUntil close item text = .error failure := by
  rcases read with ⟨shorter, read⟩
  unfold itemsUntil
  rw [read]
  dsimp only
  split
  · next none => rw [found] at none; cases none
  · next same =>
      rw [found] at same
      cases same
      rw [if_neg differs.symm, if_pos rfl, map_eq_error_iff, failed]

private theorem itemsUntil_of_led (complete : IsComplete item spells)
    (firm : IsFirm spells) (differs : close ≠ ',') {values : List α}
    {led : List Char} (leads : Led spells values led) (solid : IsSolid text)
    (failed : item text = .error failure) :
    itemsUntil close item (skipBlank (led ++ text)) = .error failure := by
  induction values generalizing led with
  | nil =>
      rw [skipBlank_append leads, skipBlank_of_isSolid solid]
      unfold itemsUntil
      rw [failed]
  | cons value rest induction =>
      rcases leads with ⟨front, back, padded, others, rfl⟩
      rcases skipBlank_of_isPadded firm padded (',' :: (back ++ text)) with
        ⟨c, inner, after, spelling, -, blank, found⟩
      have comma := isBoundary_cons (.inr (.inl rfl)) (back ++ text)
      rw [List.append_assoc, List.cons_append, found]
      refine itemsUntil_next differs
        (complete spelling (comma.gap_append blank)) ?_ (induction others)
      rw [skipBlank_append blank, skipBlank_cons rfl]

theorem bracketed_of_led (complete : IsComplete item spells)
    (firm : IsFirm spells) (closes : close = ']' ∨ close = '\x7d')
    {values : List α} {led : List Char} (leads : Led spells values led)
    (solid : IsSolid text) (failed : item text = .error failure) :
    bracketed close item (led ++ text) = .error failure := by
  have differs : close ≠ ',' := by rcases closes with rfl | rfl <;> decide
  have failed := itemsUntil_of_led complete firm differs leads solid failed
  rcases skipBlank_of_led firm leads solid with ⟨c, left, found, starts⟩
  rw [found] at failed
  have other : c ≠ close := by
    rintro rfl
    exact starts (.inr (.inr closes))
  rw [bracketed_of_cons found other, map_eq_error_iff, failed]

end

/-! ## Members that do not end -/

def Failure.IsInMember (value : Reader Value) (text : List Char)
    (failure : Failure) : Prop :=
  (∃ name before after inner, IsGap before ∧ IsGap after ∧
    value inner = .error failure ∧
    text = quoted name ++ (before ++ ':' :: (after ++ inner))) ∨
  ∃ member front more reason following, PairSpells member (front ++ more) ∧
    failure = .fault reason following ∧ text = front ++ following

theorem isInMember_of_member {value : Reader Value} {text : List Char}
    {failure : Failure} (failed : member value text = .error failure) :
    failure.IsInMember value text := by
  unfold member at failed
  split at failed
  · next text =>
      split at failed
      · next stopped =>
          cases failed
          rcases isInString_of_stringBody stopped with
            ⟨reason, following, rfl, rfl | ⟨front, isFront, rfl⟩⟩
          · exact .inr ⟨([], .null), [], _, reason, _,
              ⟨[], _, [], isGap_nil, isGap_nil, rfl, rfl⟩, rfl, rfl⟩
          · rcases isFront.exists_quoted with ⟨parts, more, whole⟩
            refine .inr ⟨(parts, .null), '"' :: front,
              more ++ [':', 'n', 'u', 'l', 'l'], reason, following,
              ⟨[], _, [], isGap_nil, isGap_nil, rfl, ?_⟩, rfl, rfl⟩
            rw [← List.append_assoc, whole]
            rfl
      · next name nameRead =>
          rcases spelled_of_stringBody nameRead with ⟨parts, split, -⟩
          rcases exists_gap name.rest with ⟨before, blank, first⟩
          have whole : '"' :: text = quoted parts ++
              (before ++ skipBlank name.rest) := by
            rw [← first, quoted, List.cons_append, List.append_assoc]
            exact congrArg ('"' :: ·) split
          split at failed
          · next left found =>
              rcases exists_gap left with ⟨after, blank', second⟩
              rw [found, second] at whole
              exact .inl ⟨parts, before, after, _, blank, blank',
                map_eq_error_iff.1 failed, whole⟩
          · cases failed
            refine .inr ⟨(parts, .null), quoted parts ++ before,
              [':', 'n', 'u', 'l', 'l'], _, _,
              ⟨before, _, [], blank, isGap_nil, rfl, ?_⟩, rfl, ?_⟩
            · rw [List.append_assoc]
              rfl
            · rw [whole, List.append_assoc]
  · cases failed
    exact .inr ⟨([], .null), [], _, _, _,
      ⟨[], _, [], isGap_nil, isGap_nil, rfl, rfl⟩, rfl, rfl⟩

theorem member_of_value {value : Reader Value} {before after text : List Char}
    {failure : Failure} (name : List StringPart) (blank : IsGap before)
    (blank' : IsGap after) (solid : IsSolid text)
    (failed : value text = .error failure) :
    member value (quoted name ++ (before ++ ':' :: (after ++ text))) =
      .error failure := by
  have whole : quoted name ++ (before ++ ':' :: (after ++ text)) =
      '"' :: (spelled name ++ '"' :: (before ++ ':' :: (after ++ text))) := by
    simp only [quoted, List.cons_append, List.append_assoc, List.nil_append]
  have colon : skipBlank (before ++ ':' :: (after ++ text)) = ':' ::
      (after ++ text) := by
    rw [skipBlank_append blank, skipBlank_cons rfl]
  rw [whole]
  rcases reads_spelled
    ('"' :: (spelled name ++ '"' :: (before ++ ':' :: (after ++ text))))
    (before ++ ':' :: (after ++ text)) name with ⟨shorter, read⟩
  rw [member, read]
  dsimp only
  split
  · next same =>
      rw [colon] at same
      cases same
      rw [map_eq_error_iff, skipBlank_append blank',
        skipBlank_of_isSolid solid, failed]
  · next other => exact absurd colon (other _)

/-! ## Values that do not end -/

/-- What is in front of the place of a fault may be completed to a value. A
constant stands where it is met, and it takes five calls more to tell of it. -/
def Failure.StopsIn (depth : Nat) (inner : List Char) : Failure → Prop
  | .fault _ following => ∃ front, IsViable front ∧ inner = front ++ following
  | .constant met => 5 ≤ depth ∧ ∃ after, inner = met.word.toList ++ after
  | _ => True

def Failure.IsBehindOpenings (depth : Nat) (text : List Char)
    (failure : Failure) : Prop :=
  ∃ openings front inner, Opens openings front ∧ HasRoom depth openings ∧
    failure.StopsIn (depth - openings.length) inner ∧ text = front ++ inner

theorem Failure.StopsIn.isBehindOpenings {depth : Nat} {text : List Char}
    {failure : Failure} (stops : failure.StopsIn depth text) :
    failure.IsBehindOpenings depth text :=
  ⟨[], [], text, rfl, hasRoom_nil depth, stops, rfl⟩

theorem Failure.IsBehindOpenings.told {depth : Nat} {text : List Char}
    {failure : Failure} (behind : failure.IsBehindOpenings depth text)
    (room : Nat) :
    (failure.told room).IsBehindOpenings depth text := by
  rcases failure.told_eq room with same | ⟨overflow, same⟩ <;> rw [same]
  · exact behind
  · rcases behind with ⟨openings, front, inner, opens, hasRoom, -, split⟩
    exact ⟨openings, front, inner, opens, hasRoom, trivial, split⟩

theorem Failure.IsBehindOpenings.behind {depth : Nat} {front text : List Char}
    {failure : Failure} {opening : Opening} (spells : opening.Spells front)
    (fits : ∀ phrase ∈ opening.phrases, phrase.Fits depth)
    (behind : failure.IsBehindOpenings depth text) :
    failure.IsBehindOpenings (depth + 1) (front ++ text) := by
  rcases behind with ⟨openings, more, inner, opens, room, stops, rfl⟩
  exact ⟨opening :: openings, front ++ more, inner,
    ⟨front, more, spells, opens, rfl⟩,
    ⟨fits, room⟩, by rwa [List.length_cons, Nat.add_sub_add_right], by
      rw [List.append_assoc]⟩

theorem Failure.IsInList.isBehindOpenings_array {depth : Nat} {text : List Char}
    {failure : Failure}
    (inside : failure.IsInList (value depth) (Denotes depth) text)
    (within : ∀ {inner : List Char}, value depth inner = .error failure →
      failure.IsBehindOpenings depth inner) :
    failure.IsBehindOpenings (depth + 1) ('[' :: text) := by
  rcases inside with ⟨values, led, inner, leads, failed, rfl⟩ |
    ⟨values, body, following, -, series, rfl, rfl⟩
  · rcases led_exists_iff.1 leads with ⟨items, fits, -, leads⟩
    rw [← List.cons_append]
    have opens : (Opening.array items).Spells ('[' :: led) := ⟨led, leads, rfl⟩
    exact (within failed).behind opens fits
  · rcases series_exists_iff.1 series with ⟨items, -, -, series⟩
    exact Failure.StopsIn.isBehindOpenings ⟨_, isViable_array series, rfl⟩

theorem Failure.IsInList.isBehindOpenings_object {depth : Nat}
    {text : List Char} {failure : Failure}
    (inside : failure.IsInList (member (value depth))
      (MemberSpells (Denotes depth)) text)
    (within : ∀ {inner : List Char}, value depth inner = .error failure →
      failure.IsBehindOpenings depth inner) :
    failure.IsBehindOpenings (depth + 1) ('\x7b' :: text) := by
  rw [memberSpells_denotes] at inside
  rcases inside with ⟨pairs, led, inner, leads, failed, rfl⟩ |
    ⟨pairs, body, following, -, series, rfl, rfl⟩
  · rcases led_exists_iff.1 leads with ⟨members, fits, -, leads⟩
    rcases isInMember_of_member failed with
      ⟨name, before, after, inner, blank, blank', stopped, rfl⟩ |
      ⟨member, front, more, reason, following, spelling, rfl, rfl⟩
    · have spells : (Opening.object members name).Spells
          ('\x7b' :: (led ++ (quoted name ++ (before ++ ':' :: after)))) :=
        ⟨led, before, after, leads, blank, blank', rfl⟩
      have behind := (within stopped).behind spells (List.forall_mem_map.2 fits)
      simpa only [List.cons_append, List.append_assoc] using behind
    · refine Failure.StopsIn.isBehindOpenings
        ⟨_, isViable_object_append leads spelling, ?_⟩
      rw [List.cons_append, List.append_assoc]
  · rcases series_exists_iff.1 series with ⟨members, -, -, series⟩
    exact Failure.StopsIn.isBehindOpenings ⟨_, isViable_object series, rfl⟩

theorem eq_append_of_atFront? {text after : List Char} {constant : Constant}
    (found : Constant.atFront? text = some (constant, after)) :
    text = constant.word.toList ++ after := by
  rw [Constant.atFront?] at found
  rcases List.exists_of_findSome?_eq_some found with ⟨other, -, found⟩
  rcases Option.map_eq_some_iff.1 found with ⟨rest, found, same⟩
  cases same
  exact after?_eq_some_iff.1 found

theorem stopsIn_of_number {depth : Nat} {text : List Char} {failure : Failure}
    (failed : number text = .error failure) : failure.StopsIn depth text := by
  unfold number at failed
  split at failed
  · cases failed
    exact ⟨[], isViable_nil, rfl⟩
  · split at failed
    · split at failed
      · cases failed
        trivial
      · cases failed
    · cases failed

theorem isBehindOpenings_of_value {depth : Nat} {text : List Char}
    {failure : Failure} (failed : value depth text = .error failure) :
    failure.IsBehindOpenings depth text := by
  fun_cases value depth text with
  | case1 text =>
      rw [value] at failed
      rcases telling_eq_error_iff.1 failed with ⟨cause, stopped, rfl⟩
      refine Failure.IsBehindOpenings.told
        (Failure.StopsIn.isBehindOpenings ?_) depth
      rcases isInString_of_stringBody (map_eq_error_iff.1 stopped) with
        ⟨reason, following, rfl, rfl | ⟨front, isFront, rfl⟩⟩
      · exact ⟨[], isViable_nil, rfl⟩
      · rcases isFront.exists_quoted with ⟨parts, more, whole⟩
        exact ⟨'"' :: front, ⟨.string parts, more, whole⟩, rfl⟩
  | case2 | case4 =>
      rw [value] at failed
      cases failed
      exact Failure.StopsIn.isBehindOpenings trivial
  | case3 text depth =>
      rw [value] at failed
      rcases telling_eq_error_iff.1 failed with ⟨cause, stopped, rfl⟩
      have inside := isInList_of_bracketed (isSound_value depth)
          (map_eq_error_iff.1 stopped)
      exact (inside.isBehindOpenings_array isBehindOpenings_of_value).told depth
  | case5 text depth =>
      rw [value] at failed
      rcases telling_eq_error_iff.1 failed with ⟨cause, stopped, rfl⟩
      have inside :=
          isInList_of_bracketed (isSound_member (isSound_value depth))
        (map_eq_error_iff.1 stopped)
      exact (inside.isBehindOpenings_object isBehindOpenings_of_value).told
        depth
  | case6 | case7 | case8 =>
      rw [value] at failed
      cases failed
  | case9 depth text notString notArray notObject notNull notTrue notFalse
      constant after found =>
      rw [value] at failed
      · simp only [found] at failed
        rcases telling_eq_error_iff.1 failed with ⟨cause, stopped, rfl⟩
        cases stopped
        rcases (Failure.constant constant).told_eq depth with
          same | ⟨overflow, same⟩
        · have room := (Failure.told_eq_constant_iff.1 same).2
          rw [same]
          exact Failure.StopsIn.isBehindOpenings
            ⟨room, after, eq_append_of_atFront? found⟩
        · rw [same]
          exact Failure.StopsIn.isBehindOpenings trivial
      all_goals assumption
  | case10 depth text notString notArray notObject notNull notTrue
      notFalse other =>
      rw [value] at failed
      · simp only [other] at failed
        exact (stopsIn_of_number failed).isBehindOpenings
      all_goals assumption

/-- A refused text has a byte order mark in front or something behind its value,
or its value fails. -/
theorem document_failure {depth : Nat} {text : List Char} {failure : Failure}
    (failed : document depth text = .error failure) :
    failure = .fault .byteOrderMark text ∨
      (∃ gap inner, IsGap gap ∧ failure.IsBehindOpenings depth inner ∧
        text = gap ++ inner) ∨
      ∃ (phrase : Phrase) (front following : List Char), IsPadded
        phrase.Spells front ∧ failure = .fault .extraData following ∧
        text = front ++ following := by
  rcases exists_gap text with ⟨before, blank, split⟩
  unfold document at failed
  split at failed
  · cases failed
    exact .inl rfl
  · split at failed
    · next stopped =>
        cases failed
        exact .inr
          (.inl ⟨before, _, blank, isBehindOpenings_of_value stopped, split⟩)
    · next reading found =>
        split at failed
        · cases failed
        · cases failed
          rcases exists_gap reading.rest with ⟨after, blank', split'⟩
          rcases isSound_value _ ⟨reading.shorter, found⟩ with
            ⟨front, ⟨phrase, -, -, spells⟩, same⟩
          refine .inr (.inr ⟨phrase, before ++ (front ++ after), _,
            ⟨before, front, after, blank, spells, blank', rfl⟩, rfl, ?_⟩)
          rw [List.append_assoc, List.append_assoc, ← split', ← same, ← split]

/-! ## Values behind openings -/

theorem isSolid_of_spells {opening : Opening} {front : List Char}
    (spells : opening.Spells front) (text : List Char) :
    IsSolid (front ++ text) := by
  rcases Opening.exists_cons spells with ⟨c, left, rfl, bracket⟩
  exact ⟨c, _, rfl, by rcases bracket with rfl | rfl <;> decide⟩

theorem value_of_opening {depth : Nat} {opening : Opening}
    {front text : List Char} {failure : Failure} (spells : opening.Spells front)
    (fits : ∀ phrase ∈ opening.phrases, phrase.Fits depth)
    (solid : IsSolid text) (room : failure.calls.length ≤ depth)
    (failed : value depth text = .error failure) :
    value (depth + 1) (front ++ text) = .error failure := by
  cases opening with
  | array items =>
      rcases spells with ⟨led, leads, rfl⟩
      have leads : Led (Denotes depth) (items.map Phrase.value) led :=
        led_exists_iff.2 ⟨items, fits, rfl, leads⟩
      rw [List.cons_append, value]
      refine telling_of_le room (map_eq_error_iff.2 ?_)
      exact bracketed_of_led (isComplete_value depth) (isFirm_denotes depth)
        (.inl rfl) leads solid failed
  | object members name =>
      rcases spells with ⟨led, before, after, leads, blank, blank', rfl⟩
      have leads : Led (MemberSpells (Denotes depth))
          (members.map fun member => (decoded member.1, member.2.value))
          led := by
        rw [memberSpells_denotes]
        exact led_exists_iff.2 ⟨members, List.forall_mem_map.1 fits, rfl, leads⟩
      have failed := member_of_value name blank blank' solid failed
      have solid :
          IsSolid (quoted name ++ (before ++ ':' :: (after ++ text))) :=
        ⟨'"', _, rfl, by decide⟩
      have whole : led ++ (quoted name ++ (before ++ ':' :: after)) ++ text =
          led ++ (quoted name ++ (before ++ ':' :: (after ++ text))) := by
        simp only [List.append_assoc, List.cons_append]
      rw [List.cons_append, value, whole]
      refine telling_of_le room (map_eq_error_iff.2 ?_)
      exact bracketed_of_led
        (isComplete_member (isComplete_value depth) (isFirm_denotes depth))
        isFirm_member (.inr rfl) leads solid failed

theorem document_of_value {depth : Nat} {text : List Char} {failure : Failure}
    (noMark : ∀ left, text ≠ '\ufeff' :: left)
    (failed : value depth (skipBlank text) = .error failure) :
    document depth text = .error failure := by
  unfold document
  split
  · exact absurd rfl (noMark _)
  · simp only [failed]

/-- Behind brackets that stand open the reader fails as it fails without them,
as long as there is room to tell of it. -/
theorem value_of_opens {depth : Nat} {openings : List Opening}
    {front text : List Char} {failure : Failure} (opens : Opens openings front)
    (room : HasRoom depth openings)
    (enough : openings.length + failure.calls.length ≤ depth)
    (solid : IsSolid text) (failed : ∀ depth, failure.calls.length ≤ depth →
      value depth text = .error failure) :
    IsSolid (front ++ text) ∧ value depth (front ++ text) = .error failure := by
  -- From the outermost opening inwards: it fails as what is behind it does with
  -- one level less.
  induction openings generalizing depth front with
  | nil =>
      cases opens
      exact ⟨solid, failed depth (by simpa using enough)⟩
  | cons opening rest induction =>
      rcases opens with ⟨first, back, spells, others, rfl⟩
      cases depth with
      | zero => exact room.elim
      | succ depth =>
          rcases room with ⟨fits, room⟩
          rw [List.length_cons] at enough
          rcases induction others room (by omega) with ⟨solid, failed⟩
          rw [List.append_assoc]
          exact ⟨isSolid_of_spells spells _,
            value_of_opening spells fits solid (by omega) failed⟩

end Strict
end FencedJson.Json
