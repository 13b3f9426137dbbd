import FencedJson.Proofs.Json.Agreement
import FencedJson.Proofs.Json.Loosening

/-! # Relaxed JSON extends strict JSON

What the strict reader accepts matches the relaxed grammar as well, phrase by
phrase, and has the same value there, up to the pairs of surrogates that the
relaxed parser leaves apart.
-/

namespace FencedJson.Json

/-! ## Phrases without surrogates -/

theorem isWhole_array_iff {items : List Phrase} :
    (Phrase.array items).IsWhole ↔ ∀ item ∈ items, item.IsWhole := by
  induction items with
  | nil => simp [Phrase.IsWhole, Phrase.strings, itemStrings]
  | cons item rest induction =>
      rw [List.forall_mem_cons, ← induction]
      exact List.forall_mem_append

theorem isWhole_object_iff {members : List (List StringPart × Phrase)} :
    (Phrase.object members).IsWhole ↔
      ∀ member ∈ members, (∀ part ∈ member.1, part.isSurrogate = false) ∧
      member.2.IsWhole := by
  induction members with
  | nil => simp [Phrase.IsWhole, Phrase.strings, memberStrings]
  | cons member rest induction =>
      rw [List.forall_mem_cons, ← induction, and_assoc]
      exact List.forall_mem_cons.trans (and_congr_right' List.forall_mem_append)

theorem isSurrogate_of_noLetter {parts : List StringPart}
    (noLetter : 'u' ∉ spelled parts) :
    ∀ part ∈ parts, part.isSurrogate = false := by
  intro part member
  rw [StringPart.isSurrogate, Bool.or_eq_false_iff]
  cases part with
  | plain c | escape kind => exact CodePoint.surrogate_ofChar _
  | code a b c d =>
      have inside : 'u' ∈ (StringPart.code a b c d).text := .tail _ (.head _)
      exact absurd (List.mem_flatMap.2 ⟨_, member, inside⟩) noLetter

theorem isWhole_of_noLetter {phrase : Phrase} {text : List Char}
    (spells : phrase.Spells text) (noLetter : 'u' ∉ text) : phrase.IsWhole := by
  -- By the length of the text, as phrases are nested in lists of phrases.
  induction size :
    text.length using Nat.strong_induction_on generalizing phrase text with
  | _ size induction =>
      cases phrase with
      | null | boolean | number => exact fun parts member => nomatch member
      | string parts =>
          cases spells
          rintro _ (_ | ⟨_, ⟨⟩⟩)
          refine isSurrogate_of_noLetter fun inside => noLetter ?_
          exact .tail _ (List.mem_append_left _ inside)
      | array items =>
          rcases spells with ⟨body, spells, rfl⟩
          refine isWhole_array_iff.2 fun item member => ?_
          rcases (spellItems_iff.1 spells).exists_inside member with
            ⟨inner, spelling, inside⟩
          have bound := inside.length_le
          simp only [List.length_append, List.length_cons] at size
          refine induction inner.length (by omega) spelling
            (fun letter => noLetter ?_) rfl
          exact .tail _ (List.mem_append_left _ (inside.subset letter))
      | object members =>
          rcases spells with ⟨body, spells, rfl⟩
          refine isWhole_object_iff.2 fun member among => ?_
          rcases (spellMembers_iff.1 spells).exists_inside among with
            ⟨_, ⟨before, inner, after, -, -, spelling, rfl⟩, inside⟩
          have within {c : Char}
              (found : c ∈ Json.quoted member.1 ++
                (before ++ ':' :: (after ++ inner))) :
              c ∈ '\x7b' :: (body ++ ['\x7d']) :=
            .tail _ (List.mem_append_left _ (inside.subset found))
          have bound := inside.length_le
          simp only [List.length_append, List.length_cons] at size bound
          constructor
          · refine isSurrogate_of_noLetter fun letter => noLetter (within ?_)
            exact List.mem_append_left
              _ (.tail _ (List.mem_append_left _ letter))
          · refine induction inner.length (by omega) spelling
              (fun letter => ?_) rfl
            exact noLetter (within (by simp [letter]))

theorem decoded_of_whole {parts : List StringPart}
    (whole : ∀ part ∈ parts, part.isSurrogate = false) :
    decoded parts = parts.map StringPart.point := by
  induction parts with
  | nil => rfl
  | cons part parts induction =>
      rcases List.forall_mem_cons.1 whole with ⟨first, others⟩
      rw [StringPart.isSurrogate, Bool.or_eq_false_iff] at first
      rw [decoded_cons_of_unpaired, induction others, List.map_cons]
      intro high
      rw [first.1] at high
      cases high

theorem Phrase.IsTextOf.isWhole {phrase : Phrase} {text : String}
    (isText : phrase.IsTextOf text) (noLetter : 'u' ∉ text.toList) :
    phrase.IsWhole := by
  rcases isText with ⟨before, inner, after, -, spells, -, split⟩
  refine isWhole_of_noLetter spells fun letter => noLetter ?_
  rw [split]
  exact List.mem_append_right _ (List.mem_append_left _ letter)

namespace Relaxed

open Rule
open Strict (IsBoundary IsStop isBoundary_cons)

/-! ## Brackets -/

section

variable {α β : Type} {item : Rule α} {good : β → α → Prop}
  {spells : β → List Char → Prop}

def Recovers (item : Rule α) (good : β → α → Prop)
    (spells : β → List Char → Prop) (origin : β) : Prop :=
  ∀ front rest, spells origin front → IsBoundary rest →
    ∃ value, good origin value ∧ item.Takes (front ++ rest) value rest

def BeginsSolid (spells : β → List Char → Prop) (origin : β) : Prop :=
  ∀ front rest, spells origin front → IsSolid (front ++ rest)

theorem takes_comma {gap gap' rest : List Char} (blank : IsGap gap)
    (blank' : IsGap gap') (solid : IsSolid rest) :
    comma.Takes (gap ++ ',' :: (gap' ++ rest)) () rest :=
  (takes_blanks blank (isSolid_mark _ (by decide))).before <|
    (takes_word [','] _).before (takes_blanks blank' solid)

theorem isSolid_close {close : Char} (closes : close = ']' ∨ close = '\x7d')
    (rest : List Char) : IsSolid (close :: rest) := by
  rcases closes with rfl | rfl <;> exact isSolid_mark _ (by decide)

private theorem refuses_comma {gap rest : List Char} {close : Char}
    (blank : IsGap gap) (closes : close = ']' ∨ close = '\x7d') :
    comma.Refuses (gap ++ close :: rest) := by
  have noComma : (close :: rest).head? ≠ some ',' := by
    rcases closes with rfl | rfl <;> simp
  exact (takes_blanks blank (isSolid_close closes rest)).before_refuses
    ((refuses_word noComma []).before _)

theorem exists_takes_series {origin : β} {others : List β} {body : List Char}
    {close : Char}
    (recovers : ∀ some ∈ origin :: others, Recovers item good spells some)
    (begins : ∀ some ∈ origin :: others, BeginsSolid spells some)
    (closes : close = ']' ∨ close = '\x7d') (rest : List Char)
    (series : Series spells (origin :: others) body) :
    ∃ gap text after value values middle, IsGap gap ∧ IsGap after ∧
      body ++ close :: rest = gap ++ text ∧ IsSolid text ∧
      List.Forall₂ good (origin :: others) (value :: values) ∧
      item.Takes text value middle ∧
      (many (comma.before item)).Takes middle values
        (after ++ close :: rest) := by
  induction others generalizing origin body with
  | nil =>
      rcases series with ⟨gap, inner, after, blank, spelling, blank', rfl⟩
      have boundary : IsBoundary (after ++ close :: rest) :=
        (isBoundary_cons (.inr (.inr closes)) rest).gap_append blank'
      rcases recovers origin (.head _) inner _ spelling boundary with
        ⟨value, holds, takes⟩
      refine ⟨gap, inner ++ (after ++ close :: rest), after, value, [], _,
        blank,
        blank', by
          simp, begins origin (.head _) inner _ spelling,
          .cons holds .nil, takes, ?_⟩
      exact ((refuses_comma blank' closes).before _).many
  | cons next others induction =>
      rcases series with
        ⟨_, back, ⟨gap, inner, after, blank, spelling, blank', rfl⟩, later, rfl⟩
      rcases induction (fun other member => recovers other (.tail _ member))
        (fun other member => begins other (.tail _ member)) later with
        ⟨gap', text, after', value', values, middle, between, blank'', split,
          solid, holds', takes', further⟩
      have boundary : IsBoundary (after ++ ',' :: (gap' ++ text)) :=
        (isBoundary_cons (.inr (.inl rfl)) _).gap_append blank'
      rcases recovers origin (.head _) inner _ spelling boundary with
        ⟨value, holds, takes⟩
      refine ⟨gap, inner ++ (after ++ ',' :: (gap' ++ text)), after', value,
        value' :: values, _, blank,
        blank'', by
          simp [← split], begins origin (.head _) inner _ spelling,
            .cons holds holds', takes, ?_⟩
      have shorter : middle.length <
          (after ++ ',' :: (gap' ++ text)).length := by
        have := takes'.length_le
        simp only [List.length_append, List.length_cons]
        omega
      exact ((takes_comma blank' between solid).before takes').many
        shorter further

private theorem takes_items {text middle after rest : List Char}
    {close : Char} {value : α} {values : List α} (blank : IsGap after)
    (closes : close = ']' ∨ close = '\x7d')
    (takes : item.Takes text value middle)
    (further : (many (comma.before item)).Takes middle values
      (after ++ close :: rest)) :
    (items item).Takes text (value :: values) (close :: rest) := by
  have noComma : (close :: rest).head? ≠ some ',' := by
    rcases closes with rfl | rfl <;> simp
  have ends : (blanks.before (optional (word [',']))).Takes
      (after ++ close :: rest) none (close :: rest) :=
    (takes_blanks blank (isSolid_close closes rest)).before
      (refuses_word noComma []).optional
  exact Takes.closedBy (Takes.andThen takes (further.map (value :: ·))) ends

theorem exists_takes_bracketed {origins : List β} {body : List Char}
    {opening close : Char}
    (recovers : ∀ origin ∈ origins, Recovers item good spells origin)
    (begins : ∀ origin ∈ origins, BeginsSolid spells origin)
    (closes : close = ']' ∨ close = '\x7d') (rest : List Char)
    (empty : item.Refuses (close :: rest))
    (series : Series spells origins body) :
    ∃ values, List.Forall₂ good origins values ∧
      (bracketed opening close item).Takes (opening :: (body ++ close :: rest))
      values rest := by
  have solidClose := isSolid_close closes rest
  have opened := takes_word [opening] (body ++ close :: rest)
  have closed := takes_word [close] rest
  cases origins with
  | nil =>
      have gap := takes_blanks series solidClose
      have noItems : (items item).Refuses (close :: rest) :=
        (empty.andThen _).closedBy _
      refine ⟨[], .nil, Refuses.orElse_takes ?_ ?_⟩
      · exact opened.before_refuses (gap.before_refuses (noItems.closedBy _))
      · exact opened.before (gap.before (closed.map _))
  | cons origin others =>
      rcases exists_takes_series recovers begins closes rest series with
        ⟨gap, text, after, value, values, middle, blank, blank', split,
          solid, holds, takes, further⟩
      have inside := takes_items blank' closes takes further
      have noGap : IsGap [] := fun c member => nomatch member
      have nothing : blanks.Takes (close :: rest) () (close :: rest) :=
        takes_blanks noGap solidClose
      refine ⟨value :: values, holds, Takes.orElse ?_ _⟩
      rw [split] at opened ⊢
      exact opened.before <| (takes_blanks blank solid).before <|
        inside.closedBy (nothing.before closed)

end

theorem refuses_bracketed {α : Type} {item : Rule α} {opening close : Char}
    {text : List Char} (differs : text.head? ≠ some opening) :
    (bracketed opening close item).Refuses text :=
  ((refuses_word differs []).before _).orElse
    ((refuses_word differs []).before _)

/-! ## Members -/

private theorem isSolid_of_start {c : Char} (start : Strict.IsStart c)
    (rest : List Char) :
    IsSolid (c :: rest) := by
  rcases start with digit | named
  · exact isSolid_digit rest digit
  · apply isSolid_mark rest
    simp only [List.mem_cons, List.not_mem_nil, or_false] at named ⊢
    tauto

theorem beginsSolid_phrase (phrase : Phrase) :
    BeginsSolid Phrase.Spells phrase := by
  intro front rest spells
  rcases Strict.exists_start_of_spells spells with ⟨c, left, rfl, start⟩
  exact isSolid_of_start start _

theorem beginsSolid_member (member : List StringPart × Phrase) :
    BeginsSolid PairSpells member := by
  rintro front rest ⟨before, inner, after, -, -, -, rfl⟩
  exact isSolid_mark _ (by decide)

theorem recovers_member {value : Rule Tree} {good : Phrase → Tree → Prop}
    {member : List StringPart × Phrase}
    (recovers : Recovers value good Phrase.Spells member.2) :
    Recovers (Relaxed.member value)
      (fun origin made => made.1 = origin.1.map StringPart.point ∧
        good origin.2 made.2)
      PairSpells member := by
  rcases member with ⟨name, phrase⟩
  rintro front rest ⟨before, inner, after, blank, blank', spells, rfl⟩ boundary
  rcases recovers inner rest spells boundary with ⟨tree, holds, takes⟩
  refine ⟨(name.map StringPart.point, tree), ⟨rfl, holds⟩, ?_⟩
  have content := takes_blanks blank'
      (beginsSolid_phrase phrase inner rest spells)
  have colonSolid : IsSolid (':' :: (after ++ (inner ++ rest))) :=
    isSolid_mark _ (by decide)
  have behind := (takes_blanks blank colonSolid).before <|
      (takes_word [':'] _).before <|
    content.before (takes.map fun tree => (name.map StringPart.point, tree))
  have shape : Json.quoted name ++ (before ++ ':' :: (after ++ inner)) ++ rest =
      Json.quoted name ++
        (before ++ ':' :: (after ++ (inner ++ rest))) := by simp
  rw [shape]
  refine Takes.orElse (Takes.andThen (takes_string name _) ?_) _
  exact behind

theorem refuses_member_close (value : Rule Tree) (rest : List Char) :
    (Relaxed.member value).Refuses ('\x7d' :: rest) := by
  have noQuote {c : Char} (differs : '\x7d' ≠ c) :
      (quoted c).Refuses ('\x7d' :: rest) :=
    (refuses_word (by simpa using differs) []).before _
  have noString : string.Refuses ('\x7d' :: rest) :=
    (noQuote (by decide)).orElse (noQuote (by decide))
  have noName : name.Refuses ('\x7d' :: rest) :=
    (refuses_nameStart (isBoundary_cons (by decide) rest)).andThen _
  exact (noString.andThen _).orElse (noName.andThen _)

/-! ## Values -/

def Mirrors (phrase : Phrase) (tree : Tree) : Prop :=
  ∃ value, tree.convert = .ok value ∧ (phrase.IsWhole → value = phrase.value)

private theorem exists_convertItems {items : List Phrase} {trees : List Tree}
    (mirror : List.Forall₂ Mirrors items trees) :
    ∃ values, convertItems trees = .ok values ∧
      ((∀ item ∈ items, item.IsWhole) → values = items.map Phrase.value) := by
  induction mirror with
  | nil => exact ⟨[], rfl, fun _ => rfl⟩
  | cons first others induction =>
      rcases first with ⟨value, made, same⟩
      rcases induction with ⟨values, madeOthers, sameOthers⟩
      refine ⟨value ::
        values, by simp [convertItems, made, madeOthers, Except.map], ?_⟩
      intro whole
      rcases List.forall_mem_cons.1 whole with ⟨wholeFirst, wholeOthers⟩
      rw [same wholeFirst, sameOthers wholeOthers, List.map_cons]

theorem mirrors_array {items : List Phrase} {trees : List Tree}
    (mirror : List.Forall₂ Mirrors items trees) :
    Mirrors (.array items) (.array trees) := by
  rcases exists_convertItems mirror with ⟨values, made, same⟩
  refine
    ⟨.array values, by simp [Tree.convert, made, Except.map], fun whole => ?_⟩
  rw [same (isWhole_array_iff.1 whole), Phrase.value, itemValues_eq_map]

def MirrorsMember (member : List StringPart × Phrase) (tree : CodeText × Tree) :
    Prop :=
  tree.1 = member.1.map StringPart.point ∧ Mirrors member.2 tree.2

private theorem exists_convertMembers
    {members : List (List StringPart × Phrase)} {trees : List (CodeText × Tree)}
    (mirror : List.Forall₂ MirrorsMember members trees) :
    ∃ pairs, convertMembers trees = .ok pairs ∧
    ((Phrase.object members).IsWhole →
      pairs = members.map fun member =>
        (decoded member.1, member.2.value)) := by
  rw [isWhole_object_iff]
  induction mirror with
  | nil => exact ⟨[], rfl, fun _ => rfl⟩
  | @cons member tree members trees first others induction =>
      rcases tree with ⟨key, tree⟩
      rcases first with ⟨named, value, made, same⟩
      rcases induction with ⟨pairs, madeOthers, sameOthers⟩
      refine ⟨(key, value) ::
        pairs, by simp [convertMembers, made, madeOthers, Except.map], ?_⟩
      intro whole
      rcases List.forall_mem_cons.1 whole with
        ⟨⟨wholeName, wholeFirst⟩, wholeOthers⟩
      rw [same wholeFirst, sameOthers wholeOthers, List.map_cons,
        decoded_of_whole wholeName, ← named]

theorem mirrors_object {members : List (List StringPart × Phrase)}
    {trees : List (CodeText × Tree)}
    (mirror : List.Forall₂ MirrorsMember members trees) :
    Mirrors (.object members) (.object trees) := by
  rcases exists_convertMembers mirror with ⟨pairs, made, same⟩
  refine ⟨.object
    (entriesOf pairs), by
      simp [Tree.convert, made, Except.map], fun whole => ?_⟩
  rw [same whole, Phrase.value, memberValues_eq_map, entriesOf_eq_lastEntries]

section

variable {depth : Nat} {text rest : List Char}

theorem refuses_keyword {α : Type} {c : Char} (differs : text.head? ≠ some c)
    (letters : List Char) (made : α) :
    ((word (c :: letters)).map fun _ => made).Refuses text :=
  (refuses_word differs letters).map _

theorem takes_value_of_noKeyword {tree : Tree}
    (noKeyword : ∀ c ∈ text.head?, c ∉ ['n', 't', 'f'])
    (takes :
      (firstOf [(bracketed '\x7b' '\x7d' (member (value depth))).map .object,
        (bracketed '[' ']' (value depth)).map .array, string.map .string,
        number]).Takes text tree rest) :
        (value (depth + 1)).Takes text tree rest := by
  have differs (c : Char) (keyword : c ∈ ['n', 't', 'f']) :
      text.head? ≠ some c :=
    fun same => noKeyword c same keyword
  exact (refuses_keyword (differs 'n' (by decide)) _ _).firstOf_takes <|
    (refuses_keyword (differs 't' (by decide)) _ _).firstOf_takes <|
    (refuses_keyword (differs 'f' (by decide)) _ _).firstOf_takes takes

theorem takes_value_of_scalar {tree : Tree}
    (scalar : ∀ c ∈ text.head?, c ∉ ['n', 't', 'f', '\x7b', '['])
    (takes : (firstOf [string.map .string, number]).Takes text tree rest) :
    (value (depth + 1)).Takes text tree rest := by
  have differs (c : Char) (other : c ∈ ['n', 't', 'f', '\x7b', '[']) :
      text.head? ≠ some c :=
    fun same => scalar c same other
  refine takes_value_of_noKeyword
    (fun c first member => scalar c first
      (List.mem_append_left ['\x7b', '['] member)) ?_
  exact ((refuses_bracketed (differs '\x7b' (by decide))).map
    _).firstOf_takes <|
      ((refuses_bracketed (differs '[' (by decide))).map _).firstOf_takes takes

theorem takes_null : (value (depth + 1)).Takes
    ('n' :: 'u' :: 'l' :: 'l' :: rest) .null rest :=
  ((takes_word "null".toList rest).map _).firstOf _

theorem takes_true :
    (value (depth + 1)).Takes ('t' :: 'r' :: 'u' :: 'e' :: rest)
    (.boolean true) rest :=
  (refuses_keyword (c := 'n') (by simp) _ _).firstOf_takes <|
    ((takes_word "true".toList rest).map _).firstOf _

theorem takes_false :
    (value (depth + 1)).Takes ('f' :: 'a' :: 'l' :: 's' :: 'e' :: rest)
    (.boolean false) rest :=
  (refuses_keyword (c := 'n') (by simp) _ _).firstOf_takes <|
    (refuses_keyword (c := 't') (by simp) _ _).firstOf_takes <|
    ((takes_word "false".toList rest).map _).firstOf _

theorem takes_array {trees : List Tree}
    (takes : (bracketed '[' ']' (value depth)).Takes ('[' :: text) trees rest) :
    (value (depth + 1)).Takes ('[' :: text) (.array trees) rest := by
  have noObject : (bracketed '\x7b' '\x7d' (member (value depth))).Refuses
      ('[' :: text) :=
    refuses_bracketed (by simp)
  refine takes_value_of_noKeyword (by simp) ?_
  exact (noObject.map _).firstOf_takes ((takes.map _).firstOf _)

theorem takes_object {trees : List (CodeText × Tree)}
    (takes : (bracketed '\x7b' '\x7d' (member (value depth))).Takes
      ('\x7b' :: text) trees rest) :
    (value (depth + 1)).Takes ('\x7b' :: text) (.object trees) rest :=
  takes_value_of_noKeyword (by simp) ((takes.map _).firstOf _)

theorem takes_value_string (parts : List StringPart) : (value (depth + 1)).Takes
    (Json.quoted parts ++ rest) (.string (parts.map StringPart.point)) rest :=
  takes_value_of_scalar (by simp [Json.quoted])
    (((takes_string parts rest).map _).firstOf _)

theorem refuses_value_close (rest : List Char) :
    (value (depth + 1)).Refuses (']' :: rest) :=
  rfl

end

private theorem exists_takes_value_number {depth : Nat} {literal : Decimal}
    {front rest : List Char} (spells : literal.Spells front)
    (boundary : IsBoundary rest) :
    ∃ numeral, numeral.Means literal ∧
      (value (depth + 1)).Takes (front ++ rest)
      (.number literal.negative numeral) rest := by
  rcases exists_takes_number spells boundary with ⟨numeral, means, takes⟩
  rcases Decimal.Spells.exists_cons spells with ⟨c, left, rfl, start⟩
  have scalar : c ∉ ['n', 't', 'f', '\x7b', '[', '"', '\''] := by
    intro mark
    simp only [List.mem_cons, List.not_mem_nil, or_false] at mark
    rcases start with digit | ⟨rfl, -⟩
    · rcases mark with rfl | rfl | rfl | rfl | rfl | rfl | rfl <;> cases digit
    · revert mark
      decide
  have noQuote (mark : Char) (quotes : mark ∈ ['"', '\'']) :
      (quoted mark).Refuses (c :: left ++ rest) := by
    refine (refuses_word ?_ []).before _
    rintro ⟨⟩
    exact scalar (List.mem_append_right ['n', 't', 'f', '\x7b', '['] quotes)
  have noString : string.Refuses (c :: left ++ rest) :=
    (noQuote '\'' (by decide)).orElse (noQuote '"' (by decide))
  refine ⟨numeral, means,
    takes_value_of_scalar ?_ ((noString.map _).firstOf_takes (takes.firstOf _))⟩
  rintro d ⟨⟩ member
  exact scalar (List.mem_append_left ['"', '\''] member)

/-- What fits the strict reader is taken by the relaxed grammar, which needs
room for one level more to see that there is no item in the innermost brackets.
-/
theorem recovers_value (depth : Nat) {phrase : Phrase}
    (fits : phrase.Fits depth) :
    Recovers (value (depth + 1)) Mirrors Phrase.Spells phrase := by
  intro front rest spells boundary
  cases phrase with
  | null =>
      cases spells
      exact ⟨.null, ⟨.null, rfl, fun _ => rfl⟩, takes_null⟩
  | boolean truth =>
      cases truth <;> cases spells
      · exact ⟨.boolean false, ⟨.boolean false, rfl, fun _ => rfl⟩, takes_false⟩
      · exact ⟨.boolean true, ⟨.boolean true, rfl, fun _ => rfl⟩, takes_true⟩
  | number literal =>
      rcases exists_takes_value_number spells boundary with
        ⟨numeral, means, takes⟩
      have converted := convert_of_means means spells.1
        (fits.short literal (List.mem_singleton_self _))
      exact ⟨.number literal.negative numeral,
        ⟨literal.value, converted, fun _ => rfl⟩, takes⟩
  | string parts =>
      cases spells
      refine ⟨_, ⟨.string (parts.map StringPart.point), rfl, fun whole => ?_⟩,
        takes_value_string parts⟩
      rw [Phrase.value, decoded_of_whole
        (whole parts (List.mem_singleton_self _))]
  | array items =>
      rcases spells with ⟨body, spells, rfl⟩
      cases depth with
      | zero => exact absurd fits.shallow (Nat.not_succ_le_zero _)
      | succ depth =>
          have recovers : ∀ item ∈ items, Recovers
              (value (depth + 1)) Mirrors Phrase.Spells item :=
            fun item member => recovers_value depth
              (fits_array_iff.1 fits item member)
          rcases exists_takes_bracketed recovers
            (fun item _ => beginsSolid_phrase item) (.inl rfl) rest
              (refuses_value_close rest) (spellItems_iff.1 spells) with
                ⟨trees, mirror, takes⟩
          rw [List.cons_append, List.append_assoc]
          exact ⟨_, mirrors_array mirror, takes_array takes⟩
  | object members =>
      rcases spells with ⟨body, spells, rfl⟩
      cases depth with
      | zero => exact absurd fits.shallow (Nat.not_succ_le_zero _)
      | succ depth =>
          have recovers (member : List StringPart × Phrase)
              (listed : member ∈ members) :=
            recovers_member
              (recovers_value depth (fits_object_iff.1 fits member listed))
          rcases exists_takes_bracketed recovers
            (fun member _ => beginsSolid_member member) (.inr rfl) rest
              (refuses_member_close _ rest) (spellMembers_iff.1 spells) with
            ⟨trees, mirror, takes⟩
          rw [List.cons_append, List.append_assoc]
          exact ⟨_, mirrors_object mirror, takes_object takes⟩

/-! ## Whole texts -/

/-- A text of a phrase that fits the strict reader is parsed with one level
more, and its value is what the phrase denotes unless halves of pairs are left
apart. -/
theorem parse_of_isTextOf {stack : Stack} {phrase : Phrase}
    {text : String} {depth : Nat} (isText : phrase.IsTextOf text)
    (fits : phrase.Fits depth) (room : depth < stack.relaxedLevels text) :
    ∃ value, parse stack text = .ok value ∧
    (phrase.IsWhole → value = phrase.value) := by
  rcases Nat.exists_eq_succ_of_ne_zero (Nat.ne_zero_of_lt room) with
    ⟨levels, same⟩
  replace fits : phrase.Fits levels :=
    ⟨fits.shallow.trans (by omega), fits.short⟩
  rcases isText with ⟨before, inner, after, blank, spells, blank', split⟩
  have boundary : IsBoundary (after ++ []) :=
    IsBoundary.gap_append blank' (by simp [IsBoundary])
  rcases recovers_value _ fits inner (after ++ []) spells boundary with
    ⟨tree, mirrors, takes⟩
  have ends : finish.Takes [] () [] := Refuses.absent rfl
  have closing := (takes_blanks blank' isSolid_nil).before ends
  have whole :=
    (takes_blanks blank (beginsSolid_phrase phrase inner _ spells)).before
      (takes.closedBy closing)
  have document : (document (stack.relaxedLevels text)).Takes
      text.toList tree [] := by
    rw [same, split, ← List.append_nil after]
    exact whole
  have filled : text.isEmpty = false := by
    rcases Strict.exists_start_of_spells spells with ⟨c, left, rfl, -⟩
    rw [← Bool.not_eq_true, String.isEmpty_iff]
    rintro rfl
    simp at split
  rcases document with ⟨found, matched, rfl, -⟩
  rcases mirrors with ⟨value, converted, same⟩
  refine ⟨value, ?_, same⟩
  simp only [parse, filled, matched, converted, Bool.false_eq_true, if_false]

end Relaxed
end FencedJson.Json
