import FencedJson.Files.Wildcard
import Mathlib.Data.List.TakeWhile

/-! # What wildcard patterns match

The pass over the suffixes of a text decides whether the text falls into one run
for each part of the pattern. A text of several pieces writes a pattern of
several pieces, as long as no class in brackets reaches from one into the next.
-/

namespace FencedJson.Pattern

/-- The text is a run of any characters for each star, and one character of each
class. -/
inductive Matches : Pattern → List Char → Prop
  | nil : Matches [] []
  | one {members : CharClass} {rest : Pattern} {c : Char} {text : List Char}
      (holds : members.holds c) (behind : Matches rest text) :
      Matches (.one members :: rest) (c :: text)
  | star {rest : Pattern} {back : List Char} (front : List Char)
      (behind : Matches rest back) :
      Matches (.star :: rest) (front ++ back)

/-! ## The pass over the suffixes -/

theorem suffixMatches_ne_nil (pattern : Pattern) (text : List Char) :
    suffixMatches pattern text ≠ [] := by
  induction pattern with
  | nil => simp [suffixMatches]
  | cons part rest induction =>
      cases part with
      | one members => simp [suffixMatches]
      | star =>
          rcases List.exists_cons_of_ne_nil induction with ⟨now, later, shape⟩
          simp [suffixMatches, shape]

theorem suffixMatches_cons (pattern : Pattern) (c : Char) (text : List Char) :
    suffixMatches pattern (c :: text) =
      pattern.accepts (c :: text) :: suffixMatches pattern text := by
  induction pattern with
  | nil => rfl
  | cons part rest induction =>
      cases part with
      | star =>
          unfold accepts
          simp only [suffixMatches, induction, List.foldr_cons, List.headD_cons]
      | one members =>
          rcases List.exists_cons_of_ne_nil
            (suffixMatches_ne_nil rest text) with ⟨now, later, shape⟩
          unfold accepts
          simp only [suffixMatches, induction, shape, List.drop_succ_cons,
            List.drop_zero, List.zipWith_cons_cons, List.cons_append,
            List.headD_cons]

private theorem suffixMatches_nil (pattern : Pattern) :
    suffixMatches pattern [] = [pattern.accepts []] := by
  induction pattern with
  | nil => rfl
  | cons part rest induction =>
      cases part with
      | one members => rfl
      | star =>
          unfold accepts
          rw [suffixMatches, induction]
          rfl

@[simp] theorem accepts_nil (text : List Char) :
    accepts [] text = text.isEmpty := by
  cases text <;> rfl

@[simp] theorem accepts_one_nil (members : CharClass) (rest : Pattern) :
    accepts (.one members :: rest) [] = false := rfl

@[simp] theorem accepts_one_cons (members : CharClass)
    (rest : Pattern) (c : Char) (text : List Char) :
    accepts (.one members :: rest) (c :: text) =
      (members.holds c && rest.accepts text) := by
  rcases List.exists_cons_of_ne_nil (suffixMatches_ne_nil rest text) with
    ⟨now, later, shape⟩
  have first : rest.accepts text = now := by
    rw [accepts, shape, List.headD_cons]
  rw [first, accepts, suffixMatches, suffixMatches_cons, shape]
  rfl

@[simp] theorem accepts_star_nil (rest : Pattern) :
    accepts (.star :: rest) [] = rest.accepts [] := by
  have single : suffixMatches rest [] = [rest.accepts []] :=
    suffixMatches_nil rest
  rw [accepts, suffixMatches, single]
  simp

@[simp] theorem accepts_star_cons (rest : Pattern) (c : Char)
    (text : List Char) :
    accepts (.star :: rest) (c :: text) =
      (rest.accepts (c :: text) || accepts (.star :: rest) text) := by
  rw [accepts, suffixMatches, suffixMatches_cons, List.foldr_cons,
    List.headD_cons]
  rfl

theorem accepts_star_iff {rest : Pattern} {text : List Char} :
    accepts (.star :: rest) text ↔ ∃ front back, text = front ++ back ∧
    rest.accepts back := by
  induction text with
  | nil =>
      rw [accepts_star_nil]
      constructor
      · exact fun behind => ⟨[], [], rfl, behind⟩
      · rintro ⟨front, back, whole, behind⟩
        rcases List.append_eq_nil_iff.1 whole.symm with ⟨_, rfl⟩
        exact behind
  | cons c text longer =>
      rw [accepts_star_cons, Bool.or_eq_true, longer]
      constructor
      · rintro (now | ⟨front, back, rfl, behind⟩)
        · exact ⟨[], c :: text, rfl, now⟩
        · exact ⟨c :: front, back, rfl, behind⟩
      · rintro ⟨front, back, whole, behind⟩
        cases front with
        | nil =>
            rw [List.nil_append] at whole
            exact .inl (whole ▸ behind)
        | cons first front =>
            cases whole
            exact .inr ⟨front, back, rfl, behind⟩

theorem accepts_iff {pattern : Pattern} {text : List Char} :
    pattern.accepts text ↔ pattern.Matches text := by
  induction pattern generalizing text with
  | nil =>
      rw [accepts_nil, List.isEmpty_iff]
      constructor
      · rintro rfl
        exact .nil
      · intro found
        cases found
        rfl
  | cons part rest induction =>
      cases part with
      | one members =>
          constructor
          · intro accepted
            cases text with
            | nil => cases accepted
            | cons c text =>
                rw [accepts_one_cons, Bool.and_eq_true] at accepted
                exact .one accepted.1 (induction.1 accepted.2)
          · intro found
            cases found with
            | one holds behind =>
                rw [accepts_one_cons, Bool.and_eq_true]
                exact ⟨holds, induction.2 behind⟩
      | star =>
          rw [accepts_star_iff]
          constructor
          · rintro ⟨front, back, rfl, behind⟩
            exact .star front (induction.1 behind)
          · intro found
            cases found with
            | star front behind => exact ⟨front, _, rfl, induction.2 behind⟩

theorem Matches.append {first second : Pattern} {front back : List Char}
    (left : first.Matches front) (right : second.Matches back) :
    Matches (first ++ second) (front ++ back) := by
  induction left with
  | nil => exact right
  | one holds _ induction => exact .one holds induction
  | star run _ induction =>
      rw [List.append_assoc]
      exact .star run induction

/-! ## Patterns for paths -/

/-- No class in brackets of the text that writes a pattern holds a slash. -/
inductive SlashesApart : List Char → Prop
  | nil : SlashesApart []
  | other {c : Char} {rest : List Char} (plain : c ≠ '[')
      (behind : SlashesApart rest) :
      SlashesApart (c :: rest)
  | unclosed {rest : List Char} (without : CharClass.content? rest = none)
      (behind : SlashesApart rest) : SlashesApart ('[' :: rest)
  | closed {rest content following : List Char}
      (found : CharClass.content? rest = some (content, following))
      (apart : '/' ∉ content) (behind : SlashesApart following) :
      SlashesApart ('[' :: rest)

/-- How many characters of a class are part of it whatever they are: the sign of
a negation and a bracket in the first place. -/
def lead (text : List Char) : Nat :=
  let sign := if text.head? = some '!' then 1 else 0
  if (text.drop sign).head? = some ']' then sign + 1 else sign

theorem content?_eq (text : List Char) :
    CharClass.content? text =
      match (text.drop (lead text)).dropWhile (· != ']') with
      | [] => none
      | _ :: rest =>
          some (text.take (lead text) ++ (text.drop (lead text)).takeWhile
            (· != ']'), rest) :=
  rfl

theorem suffix_of_content? {text content rest : List Char}
    (found : CharClass.content? text = some (content, rest)) :
    rest <:+ text := by
  rw [content?_eq] at found
  split at found
  · cases found
  · rename_i close behind run
    cases found
    have behindRun : rest <:+ (text.drop (lead text)).dropWhile (· != ']') :=
      run ▸ List.suffix_cons close rest
    exact behindRun.trans
      ((List.dropWhile_suffix _).trans (List.drop_suffix _ _))

private theorem lead_append_slash (front rest : List Char) :
    lead (front ++ '/' :: rest) = lead front ∧ lead front ≤ front.length := by
  unfold lead
  cases front with
  | nil => simp
  | cons first front =>
      by_cases negated : first = '!'
      · cases front with
        | nil => simp [negated]
        | cons second front =>
            by_cases closing : second = ']' <;> simp [negated, closing]
      · by_cases closing : first = ']' <;> simp [negated, closing]

theorem content?_append_slash (front rest : List Char) :
    (CharClass.content? (front ++ '/' :: rest) = none →
      CharClass.content? front = none) ∧
    ∀ content following, CharClass.content? (front ++ '/' :: rest) =
      some (content, following) → '/' ∉ content →
      ∃ behind, CharClass.content? front = some (content, behind) ∧
        following = behind ++ '/' :: rest := by
  rcases lead_append_slash front rest with ⟨same, within⟩
  rw [content?_eq, content?_eq front, same,
    List.take_append_of_le_length within, List.drop_append_of_le_length within]
  generalize front.take (lead front) = forced
  generalize front.drop (lead front) = run
  -- The first bracket behind what belongs to the class in any case closes it,
  -- in both texts.
  by_cases closed : ']' ∈ run
  · rcases List.eq_append_cons_of_mem closed with ⟨inside, behind, rfl, kept⟩
    have unclosed : ∀ c ∈ inside, (c != ']') = true := by
      intro c member
      exact bne_iff_ne.2 fun same => kept (same ▸ member)
    rw [List.append_assoc, List.dropWhile_append_of_pos unclosed,
      List.takeWhile_append_of_pos unclosed,
      List.dropWhile_append_of_pos unclosed,
      List.takeWhile_append_of_pos unclosed]
    refine ⟨(fun impossible => nomatch impossible),
      fun content following found _ => ?_⟩
    cases found
    exact ⟨behind, rfl, rfl⟩
  · have unclosed : ∀ c ∈ run, (c != ']') = true := by
      intro c member
      exact bne_iff_ne.2 fun same => closed (same ▸ member)
    rw [List.dropWhile_eq_nil_iff.2 unclosed]
    refine ⟨fun _ => rfl, fun content following found apart => ?_⟩
    rw [List.takeWhile_append_of_pos unclosed,
      List.takeWhile_cons_of_pos (by decide)] at found
    split at found
    · cases found
    · cases found
      simp at apart

theorem ofChars_star (rest : List Char) : ofChars ('*' :: rest) = .star ::
    ofChars rest := by
  rw [ofChars]

private theorem ofChars_question (rest : List Char) :
    ofChars ('?' :: rest) = .one .any :: ofChars rest := by
  rw [ofChars]

theorem ofChars_other {c : Char} (star : c ≠ '*') (question : c ≠ '?')
    (bracket : c ≠ '[') (rest : List Char) :
    ofChars (c :: rest) = .one (.only c) :: ofChars rest := by
  rw [ofChars]
  · exact star
  · exact question
  · exact bracket

private theorem ofChars_unclosed {rest : List Char}
    (without : CharClass.content? rest = none) :
    ofChars ('[' :: rest) = .one (.only '[') :: ofChars rest := by
  rw [ofChars]
  split <;> simp_all

theorem ofChars_closed {rest content following : List Char}
    (found : CharClass.content? rest = some (content, following)) :
    ofChars ('[' :: rest) = .one (.ofContent content) :: ofChars following := by
  rw [ofChars]
  split <;> simp_all

theorem ofChars_append_slash {front rest : List Char} (whole : '/' ∉ front)
    (apart : SlashesApart (front ++ '/' :: rest)) :
    ofChars (front ++ '/' :: rest) = ofChars front ++ .one (.only '/') ::
      ofChars rest ∧ SlashesApart rest := by
  -- Translation goes over the text before the slash as over the whole text: a
  -- class that is open at the slash is open in both, since no class that is
  -- closed reaches over a slash.
  fun_induction ofChars front with
  | case1 =>
      cases apart with
      | other _ behind => exact ⟨by simp [ofChars], behind⟩
  | case2 front induction =>
      cases apart with
      | other _ behind =>
          rcases induction (fun inside => whole (.tail _ inside)) behind with
            ⟨same, further⟩
          exact ⟨(ofChars_star _).trans (congrArg _ same), further⟩
  | case3 front induction =>
      cases apart with
      | other _ behind =>
          rcases induction (fun inside => whole (.tail _ inside)) behind with
            ⟨same, further⟩
          exact ⟨(ofChars_question _).trans (congrArg _ same), further⟩
  | case4 front unclosed induction =>
      cases apart with
      | other plain => exact absurd rfl plain
      | unclosed without behind =>
          rcases induction (fun inside => whole (.tail _ inside)) behind with
            ⟨same, further⟩
          exact ⟨(ofChars_unclosed without).trans (congrArg _ same), further⟩
      | closed found apart =>
          rcases (content?_append_slash front rest).2 _ _ found apart with
            ⟨_, closed, _⟩
          rw [unclosed] at closed
          cases closed
  | case5 front content following found induction =>
      cases apart with
      | other plain => exact absurd rfl plain
      | unclosed without =>
          rw [(content?_append_slash front rest).1 without] at found
          cases found
      | closed closed apart behind =>
          rcases (content?_append_slash front rest).2 _ _ closed apart with
            ⟨_, again, rfl⟩
          rw [found] at again
          cases again
          have outside : '/' ∉ following := by
            intro inside
            exact whole (.tail _ ((suffix_of_content? found).subset inside))
          rcases induction outside behind with ⟨same, further⟩
          exact ⟨(ofChars_closed closed).trans (congrArg _ same), further⟩
  | case6 c front star question bracket induction =>
      cases apart with
      | other _ behind =>
          rcases induction (fun inside => whole (.tail _ inside)) behind with
            ⟨same, further⟩
          exact ⟨(ofChars_other star question bracket _).trans
            (congrArg _ same), further⟩
      | unclosed => exact absurd rfl bracket
      | closed => exact absurd rfl bracket

/-! ## Literal texts -/

def IsLiteral (text : List Char) : Prop :=
  ∀ c ∈ text, c ≠ '*' ∧ c ≠ '?' ∧ c ≠ '['

instance (text : List Char) : Decidable (IsLiteral text) :=
  List.decidableBAll _ text

theorem accepts_literal_append_iff {front : List Char}
    (literal : IsLiteral front) {rest text : List Char} :
    (ofChars (front ++ rest)).accepts text ↔
      ∃ back, text = front ++ back ∧ (ofChars rest).accepts back := by
  induction front generalizing text with
  | nil => simp
  | cons c front induction =>
      rcases literal c (.head _) with ⟨star, question, bracket⟩
      rw [List.cons_append, ofChars_other star question bracket]
      cases text with
      | nil => simp
      | cons first text =>
          have only : (CharClass.only c).holds first ↔ first = c := by
            simp [CharClass.holds, CharClass.only]
          rw [accepts_one_cons, Bool.and_eq_true, only,
            induction fun other member => literal other (.tail _ member)]
          simp only [List.cons_append, List.cons.injEq, and_assoc,
            exists_and_left]

theorem accepts_literal_iff {literal : List Char} (plain : IsLiteral literal)
    {text : List Char} :
    (ofChars literal).accepts text ↔ text = literal := by
  rw [← List.append_nil literal, accepts_literal_append_iff plain]
  simp [ofChars]

end FencedJson.Pattern
