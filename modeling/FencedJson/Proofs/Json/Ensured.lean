import FencedJson.Json.Relaxed

/-! # What the relaxed grammar ensures

No rule looks behind the end of the text, and the numerals of a text that
matches are made of digits. Both follow rule by rule from what the ways of
joining rules ensure.
-/

namespace FencedJson.Json

theorem Match.size_add_le {α : Type} {text : List Char}
    (found : Match α text) {count : Nat} (within : count ≤ found.rest.length) :
    found.size + count ≤ text.length := by
  have := found.size_le
  rw [found.length_rest] at within
  omega

namespace Rule

variable {α β : Type}

/-- The rule refuses no character behind the end of a text, and what it matches
has a good value. -/
def Ensures (rule : Rule α) (good : α → Prop) : Prop :=
  ∀ text, (rule text).reach ≤ text.length ∧
    ∀ found, (rule text).outcome = .matched found → good found.value

/-- The rule looks at nothing behind the end of a text. -/
abbrev IsBounded (rule : Rule α) : Prop := rule.Ensures fun _ => True

namespace Ensures

section

variable {rule first second : Rule α} {good : α → Prop}

theorem mono {better : α → Prop} (ensures : rule.Ensures better)
    (implies : ∀ value, better value → good value) :
    rule.Ensures good := fun text =>
  ⟨(ensures text).1, fun found matched =>
    implies _ ((ensures text).2 found matched)⟩

theorem isBounded (ensures : rule.Ensures good) : rule.IsBounded :=
  ensures.mono fun _ _ => trivial

theorem pure {value : α} (holds : good value) :
    (Rule.pure value).Ensures good := by
  intro text
  refine ⟨Nat.zero_le _, fun found matched => ?_⟩
  cases matched
  exact holds

theorem fail : (Rule.fail : Rule α).Ensures good := fun _ =>
  ⟨Nat.zero_le _, fun _ matched => nomatch matched⟩

theorem giveUp : (Rule.giveUp : Rule α).Ensures good := fun _ =>
  ⟨Nat.zero_le _, fun _ matched => nomatch matched⟩

theorem map {transform : β → α} {rule : Rule β}
    (ensures : rule.Ensures fun value => good (transform value)) :
    (rule.map transform).Ensures good := by
  intro text
  rcases ensures text with ⟨reach, holds⟩
  dsimp only [Rule.map]
  cases outcome : (rule text).outcome with
  | matched found =>
      refine ⟨reach, fun made matched => ?_⟩
      cases matched
      exact holds found outcome
  | refused | tooDeep => exact ⟨reach, fun _ matched => nomatch matched⟩

theorem andThen {middle : β → Prop} {first : Rule β} {next : β → Rule α}
    (ensures : first.Ensures middle)
    (further : ∀ value, middle value → (next value).Ensures good) :
    (first.andThen next).Ensures good := by
  intro text
  rcases ensures text with ⟨reach, holds⟩
  dsimp only [Rule.andThen]
  cases outcome : (first text).outcome with
  | refused | tooDeep => exact ⟨reach, fun _ matched => nomatch matched⟩
  | matched found =>
      rcases further found.value (holds found outcome) found.rest with
        ⟨behind, holdsBehind⟩
      have within : max (first text).reach
          (found.size + (next found.value found.rest).reach) ≤ text.length :=
            Nat.max_le.2 ⟨reach, found.size_add_le behind⟩
      dsimp only
      cases later : (next found.value found.rest).outcome with
      | refused | tooDeep => exact ⟨within, fun _ matched => nomatch matched⟩
      | matched second =>
          refine ⟨within, fun made matched => ?_⟩
          cases matched
          exact holdsBehind second later

theorem before {first : Rule β} (bounded : first.IsBounded)
    (ensures : second.Ensures good) :
    (first.before second).Ensures good :=
  andThen bounded fun _ _ => ensures

theorem closedBy {second : Rule β} (ensures : first.Ensures good)
    (bounded : second.IsBounded) :
    (first.closedBy second).Ensures good :=
  andThen ensures fun _ holds => map (bounded.mono fun _ _ => holds)

theorem orElse (ensures : first.Ensures good)
    (otherwise : second.Ensures good) :
    (first.orElse second).Ensures good := by
  intro text
  rcases ensures text with ⟨reach, holds⟩
  rcases otherwise text with ⟨further, holdsFurther⟩
  dsimp only [Rule.orElse]
  cases outcome : (first text).outcome with
  | refused => exact ⟨Nat.max_le.2 ⟨reach, further⟩, holdsFurther⟩
  | matched found =>
      refine ⟨reach, fun made matched => ?_⟩
      cases matched
      exact holds _ outcome
  | tooDeep => exact ⟨reach, fun _ matched => nomatch matched⟩

theorem firstOf {rules : List (Rule α)}
    (ensures : ∀ rule ∈ rules, rule.Ensures good) :
    (Rule.firstOf rules).Ensures good := by
  induction rules with
  | nil => exact fail
  | cons rule rules induction =>
      exact orElse (ensures rule (List.mem_cons_self ..))
        (induction fun rule member =>
          ensures rule (List.mem_cons_of_mem _ member))

theorem absent (bounded : rule.IsBounded) {good : Unit → Prop}
    (holds : good ()) :
    (Rule.absent rule).Ensures good := by
  intro text
  have reach := (bounded text).1
  dsimp only [Rule.absent]
  cases outcome : (rule text).outcome with
  | matched found => exact ⟨Nat.zero_le _, fun _ matched => nomatch matched⟩
  | refused => exact ⟨reach, fun _ _ => holds⟩
  | tooDeep => exact ⟨reach, fun _ matched => nomatch matched⟩

theorem many (ensures : rule.Ensures good) :
    (Rule.many rule).Ensures fun values => ∀ value ∈ values, good value := by
  intro text
  fun_induction Rule.many rule text with
  | case1 text attempt found outcome empty =>
      refine ⟨(ensures text).1, fun made matched => ?_⟩
      cases matched
      exact fun value member => nomatch member
  | case2 text attempt found outcome progress shorter further reach others
      later induction =>
      rcases ensures text with ⟨bound, holds⟩
      rcases induction with ⟨behind, rest⟩
      refine ⟨Nat.max_le.2 ⟨bound, found.size_add_le behind⟩,
        fun made matched => ?_⟩
      cases matched
      exact List.forall_mem_cons.2 ⟨holds found outcome, rest others later⟩
  | case3 text attempt found outcome progress shorter further reach
      later induction
  | case4 text attempt found outcome progress shorter further reach
      later induction =>
      exact ⟨Nat.max_le.2 ⟨(ensures text).1, found.size_add_le induction.1⟩,
        fun _ matched => nomatch matched⟩
  | case5 text attempt outcome =>
      refine ⟨(ensures text).1, fun made matched => ?_⟩
      cases matched
      exact fun value member => nomatch member
  | case6 text attempt outcome =>
      exact ⟨(ensures text).1, fun _ matched => nomatch matched⟩

theorem some (ensures : rule.Ensures good) :
    (Rule.some rule).Ensures fun values => ∀ value ∈ values, good value :=
  andThen ensures fun _ head => map (ensures.many.mono fun _ tail =>
    List.forall_mem_cons.2 ⟨head, tail⟩)

theorem optional (ensures : rule.Ensures good) :
    (Rule.optional rule).Ensures fun value? => ∀ value ∈ value?, good value :=
  orElse (map (ensures.mono fun _ holds _ same => Option.some.inj same ▸ holds))
    (pure fun _ member => nomatch member)

end

theorem char {test : Char → Bool} {good : Char → Prop}
    (holds : ∀ c, test c → good c) :
    (Rule.char test).Ensures good := by
  intro text
  cases text with
  | nil => exact ⟨Nat.zero_le _, fun _ matched => nomatch matched⟩
  | cons c rest =>
      dsimp only [Rule.char]
      split
      · next fits =>
          refine ⟨Nat.zero_le _, fun found matched => ?_⟩
          cases matched
          exact holds c fits
      · exact ⟨Nat.zero_le _, fun _ matched => nomatch matched⟩

theorem charThen {test : Char → Bool} {good : Char → Prop}
    (holds : ∀ c, test c → good c) :
    (Rule.charThen test).Ensures good := by
  intro text
  cases text with
  | nil => exact ⟨Nat.zero_le _, fun _ matched => nomatch matched⟩
  | cons c rest =>
      dsimp only [Rule.charThen]
      split
      · next fits =>
          refine ⟨Nat.zero_le _, fun found matched => ?_⟩
          cases matched
          exact holds c fits
      · exact ⟨Nat.succ_le_succ (Nat.zero_le _), fun _ matched =>
          nomatch matched⟩

theorem word (expected : List Char) : (Rule.word expected).IsBounded := by
  induction expected with
  | nil => exact pure trivial
  | cons c rest induction => exact before (char fun _ _ => trivial) induction

end Ensures

end Rule

namespace Relaxed

open Rule (Ensures IsBounded)

/-! ## Blanks and strings -/

theorem isBounded_lineEnd : lineEnd.IsBounded :=
  .orElse (.word _) <| .orElse (.word _) <| .orElse (.word _) <|
    .orElse (.word _) <| .orElse (.word _) .fail

private theorem isBounded_lineComment : lineComment.IsBounded :=
  .before (.word _) <| .map <|
    .mono (.many <| .before (.absent isBounded_lineEnd trivial) <|
      .char fun _ _ => trivial) fun _ _ => trivial

private theorem isBounded_blockComment : blockComment.IsBounded :=
  .before (.word _) <| .before
    (.isBounded <| .many <| .before (.absent (.word _) trivial) <|
      .char fun _ _ => trivial)
    (.word _)

theorem isBounded_blanks : blanks.IsBounded :=
  .map <| .isBounded <| .many <| .orElse (.map <| .char fun _ _ => trivial) <|
    .orElse isBounded_lineEnd <| .orElse isBounded_lineComment <|
      .orElse isBounded_blockComment .fail

theorem ensures_digit : digit.Ensures fun c => isDigit c :=
  .char fun _ holds => holds

theorem isBounded_hexDigit : hexDigit.IsBounded := .char fun _ _ => trivial

theorem isBounded_longEscape : longEscape.IsBounded :=
  .before (.word _) <| .andThen isBounded_hexDigit fun _ _ =>
    .andThen isBounded_hexDigit fun _ _ =>
      .andThen isBounded_hexDigit fun _ _ =>
      .map isBounded_hexDigit

private theorem isBounded_shortEscape : shortEscape.IsBounded :=
  .before (.word _) <| .andThen isBounded_hexDigit fun _ _ =>
    .map isBounded_hexDigit

private theorem isBounded_selfEscape : selfEscape.IsBounded :=
  .before (.absent (.orElse (.word _) <| .orElse (.word _) <|
    .orElse (.map ensures_digit.isBounded) <| .orElse isBounded_lineEnd .fail)
    trivial) <| .map <| .char fun _ _ => trivial

private theorem isBounded_escaped : escaped.IsBounded := by
  refine .firstOf fun rule member => ?_
  rcases List.mem_append.1 member with control | other
  · rcases List.mem_map.1 control with ⟨⟨letter, meaning⟩, -, rfl⟩
    exact .map (.word _)
  · simp only [List.mem_cons, List.not_mem_nil, or_false] at other
    rcases other with rfl | rfl | rfl | rfl
    · exact isBounded_selfEscape
    · exact .before (.word _) <| .map <| .absent ensures_digit.isBounded trivial
    · exact isBounded_shortEscape
    · exact isBounded_longEscape

private theorem isBounded_stringPart (quote : Char) :
    (stringPart quote).IsBounded :=
  .orElse (.before (.word _) <| .map isBounded_escaped) <|
    .orElse (.before (.word _) <| .map isBounded_lineEnd) <|
      .orElse (.map <| .char fun _ _ => trivial) .fail

theorem isBounded_quoted (quote : Char) : (quoted quote).IsBounded :=
  .before (.word _) <| .closedBy
    (.map <| .isBounded <| .many <| isBounded_stringPart quote) (.word _)

theorem isBounded_string : string.IsBounded :=
  .orElse (isBounded_quoted _) (isBounded_quoted _)

theorem isBounded_nameStart : nameStart.IsBounded :=
  .orElse (.map <| .char fun _ _ => trivial) <|
    .orElse (.map <| .charThen fun _ _ => trivial) <|
      .orElse (.before (.word _) isBounded_longEscape) .fail

private theorem isBounded_namePart : namePart.IsBounded :=
  .orElse (.map <| .char fun _ _ => trivial) <|
    .orElse (.map <| .charThen fun _ _ => trivial) <|
      .orElse (.before (.word _) isBounded_longEscape) .fail

theorem isBounded_name : name.IsBounded :=
  .andThen isBounded_nameStart fun _ _ => .map <| .isBounded <|
    .many isBounded_namePart

/-! ## Numbers -/

def AreDigits (digits : List Char) : Prop := ∀ c ∈ digits, isDigit c

/-- The parts of a decimal numeral are made of digits, and the sign of an
exponent is one. -/
def Numeral.IsSpelled : Numeral → Prop
  | .decimal whole fraction exponent =>
      (∀ digits ∈ whole, AreDigits digits) ∧
      (∀ digits ∈ fraction, AreDigits digits) ∧
        ∀ part ∈ exponent, (∀ sign ∈ part.1, sign = '+' ∨ sign = '-') ∧
        AreDigits part.2
  | _ => True

theorem ensures_fraction : fraction.Ensures AreDigits :=
  .before (.word _) <| .many ensures_digit

theorem ensures_exponent : exponent.Ensures fun part =>
    (∀ sign ∈ part.1, sign = '+' ∨ sign = '-') ∧ AreDigits part.2 :=
  .before (.char fun _ _ => trivial) <|
    .andThen
      (.optional <| .char fun c (holds : (c = '+' || c = '-') = true) => by
        simpa using holds)
      fun _ sign => .map <| (Ensures.many ensures_digit).mono fun _ digits =>
        ⟨sign, digits⟩

private theorem ensures_whole : whole.Ensures AreDigits :=
  .orElse
    (.map <| .closedBy (.char fun c (zero : decide (c = '0') = true) => by
      rw [of_decide_eq_true zero]
      simp [AreDigits, isDigit]) (.absent ensures_digit.isBounded trivial)) <|
    have first : (Rule.char fun c => isDigit c && c ≠ '0').Ensures
        fun c => isDigit c :=
      .char fun c holds => by
        rw [Bool.and_eq_true] at holds
        exact holds.1
    .andThen first fun _ first => .map <| (Ensures.many ensures_digit).mono
      fun _ others =>
      List.forall_mem_cons.2 ⟨first, others⟩

private theorem ensures_decimal : decimal.Ensures Numeral.IsSpelled :=
  .orElse
    (.andThen ensures_whole fun _ whole => .andThen (.optional ensures_fraction)
      fun _ fraction =>
      .map <| (Ensures.optional ensures_exponent).mono fun _ exponent =>
        ⟨fun _ same => Option.some.inj same ▸ whole, fraction, exponent⟩) <|
    .andThen ensures_fraction fun _ fraction =>
      .map <| (Ensures.optional ensures_exponent).mono fun _ exponent =>
        ⟨(fun _ none => nomatch none), fun _ same =>
          Option.some.inj same ▸ fraction, exponent⟩

theorem ensures_numeral : numeral.Ensures Numeral.IsSpelled :=
  .orElse (.closedBy ensures_decimal (.absent isBounded_nameStart trivial)) <|
    .orElse (.before (.orElse (.word _) (.word _)) <| .map <|
      (Ensures.some isBounded_hexDigit).mono fun _ _ => trivial) <|
    .orElse (.map <| (Ensures.word _).mono fun _ _ => trivial) <|
    .orElse (.map <| (Ensures.word _).mono fun _ _ => trivial) .fail

/-! ## Values -/

inductive Tree.IsSpelled : Tree → Prop
  | null : IsSpelled .null
  | boolean (value : Bool) : IsSpelled (.boolean value)
  | string (text : CodeText) : IsSpelled (.string text)
  | number (negative : Bool) {numeral : Numeral} (spelled : numeral.IsSpelled) :
      IsSpelled (.number negative numeral)
  | array {items : List Tree} (all : ∀ item ∈ items, IsSpelled item) :
      IsSpelled (.array items)
  | object {members : List (CodeText × Tree)}
      (all : ∀ member ∈ members, IsSpelled member.2) :
      IsSpelled (.object members)

theorem ensures_number : number.Ensures Tree.IsSpelled :=
  .orElse (.before (.word _) <| .map <| ensures_numeral.mono fun _ =>
    .number true) <|
      .orElse (.before (.word _) <| .map <| ensures_numeral.mono fun _ =>
        .number false) <|
    .orElse (.map <| ensures_numeral.mono fun _ => .number false) .fail

section

variable {α : Type} {item : Rule α} {good : α → Prop}

private theorem isBounded_comma : comma.IsBounded :=
  .before isBounded_blanks <| .before (.word _) isBounded_blanks

private theorem ensures_items (ensures : item.Ensures good) :
    (items item).Ensures fun values => ∀ value ∈ values, good value :=
  .closedBy
    (.andThen ensures fun _ first => .map <|
      (Ensures.many (.before isBounded_comma ensures)).mono fun _ others =>
        List.forall_mem_cons.2 ⟨first, others⟩) <|
    .before isBounded_blanks <| .isBounded <| .optional (.word _)

theorem ensures_bracketed (opening close : Char) (ensures : item.Ensures good) :
    (bracketed opening close item).Ensures fun values =>
      ∀ value ∈ values, good value :=
  .orElse
    (.before (.word _) <| .before isBounded_blanks <|
      .closedBy (ensures_items ensures) <|
        .before isBounded_blanks (.word _)) <|
    .before (.word _) <| .before isBounded_blanks <| .map <|
      (Ensures.word _).mono fun _ _ _ none => nomatch none

end

private theorem ensures_member {value : Rule Tree}
    (ensures : value.Ensures Tree.IsSpelled) :
    (member value).Ensures fun member => member.2.IsSpelled :=
  have keyed {key : Rule CodeText} (bounded : key.IsBounded) :
      (key.andThen fun key => blanks.before <| (Rule.word [':']).before <|
        blanks.before (value.map (key, ·))).Ensures fun member =>
          member.2.IsSpelled :=
    .andThen bounded fun _ _ => .before isBounded_blanks <| .before (.word _) <|
      .before isBounded_blanks <| .map ensures
  .orElse (keyed isBounded_string) (keyed isBounded_name)

private theorem ensures_value (depth : Nat) :
    (value depth).Ensures Tree.IsSpelled := by
  induction depth with
  | zero => exact .giveUp
  | succ depth induction =>
      have constant {expected : List Char} {tree : Tree}
          (spelled : tree.IsSpelled) :
          ((Rule.word expected).map fun _ => tree).Ensures Tree.IsSpelled :=
        .map <| (Ensures.word _).mono fun _ _ => spelled
      exact .orElse (constant .null) <| .orElse (constant (.boolean true)) <|
        .orElse (constant (.boolean false)) <|
        .orElse (.map <|
          (ensures_bracketed _ _ (ensures_member induction)).mono
            fun _ => .object) <|
        .orElse
          (.map <| (ensures_bracketed _ _ induction).mono fun _ => .array) <|
        .orElse (.map <| isBounded_string.mono fun _ _ => .string _) <|
        .orElse ensures_number .fail

theorem ensures_document (depth : Nat) :
    (document depth).Ensures Tree.IsSpelled :=
  .before isBounded_blanks <| .closedBy (ensures_value _) <|
    .before isBounded_blanks <| .absent (.char fun _ _ => trivial) trivial

end Relaxed
end FencedJson.Json
