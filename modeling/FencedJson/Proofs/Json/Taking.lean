import FencedJson.Json.Relaxed

/-! # What rules take and refuse

A rule takes something off the front of a text or refuses the text. For each way
of joining rules it is told what the joined rule takes and refuses.
-/

namespace FencedJson.Json.Rule

variable {α β : Type}

/-- The rule takes something of this value off a text and leaves the rest. -/
def Takes (rule : Rule α) (text : List Char) (value : α) (rest : List Char) :
    Prop :=
  ∃ found, (rule text).outcome = .matched found ∧ found.value = value ∧
  found.rest = rest

def Refuses (rule : Rule α) (text : List Char) : Prop :=
  (rule text).outcome = .refused

theorem Takes.length_le {rule : Rule α} {text rest : List Char} {value : α}
    (takes : rule.Takes text value rest) : rest.length ≤ text.length := by
  rcases takes with ⟨found, -, -, rfl⟩
  rw [found.length_rest]
  exact Nat.sub_le _ _

/-! ## Characters -/

theorem takes_pure (value : α) (text : List Char) :
    (pure value).Takes text value text :=
  ⟨_, rfl, rfl, rfl⟩

theorem refuses_fail (text : List Char) : (fail : Rule α).Refuses text := rfl

theorem takes_char {test : Char → Bool} {c : Char} (holds : test c)
    (rest : List Char) :
    (char test).Takes (c :: rest) c rest := by
  refine ⟨⟨c, 1, rest, by simp, rfl⟩, ?_, rfl, rfl⟩
  simp only [char, if_pos holds]

theorem refuses_char {test : Char → Bool} {text : List Char}
    (fails : ∀ c ∈ text.head?, test c = false) : (char test).Refuses text := by
  cases text with
  | nil => rfl
  | cons c rest => simp [Refuses, char, fails c rfl]

theorem refuses_charThen {test : Char → Bool} {text : List Char}
    (fails : ∀ c ∈ text.head?, test c = false) :
    (charThen test).Refuses text := by
  cases text with
  | nil => rfl
  | cons c rest => simp [Refuses, charThen, fails c rfl]

/-! ## Rules in a row -/

section

variable {rule first : Rule α} {next : α → Rule β} {second : Rule β}
  {text middle rest : List Char} {value : α} {made : β}

theorem Takes.map (takes : rule.Takes text value rest) (transform : α → β) :
    (rule.map transform).Takes text (transform value) rest := by
  rcases takes with ⟨found, outcome, rfl, rfl⟩
  refine ⟨found.map transform, ?_, rfl, rfl⟩
  simp only [Rule.map, outcome]

theorem Refuses.map (refuses : rule.Refuses text) (transform : α → β) :
    (rule.map transform).Refuses text := by
  unfold Refuses at refuses
  simp only [Refuses, Rule.map, refuses]

theorem Takes.andThen (takes : first.Takes text value middle)
    (further : (next value).Takes middle made rest) :
    (first.andThen next).Takes text made rest := by
  rcases takes with ⟨found, outcome, rfl, rfl⟩
  rcases further with ⟨behind, outcome', rfl, rfl⟩
  refine ⟨found.followedBy behind, ?_, rfl, rfl⟩
  simp only [Rule.andThen, outcome, outcome']

private theorem Takes.andThen_refuses (takes : first.Takes text value middle)
    (further : (next value).Refuses middle) :
    (first.andThen next).Refuses text := by
  rcases takes with ⟨found, outcome, rfl, rfl⟩
  unfold Refuses at further
  simp only [Refuses, Rule.andThen, outcome, further]

theorem Refuses.andThen (refuses : first.Refuses text) (next : α → Rule β) :
    (first.andThen next).Refuses text := by
  unfold Refuses at refuses
  simp only [Refuses, Rule.andThen, refuses]

theorem Takes.before (takes : first.Takes text value middle)
    (further : second.Takes middle made rest) :
    (first.before second).Takes text made rest :=
  takes.andThen further

theorem Takes.before_refuses (takes : first.Takes text value middle)
    (further : second.Refuses middle) : (first.before second).Refuses text :=
  takes.andThen_refuses further

theorem Refuses.before (refuses : first.Refuses text) (second : Rule β) :
    (first.before second).Refuses text :=
  refuses.andThen _

theorem Takes.closedBy (takes : first.Takes text value middle)
    (further : second.Takes middle made rest) :
    (first.closedBy second).Takes text value rest :=
  takes.andThen (further.map fun _ => value)

theorem Refuses.closedBy (refuses : first.Refuses text) (second : Rule β) :
    (first.closedBy second).Refuses text :=
  refuses.andThen _

end

/-! ## Choices -/

section

variable {rule first second : Rule α} {rules : List (Rule α)}
  {text rest : List Char} {value : α}

theorem Takes.orElse (takes : first.Takes text value rest) (second : Rule α) :
    (first.orElse second).Takes text value rest := by
  rcases takes with ⟨found, outcome, rfl, rfl⟩
  refine ⟨found, ?_, rfl, rfl⟩
  simp only [Rule.orElse, outcome]

theorem Refuses.orElse_takes (refuses : first.Refuses text)
    (takes : second.Takes text value rest) :
    (first.orElse second).Takes text value rest := by
  rcases takes with ⟨found, outcome, rfl, rfl⟩
  unfold Refuses at refuses
  refine ⟨found, ?_, rfl, rfl⟩
  simp only [Rule.orElse, refuses, outcome]

theorem Refuses.orElse (refuses : first.Refuses text)
    (refuses' : second.Refuses text) :
    (first.orElse second).Refuses text := by
  unfold Refuses at refuses refuses'
  simp only [Refuses, Rule.orElse, refuses, refuses']

theorem Takes.firstOf (takes : rule.Takes text value rest)
    (rules : List (Rule α)) :
    (firstOf (rule :: rules)).Takes text value rest :=
  takes.orElse (Rule.firstOf rules)

theorem Refuses.firstOf_takes (refuses : rule.Refuses text)
    (takes : (firstOf rules).Takes text value rest) :
    (firstOf (rule :: rules)).Takes text value rest :=
  refuses.orElse_takes takes

theorem refuses_firstOf (refuses : ∀ rule ∈ rules, rule.Refuses text) :
    (firstOf rules).Refuses text := by
  induction rules with
  | nil => rfl
  | cons rule rules induction =>
      rcases List.forall_mem_cons.1 refuses with ⟨head, tail⟩
      exact head.orElse (induction tail)

theorem takes_firstOf_append {others : List (Rule α)}
    (refuses : ∀ rule ∈ rules, rule.Refuses text)
    (takes : (firstOf others).Takes text value rest) :
    (firstOf (rules ++ others)).Takes text value rest := by
  induction rules with
  | nil => exact takes
  | cons rule rules induction =>
      rcases List.forall_mem_cons.1 refuses with ⟨head, tail⟩
      exact head.firstOf_takes (induction tail)

theorem Refuses.absent (refuses : rule.Refuses text) :
    (absent rule).Takes text () text := by
  unfold Refuses at refuses
  refine ⟨.empty () text, ?_, rfl, rfl⟩
  simp only [Rule.absent, refuses]

theorem Takes.absent (takes : rule.Takes text value rest) :
    (absent rule).Refuses text := by
  rcases takes with ⟨found, outcome, -, -⟩
  simp only [Refuses, Rule.absent, outcome]

theorem Refuses.optional (refuses : rule.Refuses text) :
    (optional rule).Takes text none text :=
  (refuses.map Option.some).orElse_takes (takes_pure none text)

theorem Takes.optional (takes : rule.Takes text value rest) :
    (optional rule).Takes text (Option.some value) rest :=
  (takes.map Option.some).orElse (pure none)

/-! ## Repetitions -/

theorem Refuses.many (refuses : rule.Refuses text) :
    (many rule).Takes text [] text := by
  unfold Refuses at refuses
  refine ⟨.empty [] text, ?_, rfl, rfl⟩
  rw [Rule.many, refuses]

theorem Takes.many {middle : List Char} {values : List α}
    (takes : rule.Takes text value middle)
    (progress : middle.length < text.length)
    (further : (many rule).Takes middle values rest) :
    (many rule).Takes text (value :: values) rest := by
  rcases takes with ⟨found, outcome, rfl, rfl⟩
  rcases further with ⟨others, outcome', rfl, rfl⟩
  have moved : found.size ≠ 0 := by
    have := found.length_rest
    omega
  refine ⟨(found.followedBy others).map (found.value :: ·), ?_, rfl, rfl⟩
  rw [Rule.many, outcome]
  dsimp only
  rw [dif_neg moved, outcome']

end

/-! ## Words -/

theorem takes_word (letters rest : List Char) :
    (word letters).Takes (letters ++ rest) () rest := by
  induction letters with
  | nil => exact takes_pure () rest
  | cons c letters induction =>
      exact (takes_char (decide_eq_true rfl) _).before induction

theorem refuses_word {c : Char} {text : List Char}
    (differs : text.head? ≠ Option.some c) (letters : List Char) :
    (word (c :: letters)).Refuses text := by
  apply Refuses.before
  apply refuses_char
  intro d first
  apply decide_eq_false
  rintro rfl
  exact differs first

end FencedJson.Json.Rule
