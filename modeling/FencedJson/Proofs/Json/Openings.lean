import FencedJson.Proofs.Json.Agreement

/-! # Brackets that stand open

In front of a value of a JSON text there may be brackets that are not closed
yet, each with items or members that are complete. Whatever stands open can be
closed behind any value, so that the front of a text with open brackets is the
front of a JSON text.
-/

namespace FencedJson.Json

/-! ## Items that are complete -/

section

variable {α : Type} {spells : α → List Char → Prop} {items : List α}
  {led : List Char}

/-- Texts in a row, each with blanks around it and a comma behind it, and blanks
behind the last comma. -/
def Led (spells : α → List Char → Prop) : List α → List Char → Prop
  | [], led => IsGap led
  | item :: rest,
      led => ∃ front back, IsPadded (spells item) front ∧ Led spells rest back ∧
      led = front ++ ',' :: back

theorem Led.widen {gap : List Char} (blank : IsGap gap)
    (leads : Led spells items led) :
    Led spells items (gap ++ led) := by
  cases items with
  | nil => exact blank.append leads
  | cons item rest =>
      rcases leads with ⟨front, back, first, others, rfl⟩
      exact ⟨gap ++ front, back, first.widen blank,
        others, by rw [List.append_assoc]⟩

theorem Led.close (leads : Led spells items led) {last : α}
    {inner after : List Char} (spelling : spells last inner)
    (blank : IsGap after) :
    Series spells (items ++ [last]) (led ++ (inner ++ after)) := by
  induction items generalizing led with
  | nil => exact ⟨led, inner, after, leads, spelling, blank, rfl⟩
  | cons item rest induction =>
      rcases leads with ⟨front, back, first, others, rfl⟩
      have tail := induction others
      rw [List.append_assoc, List.cons_append]
      cases rest with
      | nil => exact ⟨front, _, first, tail, rfl⟩
      | cons next rest => exact ⟨front, _, first, tail, rfl⟩

theorem led_exists_iff {β : Type} {spells : β → List Char → Prop}
    {good : β → Prop} {shown : β → α} :
    Led (fun item text => ∃ origin, good origin ∧ shown origin = item ∧
        spells origin text) items led ↔
      ∃ origins, (∀ origin ∈ origins, good origin) ∧ origins.map shown = items ∧
        Led spells origins led := by
  induction items generalizing led with
  | nil => simp [Led]
  | cons item rest induction =>
      constructor
      · rintro ⟨_, back,
          ⟨before, inner, after, first, ⟨origin, fits, rfl, spelling⟩, last,
            rfl⟩, others, rfl⟩
        rcases induction.1 others with ⟨origins, allFit, rfl, leads⟩
        exact ⟨origin :: origins, List.forall_mem_cons.2 ⟨fits, allFit⟩, rfl,
          _, back, ⟨before, inner, after, first, spelling, last, rfl⟩,
            leads, rfl⟩
      · rintro ⟨origins, allFit, same, leads⟩
        rcases List.map_eq_cons_iff.1 same with ⟨origin, others, rfl, rfl, rfl⟩
        rcases List.forall_mem_cons.1 allFit with ⟨fits, allFit⟩
        rcases leads with
          ⟨_, back, ⟨before, inner, after, first, spelling, last, rfl⟩,
            leads, rfl⟩
        exact ⟨_, back,
          ⟨before, inner, after, first, ⟨origin, fits, rfl, spelling⟩, last,
            rfl⟩, induction.2 ⟨others, allFit, rfl, leads⟩, rfl⟩

end

/-! ## Openings -/

/-- A bracket that stands open in front of a value, with what is complete in it.
-/
inductive Opening where
  | array (items : List Phrase)
  | object (members : List (List StringPart × Phrase)) (name : List StringPart)

namespace Opening

def Spells : Opening → List Char → Prop
  | array items, text => ∃ led, Led Phrase.Spells items led ∧ text = '[' :: led
  | object members name, text =>
      ∃ led before after, Led PairSpells members led ∧
      IsGap before ∧ IsGap after ∧
      text = '\x7b' :: (led ++ (quoted name ++ (before ++ ':' :: after)))

theorem exists_cons {opening : Opening} {front : List Char}
    (spells : opening.Spells front) :
    ∃ c left, front = c :: left ∧ (c = '[' ∨ c = '\x7b') := by
  cases opening with
  | array items =>
      rcases spells with ⟨led, -, rfl⟩
      exact ⟨'[', led, rfl, .inl rfl⟩
  | object members name =>
      rcases spells with ⟨led, before, after, -, -, -, rfl⟩
      exact ⟨'\x7b', _, rfl, .inr rfl⟩

def phrases : Opening → List Phrase
  | array items => items
  | object members _ => members.map Prod.snd

end Opening

/-- The openings, the outermost one first, may be written as the text. -/
def Opens : List Opening → List Char → Prop
  | [], text => text = []
  | opening :: rest, text =>
      ∃ front back, opening.Spells front ∧ Opens rest back ∧
      text = front ++ back

/-- The strict reader has room for the openings and what is complete in them. -/
def HasRoom : (depth : Nat) → List Opening → Prop
  | _, [] => True
  | 0, _ :: _ => False
  | depth + 1, opening :: rest =>
      (∀ phrase ∈ opening.phrases, phrase.Fits depth) ∧ HasRoom depth rest

theorem hasRoom_nil (depth : Nat) : HasRoom depth [] := by
  cases depth <;> trivial

/-- The front of a text can be completed to a JSON value. -/
def IsViable (front : List Char) : Prop :=
  ∃ (phrase : Phrase) (more : List Char), phrase.Spells (front ++ more)

theorem isViable_nil : IsViable [] := ⟨.null, _, rfl⟩

theorem Opening.isViable_append {opening : Opening} {front inner : List Char}
    (spells : opening.Spells front) (viable : IsViable inner) :
    IsViable (front ++ inner) := by
  rcases viable with ⟨phrase, more, spelling⟩
  cases opening with
  | array items =>
      rcases spells with ⟨led, leads, rfl⟩
      have series := leads.close spelling isGap_nil
      refine ⟨.array (items ++ [phrase]), more ++ [']'], _,
        spellItems_iff.2 series, ?_⟩
      simp only [List.cons_append, List.append_assoc, List.append_nil]
  | object members name =>
      rcases spells with ⟨led, before, after, leads, blank, blank', rfl⟩
      have member : PairSpells (name, phrase)
          (quoted name ++ (before ++ ':' :: (after ++ (inner ++ more)))) :=
        ⟨before, inner ++ more, after, blank, blank', spelling, rfl⟩
      have series := leads.close member isGap_nil
      refine ⟨.object (members ++ [(name, phrase)]), more ++ ['\x7d'], _,
        spellMembers_iff.2 series, ?_⟩
      simp only [List.cons_append, List.append_assoc, List.append_nil]

theorem Opens.isViable_append {openings : List Opening}
    {front inner : List Char} (opens : Opens openings front)
    (viable : IsViable inner) : IsViable (front ++ inner) := by
  induction openings generalizing front with
  | nil =>
      cases opens
      exact viable
  | cons opening rest induction =>
      rcases opens with ⟨first, back, spells, others, rfl⟩
      rw [List.append_assoc]
      exact Opening.isViable_append spells (induction others)

end FencedJson.Json
