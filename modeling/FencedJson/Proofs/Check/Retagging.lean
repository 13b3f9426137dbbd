import FencedJson.Proofs.Check.Verdict
import FencedJson.Proofs.Json.Extension

/-! # Blocks in another language

A block of strict JSON stays fine when it is marked as relaxed JSON.
-/

namespace FencedJson

def Node.inLanguage (lang : String) : Node → Node
  | mk type _ value line children => mk type (some lang) value line children

namespace Check

section

variable {stack : Stack} {block : Node} {value : Json.Value}

private theorem validate_inLanguage_strict
    (parsed : Json.Strict.parse stack (blockText block) = .ok value) :
    validate (.standard stack) (block.inLanguage "json") = .ok none := by
  have strict : isStrict (block.inLanguage "json") = true := by cases block; rfl
  have text : blockText (block.inLanguage "json") = blockText block := by
    cases block; rfl
  simp [validate, strict, text, Parsers.standard, Parsers.acceptStrict, parsed]

private theorem validate_inLanguage_relaxed
    (parsed : Json.Relaxed.parse stack (blockText block) = .ok value) :
    validate (.standard stack) (block.inLanguage "json5") = .ok none := by
  have relaxed : isStrict (block.inLanguage "json5") = false := by
    cases block; rfl
  have text : blockText (block.inLanguage "json5") = blockText block := by
    cases block; rfl
  simp [validate, relaxed, text, Parsers.standard,
    Parsers.acceptRelaxed, parsed]

end

/-- Every text that the strict parser accepts, with no more than twenty brackets
open at a time, is accepted by the relaxed parser as well where there is room
for it, so that a block of it is fine in either language. The values are the
same when no escape of the text writes a surrogate. -/
theorem relaxed_extends_strict {stack : Stack} {text : String}
    {value : Json.Value} (room : 20 < stack.relaxedLevels text)
    (shallow : ∀ phrase : Json.Phrase, phrase.IsTextOf text →
      phrase.nesting ≤ 20)
    (parsed : Json.Strict.parse stack text = .ok value) :
    (∃ value', Json.Relaxed.parse stack text = .ok value' ∧
      ((∀ phrase : Json.Phrase, phrase.IsTextOf text → phrase.IsWhole) →
        value' = value)) ∧
    ∀ block : Node, blockText block = text →
      validate (.standard stack) (block.inLanguage "json") = .ok none ∧
        validate (.standard stack) (block.inLanguage "json5") = .ok none := by
  rcases Json.Strict.exists_phrase_of_parse parsed with
    ⟨phrase, isText, fits, denotes⟩
  replace fits : phrase.Fits 20 := ⟨shallow phrase isText, fits.short⟩
  rcases Json.Relaxed.parse_of_isTextOf isText fits room with
    ⟨value', relaxed, same⟩
  constructor
  · exact ⟨value', relaxed, fun whole =>
      (same (whole phrase isText)).trans denotes⟩
  · rintro block rfl
    exact ⟨validate_inLanguage_strict parsed,
      validate_inLanguage_relaxed relaxed⟩

theorem relaxed_extends_strict_escape :
    let text := "\x7b\"a\": [1, \"\\/\"]\x7d"
    let value : Json.Value :=
      .object [([97], .array [.integer 1, .string [47]])]
    20 < Stack.standard.relaxedLevels text ∧
      (∀ phrase : Json.Phrase, phrase.IsTextOf text → phrase.nesting ≤ 20 ∧
        phrase.IsWhole) ∧
      Json.Strict.parse .standard text = .ok value ∧
      Json.Relaxed.parse .standard text = .ok value ∧
      validate (.standard .standard) (.codeBlock text (some "json5") 1) =
        .ok none := by
  intro text value
  have shallow (phrase : Json.Phrase) (isText : phrase.IsTextOf text) :
      phrase.nesting ≤ 20 :=
    (isText.fits_of_le (by decide) (by decide)).shallow
  have whole (phrase : Json.Phrase) (isText : phrase.IsTextOf text) :
      phrase.IsWhole :=
    isText.isWhole (by decide)
  have room : 20 < Stack.standard.relaxedLevels text := by decide
  have parsed : Json.Strict.parse .standard text = .ok value := by
    decide +kernel
  rcases relaxed_extends_strict room shallow parsed with
    ⟨⟨value', relaxed, same⟩, fine⟩
  rw [same whole] at relaxed
  exact ⟨room, fun phrase isText =>
    ⟨shallow phrase isText, whole phrase isText⟩, parsed, relaxed,
    (fine (.codeBlock text (some "json") 1) rfl).2⟩

end Check
end FencedJson
