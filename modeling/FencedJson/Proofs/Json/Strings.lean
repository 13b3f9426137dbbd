import FencedJson.Proofs.Json.Failure
import FencedJson.Proofs.Json.Phrase

/-! # Strings read

The reader of strings takes exactly what the grammar spells.
-/

namespace FencedJson.Json

/-! ## Code points -/

theorem CodePoint.surrogate_ofChar (c : Char) :
    (ofChar c).isHighSurrogate = false ∧ (ofChar c).isLowSurrogate = false := by
  have valid : c.toNat < 0xd800 ∨ 0xdfff < c.toNat ∧ c.toNat < 0x110000 :=
    c.valid
  rw [isHighSurrogate, isLowSurrogate, Bool.and_eq_false_iff,
    Bool.and_eq_false_iff, decide_eq_false_iff_not, decide_eq_false_iff_not,
    decide_eq_false_iff_not, decide_eq_false_iff_not]
  change (¬ 0xd800 ≤ c.toNat ∨ ¬ c.toNat < 0xdc00) ∧
    (¬ 0xdc00 ≤ c.toNat ∨ ¬ c.toNat < 0xe000)
  omega

namespace StringPart

private theorem exists_code_of_isLowSurrogate {part : StringPart}
    (low : part.point.isLowSurrogate) :
    ∃ a b c d, part = code a b c d := by
  cases part with
  | plain c | escape kind =>
      simp [point, (CodePoint.surrogate_ofChar _).2] at low
  | code a b c d => exact ⟨a, b, c, d, rfl⟩

end StringPart

@[simp] theorem decoded_nil : decoded [] = [] := rfl

theorem decoded_cons_of_paired {first second : StringPart}
    {parts : List StringPart} (high : first.point.isHighSurrogate)
    (low : second.point.isLowSurrogate) :
    decoded (first :: second :: parts) =
      CodePoint.join first.point second.point :: decoded parts := by
  simp [decoded, joinPairs, high, low]

theorem decoded_cons_of_unpaired {part : StringPart} {parts : List StringPart}
    (unpaired : part.point.isHighSurrogate →
      ∀ a b c d more, parts = .code a b c d :: more →
      (StringPart.code a b c d).point.isLowSurrogate = false) :
    decoded (part :: parts) = part.point :: decoded parts := by
  cases parts with
  | nil => rfl
  | cons second more =>
      have apart :
          ¬ (part.point.isHighSurrogate ∧ second.point.isLowSurrogate) := by
        rintro ⟨high, low⟩
        rcases StringPart.exists_code_of_isLowSurrogate low with
          ⟨a, b, c, d, rfl⟩
        rw [unpaired high a b c d more rfl] at low
        cases low
      simp only [decoded, List.map_cons, joinPairs, if_neg apart]

theorem decoded_cons_of_plain {part : StringPart}
    {parts : List StringPart} {c : Char} (plain : part.point = .ofChar c) :
    decoded (part :: parts) = .ofChar c :: decoded parts := by
  rw [decoded_cons_of_unpaired, plain]
  intro high
  rw [plain, (CodePoint.surrogate_ofChar c).1] at high
  cases high

@[simp] theorem spelled_nil : spelled [] = [] := rfl

theorem spelled_cons (part : StringPart) (parts : List StringPart) :
    spelled (part :: parts) = part.text ++ spelled parts := rfl

namespace Strict

/-- The reader takes something of this value off a text and leaves the rest. -/
def Reads {α : Type} (reader : Reader α) (text : List Char) (value : α)
    (rest : List Char) : Prop :=
  ∃ shorter, reader text = .ok ⟨value, rest, shorter⟩

theorem map_widen_eq_ok_iff {ε α β : Type} {inner text : List Char}
    {result : Except ε (Reading α inner)} {transform : α → β}
    {within : inner.length ≤ text.length} {value : β} {rest : List Char}
    {shorter : rest.length < text.length} :
    (result.map fun reading => (reading.map transform).widen within) =
        .ok ⟨value, rest, shorter⟩ ↔
      ∃ read innerShorter, result = .ok ⟨read, rest, innerShorter⟩ ∧
      transform read = value := by
  cases result with
  | error failure => simp [Except.map]
  | ok reading =>
      rcases reading with ⟨read, left, innerShorter⟩
      simp only [Except.map, Reading.map, Reading.widen, Except.ok.injEq,
        Reading.mk.injEq]
      constructor
      · rintro ⟨rfl, rfl⟩
        exact ⟨read, innerShorter, ⟨rfl, rfl⟩, rfl⟩
      · rintro ⟨read, -, ⟨rfl, rfl⟩, rfl⟩
        exact ⟨rfl, rfl⟩

/-! ## Strings -/

theorem simpleEscape?_eq_some_iff {letter c : Char} :
    simpleEscape? letter = some c ↔ ∃ kind : Escape, kind.letter = letter ∧
    kind.meaning = c := by
  constructor
  · intro found
    unfold simpleEscape? at found
    split at found <;> simp only [Option.some.injEq, reduceCtorEq]
      at found <;> subst found
    · exact ⟨.quotationMark, rfl, rfl⟩
    · exact ⟨.reverseSolidus, rfl, rfl⟩
    · exact ⟨.solidus, rfl, rfl⟩
    · exact ⟨.backspace, rfl, rfl⟩
    · exact ⟨.formFeed, rfl, rfl⟩
    · exact ⟨.lineFeed, rfl, rfl⟩
    · exact ⟨.carriageReturn, rfl, rfl⟩
    · exact ⟨.tab, rfl, rfl⟩
  · rintro ⟨kind, rfl, rfl⟩
    cases kind <;> rfl

theorem codeOf?_code (a b c d : HexDigit) :
    codeOf? a.val b.val c.val d.val = some (StringPart.code a b c d).point := by
  have value : ∀ digit : HexDigit, hexValue? digit.val = some digit.value :=
    fun digit =>
    (Option.some_get digit.property).symm
  simp [codeOf?, hexNumber?, value, StringPart.point]

theorem exists_code_of_codeOf? {a b c d : Char} {point : CodePoint}
    (found : codeOf? a b c d = some point) : ∃ e f g h : HexDigit,
      (StringPart.code e f g h).text = ['\\', 'u', a, b, c, d] ∧
      (StringPart.code e f g h).point = point := by
  have digits : (hexValue? a).isSome ∧ (hexValue? b).isSome ∧
      (hexValue? c).isSome ∧ (hexValue? d).isSome := by
    simp only [codeOf?, hexNumber?, Option.map_eq_some_iff] at found
    rcases found with ⟨number, ⟨values, digits, -⟩, -⟩
    simp only [List.mapM_cons, List.mapM_nil, Option.pure_def,
      Option.bind_eq_bind, Option.bind_eq_some_iff] at digits
    rcases digits with
      ⟨w, first, -, ⟨x, second, -, ⟨y, third, -, ⟨z, fourth, -⟩, -⟩, -⟩, -⟩
    simp [first, second, third, fourth]
  refine ⟨⟨a, digits.1⟩, ⟨b, digits.2.1⟩, ⟨c, digits.2.2.1⟩,
    ⟨d, digits.2.2.2⟩, rfl, ?_⟩
  rw [← Option.some.injEq, ← codeOf?_code, found]

theorem exists_parts_of_code {a b c d : Char} {point : CodePoint}
    {parts : List StringPart} (found : codeOf? a b c d = some point)
    (unpaired : point.isHighSurrogate →
      ∀ e f g h more, parts = .code e f g h :: more →
      (StringPart.code e f g h).point.isLowSurrogate = false)
      (rest : List Char) :
    ∃ all, '\\' :: 'u' :: a :: b :: c :: d :: (spelled parts ++ rest) =
      spelled all ++ rest ∧ point :: decoded parts = decoded all := by
  rcases exists_code_of_codeOf? found with ⟨w, x, y, z, text, rfl⟩
  refine ⟨.code w x y z :: parts, ?_, (decoded_cons_of_unpaired unpaired).symm⟩
  rw [spelled_cons, text]
  rfl

theorem isUnescaped_of_printable {c : Char} {left : List Char}
    (notQuote : c ≠ '"') (notLast : c = '\\' → left = [] → False)
    (notEscape : ∀ escaped others, c = '\\' → left = escaped :: others → False)
    (printable : ¬ c.toNat ≤ 0x1f) : IsUnescaped c := by
  refine ⟨by omega, notQuote, ?_⟩
  rintro rfl
  cases left with
  | nil => exact notLast rfl rfl
  | cons escaped others => exact notEscape escaped others rfl rfl

theorem spelled_of_stringBody {opening text rest : List Char} {value : CodeText}
    {shorter : rest.length < text.length}
    (read : stringBody opening text = .ok ⟨value, rest, shorter⟩) :
    ∃ parts, text = spelled parts ++ '"' :: rest ∧ value = decoded parts := by
  -- The cases are those of the reader, which looks at two codes at once. Where
  -- it takes only the first of them, the parts behind must not begin with a
  -- code that completes a pair.
  fun_induction stringBody opening text generalizing value rest with
  | case1 | case3 | case4 | case5 | case9 | case11 | case12 | case14 =>
      cases read
  | case2 rest =>
      cases read
      exact ⟨[], rfl, rfl⟩
  | case6 a b c d e f g h next left code firstFound high second secondFound
      low induction =>
      rcases map_widen_eq_ok_iff.1 read with ⟨tail, _, found, rfl⟩
      rcases induction found with ⟨parts, text, rfl⟩
      rcases exists_code_of_codeOf? firstFound with ⟨w, x, y, z, firstText, rfl⟩
      rcases exists_code_of_codeOf? secondFound with
        ⟨w', x', y', z', secondText, rfl⟩
      refine ⟨.code w x y z :: .code w' x' y' z' :: parts, ?_,
        (decoded_cons_of_paired high low).symm⟩
      rw [spelled_cons, spelled_cons, firstText, secondText, text]
      rfl
  | case7 a b c d e f g h next left code firstFound high second secondFound
      notLow induction =>
      rcases map_widen_eq_ok_iff.1 read with ⟨tail, _, found, rfl⟩
      rcases induction found with ⟨parts, text, rfl⟩
      rw [text]
      refine exists_parts_of_code firstFound (fun _ w x y z more same => ?_) _
      subst same
      simp only [spelled_cons, StringPart.text, List.cons_append,
        List.cons.injEq] at text
      rcases text with ⟨-, -, rfl, rfl, rfl, rfl, -⟩
      rw [codeOf?_code, Option.some.injEq] at secondFound
      simpa [secondFound] using notLow
  | case8 a b c d e f g h next left code firstFound notHigh induction =>
      rcases map_widen_eq_ok_iff.1 read with ⟨tail, _, found, rfl⟩
      rcases induction found with ⟨parts, text, rfl⟩
      rw [text]
      exact exists_parts_of_code firstFound (fun high => absurd high notHigh) _
  | case10 a b c d next left notPair code found induction =>
      rcases map_widen_eq_ok_iff.1 read with ⟨tail, _, found', rfl⟩
      rcases induction found' with ⟨parts, text, rfl⟩
      rw [text]
      refine exists_parts_of_code found (fun _ w x y z more same => ?_) _
      subst same
      simp only [spelled_cons, StringPart.text, List.cons_append,
        List.cons.injEq] at text
      cases following : spelled more ++ '"' :: rest with
      | nil => simp at following
      | cons c others =>
          exact (notPair _ _ _ _ c others text.1
            (by rw [text.2, List.nil_append, following])).elim
  | case13 letter left notPair notCode notU c found induction =>
      rcases map_widen_eq_ok_iff.1 read with ⟨tail, _, found', rfl⟩
      rcases induction found' with ⟨parts, text, rfl⟩
      rcases simpleEscape?_eq_some_iff.1 found with ⟨kind, rfl, rfl⟩
      refine ⟨.escape kind :: parts, ?_, (decoded_cons_of_plain rfl).symm⟩
      rw [spelled_cons, text]
      rfl
  | case15 c left notQuote notLast notPair notCode notU notEscape
      printable induction =>
      rcases map_widen_eq_ok_iff.1 read with ⟨tail, _, found', rfl⟩
      rcases induction found' with ⟨parts, text, rfl⟩
      have unescaped :=
        isUnescaped_of_printable notQuote notLast notEscape printable
      refine ⟨.plain c unescaped :: parts, ?_, (decoded_cons_of_plain rfl).symm⟩
      rw [spelled_cons, text]
      rfl

section

variable {opening text rest : List Char} {value : CodeText}

theorem reads_plain {c : Char} (unescaped : IsUnescaped c)
    (read : Reads (stringBody opening) text value rest) :
    Reads (stringBody opening) (c :: text) (.ofChar c :: value) rest := by
  rcases read with ⟨shorter, read⟩
  rcases unescaped with ⟨printable, notQuote, notEscape⟩
  refine ⟨Nat.lt_succ_of_lt shorter, ?_⟩
  have low : ¬ c.toNat ≤ 0x1f := by omega
  rw [stringBody, if_neg low]
  · exact map_widen_eq_ok_iff.2 ⟨value, shorter, read, rfl⟩
  all_goals simp [notQuote, notEscape]

theorem reads_escape (kind : Escape)
    (read : Reads (stringBody opening) text value rest) :
    Reads (stringBody opening) ('\\' :: kind.letter :: text)
    (.ofChar kind.meaning :: value) rest := by
  rcases read with ⟨shorter, read⟩
  refine ⟨Nat.lt_succ_of_lt (Nat.lt_succ_of_lt shorter), ?_⟩
  have notU : kind.letter ≠ 'u' := by cases kind <;> decide
  have found : simpleEscape? kind.letter = some kind.meaning :=
    simpleEscape?_eq_some_iff.2 ⟨kind, rfl, rfl⟩
  rw [stringBody, found]
  · exact map_widen_eq_ok_iff.2 ⟨value, shorter, read, rfl⟩
  all_goals simp [notU]

theorem reads_pair {a b c d e f g h : HexDigit}
    (high : (StringPart.code a b c d).point.isHighSurrogate)
    (low : (StringPart.code e f g h).point.isLowSurrogate)
    (read : Reads (stringBody opening) text value rest) :
    Reads (stringBody opening)
      ((StringPart.code a b c d).text ++
        ((StringPart.code e f g h).text ++ text))
      (CodePoint.join (StringPart.code a b c d).point
        (StringPart.code e f g h).point :: value)
      rest := by
  rcases read with ⟨shorter, read⟩
  have longer : rest.length < ((StringPart.code a b c d).text ++
      ((StringPart.code e f g h).text ++ text)).length := by
    rw [List.length_append, List.length_append]
    omega
  refine ⟨longer, ?_⟩
  cases text with
  | nil => simp at shorter
  | cons next left =>
      simp only [StringPart.text, List.cons_append, List.nil_append]
      rw [stringBody]
      simp only [codeOf?_code, high, low, if_true]
      exact map_widen_eq_ok_iff.2 ⟨value, shorter, read, rfl⟩

theorem reads_code_before {a b c d : HexDigit} {next : Char} {left : List Char}
    (other : ∀ more, next = '\\' → left ≠ 'u' :: more)
    (read : Reads (stringBody opening) (next :: left) value rest) :
    Reads (stringBody opening) ((StringPart.code a b c d).text ++ next :: left)
      ((StringPart.code a b c d).point :: value) rest := by
  rcases read with ⟨shorter, read⟩
  refine ⟨by rw [List.length_append]; omega, ?_⟩
  simp only [StringPart.text, List.cons_append, List.nil_append]
  rw [stringBody, codeOf?_code]
  · exact map_widen_eq_ok_iff.2 ⟨value, shorter, read, rfl⟩
  · intro e f g h last others escape same
    exact other _ escape same

private theorem reads_code_before_code {a b c d e f g h : HexDigit}
    (unpaired : (StringPart.code a b c d).point.isHighSurrogate →
      (StringPart.code e f g h).point.isLowSurrogate = false) {next : Char}
      {left : List Char}
    (read : Reads (stringBody opening)
      ((StringPart.code e f g h).text ++ next :: left) value rest) :
    Reads (stringBody opening)
      ((StringPart.code a b c d).text ++
        ((StringPart.code e f g h).text ++ next :: left))
      ((StringPart.code a b c d).point :: value) rest := by
  rcases read with ⟨shorter, read⟩
  refine ⟨by rw [List.length_append]; omega, ?_⟩
  simp only [StringPart.text, List.cons_append, List.nil_append]
    at read shorter ⊢
  rw [stringBody]
  by_cases high : (StringPart.code a b c d).point.isHighSurrogate
  · simp only [codeOf?_code, high, unpaired high, if_true,
      Bool.false_eq_true, if_false]
    exact map_widen_eq_ok_iff.2 ⟨value, shorter, read, rfl⟩
  · simp only [codeOf?_code, high, Bool.false_eq_true, if_false]
    exact map_widen_eq_ok_iff.2 ⟨value, shorter, read, rfl⟩

theorem reads_code {a b c d : HexDigit} {parts : List StringPart}
    (unpaired : (StringPart.code a b c d).point.isHighSurrogate →
      ∀ e f g h more, parts = .code e f g h :: more →
        (StringPart.code e f g h).point.isLowSurrogate = false)
    (read : Reads (stringBody opening)
      (spelled parts ++ '"' :: text) value rest) :
    Reads (stringBody opening)
    ((StringPart.code a b c d).text ++ (spelled parts ++ '"' :: text))
      ((StringPart.code a b c d).point :: value) rest := by
  cases parts with
  | nil => exact reads_code_before (by simp) read
  | cons part more =>
      rw [spelled_cons, List.append_assoc] at read ⊢
      cases part with
      | plain c unescaped =>
          exact reads_code_before
            (fun _ escape => absurd escape unescaped.2.2) read
      | escape kind =>
          refine reads_code_before (fun others _ same => ?_) read
          cases kind <;> simp [Escape.letter] at same
      | code e f g h =>
          cases following : spelled more ++ '"' :: text with
          | nil => simp at following
          | cons next left =>
              rw [following] at read
              exact reads_code_before_code
                (fun high => unpaired high _ _ _ _ _ rfl) read

end

theorem reads_spelled (opening rest : List Char) (parts : List StringPart) :
    Reads (stringBody opening) (spelled parts ++ '"' :: rest)
    (decoded parts) rest := by
  match parts with
  | [] =>
      change Reads (stringBody opening) ('"' :: rest) [] rest
      exact ⟨Nat.lt_succ_self _, by rw [stringBody]⟩
  | .plain c unescaped :: more =>
      rw [decoded_cons_of_plain rfl]
      exact reads_plain unescaped (reads_spelled opening rest more)
  | .escape kind :: more =>
      rw [decoded_cons_of_plain rfl]
      exact reads_escape kind (reads_spelled opening rest more)
  | .code a b c d :: more =>
      by_cases paired : (StringPart.code a b c d).point.isHighSurrogate ∧
          ∃ e f g h left, more = .code e f g h :: left ∧
            (StringPart.code e f g h).point.isLowSurrogate
      · rcases paired with ⟨high, e, f, g, h, left, same, low⟩
        have shorter : left.length < more.length + 1 := by
          rw [same, List.length_cons]; omega
        rw [same, decoded_cons_of_paired high low, spelled_cons, spelled_cons,
          List.append_assoc, List.append_assoc]
        exact reads_pair high low (reads_spelled opening rest left)
      · have unpaired : (StringPart.code a b c d).point.isHighSurrogate →
            ∀ e f g h left, more = .code e f g h :: left →
              (StringPart.code e f g h).point.isLowSurrogate = false := by
          intro high e f g h left same
          rw [← Bool.not_eq_true]
          exact fun low => paired ⟨high, e, f, g, h, left, same, low⟩
        rw [decoded_cons_of_unpaired unpaired, spelled_cons, List.append_assoc]
        exact reads_code unpaired (reads_spelled opening rest more)
termination_by parts.length
decreasing_by all_goals simp_wf <;> omega

end Strict
end FencedJson.Json
