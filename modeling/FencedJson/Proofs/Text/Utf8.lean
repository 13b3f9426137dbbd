import FencedJson.Text.Utf8
import Mathlib.Tactic.SplitIfs

/-! # Decoding and encoding

Decoding accepts just the bytes that some text is encoded as, and gives that
text back.
-/

namespace FencedJson.Utf8

open String (utf8EncodeChar)

/-! ## Sequences of one character -/

section

variable {c : Char} {first second third fourth : UInt8}

theorem toNat_valid (c : Char) : c.toNat < 0xd800 ∨ 0xdfff < c.toNat ∧
    c.toNat < 0x110000 := c.valid

theorem val_toNat (c : Char) : c.val.toNat = c.toNat := rfl

theorem ofNat_eq_iff {n : Nat} (small : n < 256) : UInt8.ofNat n = first ↔
    n = first.toNat := by
  rw [← UInt8.toNat_inj, UInt8.toNat_ofNat', Nat.mod_eq_of_lt small]

theorem encode_eq_one_iff : utf8EncodeChar c = [first] ↔
    first.toNat < 0x80 ∧ c.toNat = first.toNat := by
  have small := first.toNat_lt
  simp only [utf8EncodeChar, val_toNat]
  split_ifs <;> simp (disch := omega) only [List.cons.injEq,
    ofNat_eq_iff, reduceCtorEq, and_true, and_false, false_iff] <;> omega

theorem encode_eq_two_iff : utf8EncodeChar c = [first, second] ↔
    0xc2 ≤ first.toNat ∧ first.toNat < 0xe0 ∧ 0x80 ≤ second.toNat ∧
    second.toNat ≤ 0xbf ∧
      c.toNat = (first.toNat - 0xc0) * 64 + (second.toNat - 0x80) := by
  have small := first.toNat_lt
  simp only [utf8EncodeChar, val_toNat]
  split_ifs <;> simp (disch := omega) only [List.cons.injEq,
    ofNat_eq_iff, reduceCtorEq, and_true, and_false, false_iff] <;> omega

theorem encode_eq_three_iff : utf8EncodeChar c = [first, second, third] ↔
    0xe0 ≤ first.toNat ∧ first.toNat < 0xf0 ∧
      (if first.toNat = 0xe0 then 0xa0 else 0x80) ≤ second.toNat ∧
      second.toNat ≤ (if first.toNat = 0xed then 0x9f else 0xbf) ∧
      0x80 ≤ third.toNat ∧ third.toNat ≤ 0xbf ∧
      c.toNat = ((first.toNat - 0xe0) * 64 + (second.toNat - 0x80)) * 64 +
        (third.toNat - 0x80) := by
  have small := first.toNat_lt
  have valid := toNat_valid c
  simp only [utf8EncodeChar, val_toNat]
  split_ifs <;> simp (disch := omega) only [List.cons.injEq,
    ofNat_eq_iff, reduceCtorEq, and_true, and_false, false_iff] <;> omega

theorem encode_eq_four_iff : utf8EncodeChar c = [first, second, third, fourth] ↔
    0xf0 ≤ first.toNat ∧ first.toNat < 0xf5 ∧
      (if first.toNat = 0xf0 then 0x90 else 0x80) ≤ second.toNat ∧
      second.toNat ≤ (if first.toNat = 0xf4 then 0x8f else 0xbf) ∧
      0x80 ≤ third.toNat ∧ third.toNat ≤ 0xbf ∧ 0x80 ≤ fourth.toNat ∧
      fourth.toNat ≤ 0xbf ∧ c.toNat =
        (((first.toNat - 0xf0) * 64 + (second.toNat - 0x80)) * 64 +
          (third.toNat - 0x80)) * 64 + (fourth.toNat - 0x80) := by
  have small := first.toNat_lt
  have valid := toNat_valid c
  simp only [utf8EncodeChar, val_toNat]
  split_ifs <;> simp (disch := omega) only [List.cons.injEq,
    ofNat_eq_iff, reduceCtorEq, and_true, and_false, false_iff] <;> omega

theorem exists_encode_eq (c : Char) : (∃ first, utf8EncodeChar c = [first]) ∨
    (∃ first second, utf8EncodeChar c = [first, second]) ∨
    (∃ first second third, utf8EncodeChar c = [first, second, third]) ∨
    ∃ first second third fourth, utf8EncodeChar c =
      [first, second, third, fourth] := by
  simp only [utf8EncodeChar]
  split_ifs
  · exact .inl ⟨_, rfl⟩
  · exact .inr (.inl ⟨_, _, rfl⟩)
  · exact .inr (.inr (.inl ⟨_, _, _, rfl⟩))
  · exact .inr (.inr (.inr ⟨_, _, _, _, rfl⟩))

theorem exists_char (point : Nat)
    (valid : point < 0xd800 ∨ 0xdfff < point ∧ point < 0x110000) :
    ∃ c : Char, c.toNat = point :=
  ⟨Char.ofNatAux point valid, rfl⟩

/-! ## Reading a sequence -/

theorem follow?_eq (first : UInt8) : follow? first =
    if first.toNat < 0x80 then some (first.toNat, [])
    else if first.toNat < 0xc2 then none
    else if first.toNat < 0xe0 then some (first.toNat - 0xc0, [(0x80, 0xbf)])
    else if first.toNat < 0xf0 then some (first.toNat - 0xe0,
      [(if first.toNat = 0xe0 then 0xa0 else 0x80,
        if first.toNat = 0xed then 0x9f else 0xbf), (0x80, 0xbf)])
    else if first.toNat < 0xf5 then some (first.toNat - 0xf0,
      [(if first.toNat = 0xf0 then 0x90 else 0x80,
        if first.toNat = 0xf4 then 0x8f else 0xbf), (0x80, 0xbf), (0x80, 0xbf)])
    else none := by
  simp only [follow?, UInt8.lt_iff_toNat_lt, ← UInt8.toNat_inj,
    UInt8.reduceToNat]
  grind

theorem complete_nil_eq_ok_iff {code right point : Nat} {bytes : List UInt8} :
    complete code [] right bytes = .ok point ↔ code = point := by
  rw [complete, Except.ok.injEq]

theorem complete_cons_eq_ok_iff {code right point : Nat} {low high : UInt8}
    {bounds : List (UInt8 × UInt8)} {bytes : List UInt8} :
    complete code ((low, high) :: bounds) right bytes = .ok point ↔
      ∃ byte rest, bytes = byte :: rest ∧ low.toNat ≤ byte.toNat ∧
      byte.toNat ≤ high.toNat ∧
        complete (code * 64 + (byte.toNat - 0x80)) bounds (right + 1) rest =
          .ok point := by
  cases bytes with
  | nil => simp [complete]
  | cons byte rest =>
      rw [complete]
      constructor
      · split_ifs with within
        · exact fun completed =>
            ⟨byte, rest, rfl, within.1, within.2, completed⟩
        · exact nofun
      · rintro ⟨byte, rest, same, low, high, completed⟩
        cases same
        rwa [if_pos ⟨low, high⟩]

theorem exists_char_of_complete {code point : Nat}
    {bounds : List (UInt8 × UInt8)} {rest : List UInt8}
    (leads : follow? first = some (code, bounds))
    (completed : complete code bounds 0 rest = .ok point) :
    ∃ c : Char, c.toNat = point ∧
      first :: rest = utf8EncodeChar c ++ rest.drop bounds.length := by
  -- By the number of bytes that the first one announces. The bounds of the
  -- second byte keep out what has a shorter encoding, halves of pairs and what
  -- is no code point.
  rw [follow?_eq] at leads
  split at leads
  · next one =>
      cases leads
      have ends := complete_nil_eq_ok_iff.1 completed
      rcases exists_char point (.inl (by omega)) with ⟨c, rfl⟩
      exact ⟨c, rfl, by rw [encode_eq_one_iff.2 ⟨one, ends.symm⟩]; rfl⟩
  · split at leads
    · cases leads
    split at leads
    · next two =>
        rcases Prod.mk.inj (Option.some.inj leads) with ⟨rfl, rfl⟩
        rcases complete_cons_eq_ok_iff.1 completed with
          ⟨second, rest, rfl, low, high, completed⟩
        have ends := complete_nil_eq_ok_iff.1 completed
        simp only [UInt8.reduceToNat] at low high
        rcases exists_char point (.inl (by omega)) with ⟨c, rfl⟩
        refine ⟨c, rfl, ?_⟩
        rw [encode_eq_two_iff.2 ⟨by omega, two, low, high, ends.symm⟩]
        rfl
    split at leads
    · next three =>
        rcases Prod.mk.inj (Option.some.inj leads) with ⟨rfl, rfl⟩
        rcases complete_cons_eq_ok_iff.1 completed with
          ⟨second, rest, rfl, low, high, completed⟩
        rcases complete_cons_eq_ok_iff.1 completed with
          ⟨third, rest, rfl, low', high', completed⟩
        have ends := complete_nil_eq_ok_iff.1 completed
        simp only [apply_ite UInt8.toNat, UInt8.reduceToNat]
          at low high low' high'
        rcases exists_char point (by split_ifs at low high <;> omega) with
          ⟨c, rfl⟩
        refine ⟨c, rfl, ?_⟩
        rw [encode_eq_three_iff.2
          ⟨by omega, three, low, high, low', high', ends.symm⟩]
        rfl
    split at leads
    · next four =>
        rcases Prod.mk.inj (Option.some.inj leads) with ⟨rfl, rfl⟩
        rcases complete_cons_eq_ok_iff.1 completed with
          ⟨second, rest, rfl, low, high, completed⟩
        rcases complete_cons_eq_ok_iff.1 completed with
          ⟨third, rest, rfl, low', high', completed⟩
        rcases complete_cons_eq_ok_iff.1 completed with
          ⟨fourth, rest, rfl, low'', high'', completed⟩
        have ends := complete_nil_eq_ok_iff.1 completed
        simp only [apply_ite UInt8.toNat, UInt8.reduceToNat]
          at low high low' high' low'' high''
        rcases exists_char point (by split_ifs at low high <;> omega) with
          ⟨c, rfl⟩
        refine ⟨c, rfl, ?_⟩
        rw [encode_eq_four_iff.2
          ⟨by omega, four, low, high, low', high', low'', high'', ends.symm⟩]
        rfl
    · cases leads

theorem exists_follow_of_encode {c : Char} {tail : List UInt8}
    (encoded : utf8EncodeChar c = first :: tail) (behind : List UInt8) :
    ∃ code bounds, follow? first = some (code, bounds) ∧
    bounds.length = tail.length ∧
      complete code bounds 0 (tail ++ behind) = .ok c.toNat := by
  have parts := exists_encode_eq c
  rw [encoded] at parts
  rw [follow?_eq]
  rcases parts with ⟨_, same⟩ | ⟨_, second, same⟩ | ⟨_, second, third, same⟩ |
    ⟨_, second, third, fourth, same⟩ <;> cases same
  · rcases encode_eq_one_iff.1 encoded with ⟨one, point⟩
    rw [if_pos one]
    exact ⟨_, _, rfl, rfl, complete_nil_eq_ok_iff.2 point.symm⟩
  · rcases encode_eq_two_iff.1 encoded with ⟨lead, two, low, high, point⟩
    rw [if_neg (by omega), if_neg (by omega), if_pos two]
    refine ⟨_, _, rfl, rfl, complete_cons_eq_ok_iff.2
      ⟨second, _, rfl, low, high, ?_⟩⟩
    exact complete_nil_eq_ok_iff.2 point.symm
  · rcases encode_eq_three_iff.1 encoded with
      ⟨lead, three, low, high, low', high', point⟩
    rw [if_neg (by omega), if_neg (by omega), if_neg (by omega), if_pos three]
    refine ⟨_, _, rfl, rfl, complete_cons_eq_ok_iff.2
      ⟨second, _, rfl, ?_, ?_, ?_⟩⟩
    · rwa [apply_ite UInt8.toNat]
    · rwa [apply_ite UInt8.toNat]
    · refine complete_cons_eq_ok_iff.2 ⟨third, _, rfl, low', high', ?_⟩
      exact complete_nil_eq_ok_iff.2 point.symm
  · rcases encode_eq_four_iff.1 encoded with
      ⟨lead, four, low, high, low', high', low'', high'', point⟩
    rw [if_neg (by omega), if_neg (by omega), if_neg (by omega),
      if_neg (by omega), if_pos four]
    refine ⟨_, _, rfl, rfl, complete_cons_eq_ok_iff.2
      ⟨second, _, rfl, ?_, ?_, ?_⟩⟩
    · rwa [apply_ite UInt8.toNat]
    · rwa [apply_ite UInt8.toNat]
    · refine complete_cons_eq_ok_iff.2 ⟨third, _, rfl, low', high', ?_⟩
      refine complete_cons_eq_ok_iff.2 ⟨fourth, _, rfl, low'', high'', ?_⟩
      exact complete_nil_eq_ok_iff.2 point.symm

end

/-! ## Texts -/

private theorem decodeFrom_encoded (position : Nat) (decoded text : List Char) :
    decodeFrom position decoded (text.flatMap utf8EncodeChar) =
      .ok (decoded.reverse ++ text) := by
  induction text generalizing position decoded with
  | nil => rw [List.flatMap_nil, decodeFrom, List.append_nil]
  | cons c text induction =>
      rcases List.exists_cons_of_ne_nil
        (String.utf8EncodeChar_ne_nil (c := c)) with ⟨first, tail, encoded⟩
      rcases exists_follow_of_encode encoded (text.flatMap utf8EncodeChar) with
        ⟨code, bounds, leads, length, completed⟩
      rw [List.flatMap_cons, encoded, List.cons_append, decodeFrom]
      simp only [leads, completed, length, List.drop_left, Char.ofNat_toNat]
      rw [induction, List.reverse_cons, List.append_assoc,
        List.singleton_append]

private theorem eq_encoded_of_decodeFrom {position : Nat} {decoded : List Char}
    {bytes : List UInt8} {text : List Char}
    (read : decodeFrom position decoded bytes = .ok text) :
    ∃ tail, text = decoded.reverse ++ tail ∧
    bytes = tail.flatMap utf8EncodeChar := by
  fun_induction decodeFrom position decoded bytes with
  | case1 position decoded =>
      cases read
      exact ⟨[], (List.append_nil _).symm, rfl⟩
  | case2 | case3 => cases read
  | case4 position decoded first rest code bounds leads point
      completed induction =>
      rcases exists_char_of_complete leads completed with ⟨c, rfl, encoded⟩
      rcases induction read with ⟨tail, rfl, behind⟩
      refine ⟨c :: tail, ?_, ?_⟩
      · rw [Char.ofNat_toNat, List.reverse_cons, List.append_assoc,
          List.singleton_append]
      · rw [encoded, List.flatMap_cons, behind]

theorem decode_eq_ok_iff {bytes : List UInt8} {text : List Char} :
    decode bytes = .ok text ↔ bytes = text.flatMap utf8EncodeChar := by
  constructor
  · intro read
    rcases eq_encoded_of_decodeFrom read with ⟨tail, rfl, encoded⟩
    exact encoded
  · rintro rfl
    exact decodeFrom_encoded 0 [] text

theorem decode_toUTF8 (text : String) : decode text.toUTF8.data.toList =
    .ok text.toList := by
  have encoded : text.toByteArray = text.toList.utf8Encode := by
    rw [← String.toByteArray_ofList, String.ofList_toList]
  rw [decode_eq_ok_iff, String.toUTF8, encoded, List.utf8Encode,
    List.toList_data_toByteArray]

theorem exists_decode_iff {bytes : List UInt8} :
    (∃ text, decode bytes = .ok text) ↔ bytes.toByteArray.IsValidUTF8 := by
  simp only [decode_eq_ok_iff]
  constructor
  · rintro ⟨text, rfl⟩
    exact .intro text rfl
  · rintro ⟨text, encoded⟩
    exact ⟨text, List.toByteArray_inj.1 encoded⟩

end FencedJson.Utf8
