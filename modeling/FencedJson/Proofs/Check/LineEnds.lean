import FencedJson.Proofs.Check.Order
import FencedJson.Proofs.Text.Newline
import FencedJson.Proofs.Text.Utf8

/-! # Line ends and encodings

What is found in a text does not depend on how its line ends are spelt, nor on
whether it is given as a text or lies in a file. Only bytes that are no text
cannot be decoded.
-/

namespace FencedJson

private theorem Markdown.parse_eq_of_unify {first second : String}
    (same : unifyNewlines first.toList = unifyNewlines second.toList) :
    parse first = parse second := by
  have blocks : parseBlocks first.toList = parseBlocks second.toList := by
    simp only [parseBlocks, visibleText, same]
  simp only [parse, blocks]

namespace Check

variable {stack : Stack} {disk : Disk} {path : Path} {text spelt : String}

theorem checkText_eq_of_unify (stack : Stack)
    (same : unifyNewlines spelt.toList = unifyNewlines text.toList) :
    checkText stack spelt = checkText stack text := by
  rw [checkText, checkText, Markdown.parse_eq_of_unify same]

theorem checkText_unified (stack : Stack) (text : String) :
    checkText stack (String.ofList (unifyNewlines text.toList)) =
      checkText stack text := by
  apply checkText_eq_of_unify
  rw [String.toList_ofList, unifyNewlines_of_plain (not_mem_unifyNewlines _)]

theorem readText_of_toUTF8
    (read : disk.read path = .ok text.toUTF8.data.toList) :
    readText disk path = .ok (String.ofList (unifyNewlines text.toList)) :=
  readText_eq_ok_iff.2 ⟨_, _, read, Utf8.decode_toUTF8 text, rfl⟩

theorem checkFile_of_toUTF8
    (read : disk.read path = .ok text.toUTF8.data.toList) :
    checkFile stack disk path =
      (checkText (stack.call 1) text).mapError .validation := by
  simp only [checkFile, readText_of_toUTF8 read, checkText_unified]

theorem checkFile_of_room (read : disk.read path = .ok text.toUTF8.data.toList)
    (room : ∀ refusal ∈ refusalsOf stack disk path, ¬ refusal.IsOverflow) :
    checkFile stack disk path =
      (checkText stack text).mapError .validation := by
  simp only [refusalsOf, readText_of_toUTF8 read, List.mem_filterMap] at room
  have same := checkText_of_isWithin (stack.isWithin_call 1)
      fun fence member error refused =>
    room error ⟨fence, member, by rwa [Stack.call_call] at refused⟩
  rw [checkText_unified, checkText_unified] at same
  rw [checkFile_of_toUTF8 read, same]

private theorem exists_encoding_iff :
    (∃ fault, checkFile stack disk path = .error (.encoding fault)) ↔
    ∃ content, disk.read path = .ok content ∧
    ¬ content.toByteArray.IsValidUTF8 := by
  unfold checkFile readText
  cases disk.read path with
  | error problem => simp
  | ok content =>
      simp only [Except.ok.injEq, exists_eq_left', ← Utf8.exists_decode_iff]
      cases Utf8.decode content with
      | error fault => simp
      | ok decoded =>
          cases checked : checkText (stack.call 1)
            (String.ofList (unifyNewlines decoded)) <;>
            simp [checked, Except.mapError]

private theorem isAddressable_of_respells (plain : '\r' ∉ text.toList)
    (respells : Respells text.toList spelt.toList)
    (addressable : IsAddressable spelt) :
    IsAddressable text := by
  have shorter := length_unifyNewlines_le spelt.toList
  rw [unifyNewlines_of_respells respells plain, String.length_toList,
    String.length_toList] at shorter
  exact Nat.lt_of_le_of_lt shorter addressable

/-- However the line ends of a text are spelt, the same is found in it. In a
file that holds it the same is found one call further in, which makes no
difference as long as no block of it needs more calls. Only the bytes of a file
that are no text are refused for their encoding. -/
theorem checkText_respelled (stack : Stack) :
    (∀ text spelt : String, '\r' ∉ text.toList →
      Respells text.toList spelt.toList →
      checkText stack spelt = checkText stack text ∧
      (∀ disk path, disk.read path = .ok spelt.toUTF8.data.toList →
        checkFile stack disk path =
          (checkText (stack.call 1) text).mapError .validation ∧
        ((∀ refusal ∈ refusalsOf stack disk path, ¬ refusal.IsOverflow) →
          checkFile stack disk path =
            (checkText stack text).mapError .validation)) ∧
      (IsAddressable spelt → ∃ found, checkText stack text = .ok found)) ∧
    ∀ disk path, (∃ fault, checkFile stack disk path =
      .error (.encoding fault)) ↔ ∃ content, disk.read path = .ok content ∧
      ¬ content.toByteArray.IsValidUTF8 := by
  refine ⟨fun text spelt plain respells => ?_, fun disk path =>
    exists_encoding_iff⟩
  have same (stack : Stack) : checkText stack spelt = checkText stack text := by
    apply checkText_eq_of_unify
    rw [unifyNewlines_of_respells respells plain, unifyNewlines_of_plain plain]
  refine ⟨same stack, fun disk path read => ⟨?_, fun room => ?_⟩,
    fun addressable => ?_⟩
  · rw [checkFile_of_toUTF8 read, same]
  · rw [checkFile_of_room read room, same]
  · exact ⟨_,
      checkText_eq (isAddressable_of_respells plain respells addressable)⟩

theorem not_isOverflow_of_bracket (room : 14 ≤ stack.frames)
    (read : readText disk path = .ok "```json\n[1\n```\n") :
    ∀ refusal ∈ refusalsOf stack disk path, ¬ refusal.IsOverflow := by
  have left : 9 ≤ (stack.call 5).frames := Nat.le_sub_of_add_le room
  rcases told_of_bracket left with ⟨-, single, refused, -⟩
  simp only [refusalsOf, read, single, List.filterMap_cons_some refused,
    List.filterMap_nil, List.forall_mem_singleton]
  exact id

/-- With line ends of three kinds, in a fence and at the end of a file. -/
theorem checkText_respelled_mixed :
    let text := "```json\n[1\n```\n"
    let spelt := "```json\r[1\r\n```\r"
    let disk : Disk := ⟨.directory [("a.md", .file text.toUTF8.data.toList),
      ("b.md", .file spelt.toUTF8.data.toList),
      ("c.md", .file [0x7b, 0xc0, 0xaf])], []⟩
    '\r' ∉ text.toList ∧ Respells text.toList spelt.toList ∧
      checkText .standard spelt = checkText .standard text ∧
      (∃ found, found ≠ [] ∧ checkText .standard text = .ok found ∧
        checkFile .standard disk ⟨"", ["a.md"]⟩ = .ok found ∧
        checkFile .standard disk ⟨"", ["b.md"]⟩ = .ok found) ∧
      ∃ fault, checkFile .standard disk ⟨"", ["c.md"]⟩ =
        .error (.encoding fault) := by
  intro text spelt disk
  have plain : '\r' ∉ text.toList := by decide
  have respells : Respells text.toList spelt.toList :=
    (unifyNewlines_eq_iff_respells.1 (by decide)).2
  have read : disk.read ⟨"", ["a.md"]⟩ = .ok text.toUTF8.data.toList := by
    decide +kernel
  have read' : disk.read ⟨"", ["b.md"]⟩ = .ok spelt.toUTF8.data.toList := by
    decide +kernel
  have bytes : disk.read ⟨"", ["c.md"]⟩ = .ok [0x7b, 0xc0, 0xaf] := by
    decide +kernel
  rcases checkText_respelled .standard with ⟨alike, encoding⟩
  rcases alike text spelt plain respells with ⟨same, filed, ends⟩
  rcases ends (by decide) with ⟨found, checked⟩
  have unified : String.ofList (unifyNewlines text.toList) = text := by decide
  have unified' : String.ofList (unifyNewlines spelt.toList) = text := by decide
  have inText : checkFile .standard disk ⟨"", ["a.md"]⟩ = .ok found := by
    have whole := readText_of_toUTF8 read
    rw [unified] at whole
    rw [checkFile_of_room read (not_isOverflow_of_bracket (by decide) whole),
      checked]
    rfl
  have whole := readText_of_toUTF8 read'
  rw [unified'] at whole
  have room := not_isOverflow_of_bracket
      (show 14 ≤ Stack.standard.frames by decide) whole
  refine ⟨plain, respells, same,
    ⟨found, found_ne_nil_of_bracket (by decide) read inText, checked, inText,
      ?_⟩, (encoding disk _).2 ⟨_, bytes, by decide +kernel⟩⟩
  rw [(filed disk _ read').2 room, checked]
  rfl

private theorem read_single (content : List UInt8) :
    Disk.read ⟨.directory [("a.md", .file content)], []⟩ ⟨"", ["a.md"]⟩ =
      .ok content :=
  (Disk.IsUnlinked.of_tree rfl rfl).read_of_stands
    (show ".." ∉ ["a.md"] by decide) rfl

/-- With so many arrays in arrays there is room to check the text, and none to
check it in a file. -/
theorem checkText_respelled_nested :
    let text := nestedDocument 990
    let disk : Disk :=
      ⟨.directory [("a.md", .file text.toUTF8.data.toList)], []⟩
    '\r' ∉ text.toList ∧ disk.read ⟨"", ["a.md"]⟩ =
      .ok text.toUTF8.data.toList ∧ checkText .standard text = .ok [] ∧
      ∃ finding, checkFile .standard disk ⟨"", ["a.md"]⟩ = .ok [finding] ∧
        finding.error.line = 1 ∧ finding.error.message =
          "maximum recursion depth exceeded while decoding a JSON array from a unicode string" := by
  intro text disk
  have read : disk.read ⟨"", ["a.md"]⟩ = .ok text.toUTF8.data.toList :=
    read_single _
  have room : 990 ≤ (Stack.standard.call 4).strictLevels := by decide
  have short : ((Stack.standard.call 1).call 4).strictLevels < 990 := by decide
  rcases checkText_nestedDocument_of_lt (by decide) short with
    ⟨finding, checked, line, -, message⟩
  refine ⟨return_not_mem_nestedDocument 990, read,
    checkText_nestedDocument_of_le (by decide) room, finding, ?_, line, message⟩
  rw [checkFile_of_toUTF8 read, checked]
  rfl

end Check
end FencedJson
