import FencedJson.Proofs.Markdown.Extent
import FencedJson.Proofs.Markdown.Lines

/-! # Texts of fences

The text of a fence joins ends of source lines by line feeds. So it has no
carriage return, it has one line feed less than the fence has lines, and its
length is bounded by that of the document.
-/

namespace FencedJson

theorem length_unifyNewlines_le (text : List Char) :
    (unifyNewlines text).length ≤ text.length := by
  fun_induction unifyNewlines text <;> simp only [List.length_nil,
    List.length_cons] <;> omega

theorem not_mem_unifyNewlines (text : List Char) :
    '\r' ∉ unifyNewlines text := by
  fun_induction unifyNewlines text with
  | case1 => simp
  | case2 rest induction => simp [induction]
  | case3 rest other induction => simp [induction]
  | case4 c rest other notReturn induction =>
      simp [induction, Ne.symm notReturn]

theorem length_rawLines_le (text : List Char) :
    (rawLines text).length ≤ text.length ∧
      ∀ line ∈ rawLines text, line.text.length ≤ text.length := by
  induction text with
  | nil => simp [rawLines]
  | cons c rest induction =>
      rcases induction with ⟨count, bound⟩
      unfold rawLines
      split
      · refine ⟨Nat.succ_le_succ count, fun line member => ?_⟩
        rcases List.mem_cons.1 member with rfl | member
        · exact Nat.zero_le _
        · exact Nat.le_succ_of_le (bound line member)
      · cases others : rawLines rest with
        | nil => simp
        | cons first others =>
            rw [others] at count bound
            refine ⟨Nat.le_succ_of_le count, fun line member => ?_⟩
            rcases List.mem_cons.1 member with rfl | member
            · exact Nat.succ_le_succ (bound first (List.mem_cons_self ..))
            · exact Nat.le_succ_of_le
                (bound line (List.mem_cons_of_mem _ member))

theorem mem_of_mem_rawLines {text : List Char} {line : RawLine} {c : Char}
    (member : line ∈ rawLines text) (inside : c ∈ line.text) : c ∈ text ∧
    c ≠ '\n' := by
  induction text generalizing line with
  | nil => simp [rawLines] at member
  | cons head rest induction =>
      unfold rawLines at member
      split at member
      · rcases List.mem_cons.1 member with rfl | member
        · simp at inside
        · rcases induction member inside with ⟨within, other⟩
          exact ⟨List.mem_cons_of_mem _ within, other⟩
      · next other =>
          cases found : rawLines rest with
          | nil =>
              rw [found, List.mem_singleton] at member
              subst member
              rw [List.mem_singleton.1 inside]
              exact ⟨List.mem_cons_self .., other⟩
          | cons first others =>
              rw [found] at member induction
              rcases List.mem_cons.1 member with rfl | member
              · rcases List.mem_cons.1 inside with rfl | inside
                · exact ⟨List.mem_cons_self .., other⟩
                · rcases induction (List.mem_cons_self ..) inside with
                    ⟨within, differs⟩
                  exact ⟨List.mem_cons_of_mem _ within, differs⟩
              · rcases induction (List.mem_cons_of_mem _ member) inside with
                  ⟨within, differs⟩
                exact ⟨List.mem_cons_of_mem _ within, differs⟩

namespace Markdown

/-! ## Source lines -/

theorem length_visibleText_le (text : String) :
    (visibleText text.toList).length ≤ text.length := by
  rw [visibleText, List.length_map, ← String.length_toList]
  exact length_unifyNewlines_le _

theorem length_sourceLines_le (text : String) :
    (sourceLines text).length ≤ text.length := by
  rw [sourceLines, List.length_map]
  exact (length_rawLines_le _).1.trans (length_visibleText_le text)

theorem length_le_of_mem_sourceLines {text : String} {line : List Char}
    (member : line ∈ sourceLines text) : line.length ≤ text.length := by
  rcases List.mem_map.1 member with ⟨raw, found, rfl⟩
  exact ((length_rawLines_le _).2 raw found).trans (length_visibleText_le text)

theorem ne_of_mem_sourceLines {text : String} {line : List Char} {c : Char}
    (member : line ∈ sourceLines text) (inside : c ∈ line) : c ≠ '\n' ∧
    c ≠ '\r' := by
  rcases List.mem_map.1 member with ⟨raw, found, rfl⟩
  rcases mem_of_mem_rawLines found inside with ⟨visible, notFeed⟩
  refine ⟨notFeed, ?_⟩
  rintro rfl
  rcases List.mem_map.1 visible with ⟨original, within, same⟩
  split at same
  · simp at same
  · exact not_mem_unifyNewlines _ (same ▸ within)

/-! ## Content of lines -/

private theorem nextColumn_le (start column : Nat) (c : Char) :
    nextColumn start column c ≤ column + 4 := by
  unfold nextColumn
  split <;> omega

private theorem cutLead_eq {start wanted column : Nat}
    (near : column ≤ wanted + 3) (lead : List Char) :
    ∃ spaces rest, spaces ≤ 3 ∧ rest <:+ lead ∧
      Line.cutLead start wanted column lead =
        List.replicate spaces ' ' ++ rest := by
  induction lead generalizing column with
  | nil =>
      exact ⟨column - wanted,
        [], by omega, List.suffix_rfl, (List.append_nil _).symm⟩
  | cons c lead induction =>
      unfold Line.cutLead
      split
      · next before =>
          have next := nextColumn_le start column c
          have further : nextColumn start column c ≤ wanted + 3 := by omega
          rcases induction further with ⟨spaces, rest, few, suffix, cut⟩
          exact ⟨spaces, rest, few, suffix.trans (List.suffix_cons ..), cut⟩
      · exact ⟨column - wanted, c :: lead, by omega, List.suffix_rfl, rfl⟩

theorem content_eq (line : Line) (columns : Nat) :
    ∃ spaces rest, spaces ≤ 3 ∧ rest <:+ line.lead ++ line.body ∧
      line.content columns = List.replicate spaces ' ' ++ rest := by
  rcases cutLead_eq (Nat.zero_le (columns + 3)) line.lead with
    ⟨spaces, rest, few, ⟨cut, whole⟩, same⟩
  refine ⟨spaces, rest ++ line.body, few, ⟨cut, ?_⟩, ?_⟩
  · rw [← whole, List.append_assoc]
  · rw [Line.content, same, List.append_assoc]

theorem mem_content {line : Line} {columns : Nat} {c : Char}
    (member : c ∈ line.content columns) : c = ' ' ∨
    c ∈ line.lead ++ line.body := by
  rcases content_eq line columns with ⟨spaces, rest, -, suffix, same⟩
  rw [same, List.mem_append] at member
  exact member.imp List.eq_of_mem_replicate fun inside => suffix.mem inside

theorem length_content_le (line : Line) (columns : Nat) :
    (line.content columns).length ≤ (line.lead ++ line.body).length + 3 := by
  rcases content_eq line columns with ⟨spaces, rest, few, suffix, same⟩
  have shorter := suffix.length_le
  rw [same, List.length_append, List.length_replicate]
  omega

/-! ## Joined lines -/

theorem length_joinLines_le {lines : List (List Char)} {bound : Nat}
    (short : ∀ line ∈ lines, line.length ≤ bound) :
    (joinLines lines).length ≤ lines.length * (bound + 1) := by
  fun_induction joinLines lines with
  | case1 => exact Nat.zero_le _
  | case2 last =>
      have := short last (List.mem_cons_self ..)
      simp only [List.length_singleton]
      omega
  | case3 first rest _ induction =>
      have head := short first (List.mem_cons_self ..)
      have tail := induction fun line member =>
          short line (List.mem_cons_of_mem _ member)
      rw [List.length_append, List.length_cons, List.length_cons,
        Nat.add_mul, Nat.one_mul]
      omega

theorem mem_joinLines {lines : List (List Char)} {c : Char}
    (member : c ∈ joinLines lines) :
    c = '\n' ∨ ∃ line ∈ lines, c ∈ line := by
  fun_induction joinLines lines with
  | case1 => simp at member
  | case2 last => exact .inr ⟨last, List.mem_cons_self .., member⟩
  | case3 first rest _ induction =>
      rcases List.mem_append.1 member with inFirst | later
      · exact .inr ⟨first, List.mem_cons_self .., inFirst⟩
      · rcases List.mem_cons.1 later with feed | later
        · exact .inl feed
        · rcases induction later with feed | ⟨line, found, inside⟩
          · exact .inl feed
          · exact .inr ⟨line, List.mem_cons_of_mem _ found, inside⟩

private theorem withoutFinalNewline_append {text : List Char}
    (plain : '\r' ∉ text) :
    withoutFinalNewline (String.ofList (text ++ ['\n'])) =
      String.ofList text := by
  unfold withoutFinalNewline
  rw [String.toList_ofList, List.reverse_append, List.reverse_singleton,
    List.singleton_append]
  split
  · next rest whole =>
      have ends : '\r' ∈ text.reverse := by
        rw [(List.cons.inj whole).2]
        exact List.mem_cons_self ..
      exact absurd (List.mem_reverse.1 ends) plain
  · next rest _ whole => rw [← (List.cons.inj whole).2, List.reverse_reverse]
  · next other => exact absurd rfl (other _)

theorem withoutFinalNewline_terminated {lines : List (List Char)}
    (plain : ∀ line ∈ lines, '\r' ∉ line) :
    withoutFinalNewline (String.ofList (terminated lines)) =
      String.ofList (joinLines lines) := by
  rcases List.eq_nil_or_concat lines with rfl | ⟨front, last, rfl⟩
  · rfl
  · have joined : '\r' ∉ joinLines (front.concat last) := by
      intro occurs
      rcases mem_joinLines occurs with feed | ⟨line, inside, within⟩
      · simp at feed
      · exact plain line inside within
    rw [← withoutFinalNewline_append joined, List.concat_eq_append,
      joinLines_append_singleton, terminated, terminated, List.flatMap_append,
      List.flatMap_singleton, List.append_assoc]

/-! ## Fences -/

private theorem Follows.shows_of_mem {source : List (List Char)} {number : Nat}
    {lines : List Line} {line : Line} (follows : Follows source number lines)
    (member : line ∈ lines) :
    ∃ text ∈ source, line.lead ++ line.body <:+ text := by
  rcases List.mem_iff_getElem?.1 member with ⟨index, found⟩
  rcases follows.shows_of_getElem? found with ⟨-, text, shown, suffix⟩
  exact ⟨text, List.mem_of_getElem? shown, suffix⟩

theorem Follows.length_le {source : List (List Char)} {number : Nat}
    {lines : List Line} (follows : Follows source (number + 1) lines)
    (within : number ≤ source.length) :
    number + lines.length ≤ source.length := by
  rcases Nat.eq_zero_or_pos lines.length with none | some
  · omega
  · have found := List.getElem?_eq_getElem (Nat.sub_lt some Nat.one_pos)
    have := (follows.shows_of_getElem? found).le_length
    omega

namespace Fence.Origin

variable {source : List (List Char)} {fence : Fence}

theorem last_le_length (origin : fence.Origin source) :
    fence.last ≤ source.length := by
  have begins := origin.first_shows.le_length
  cases closed : fence.closed with
  | true =>
      rcases origin.closes closed with ⟨line, shows, -⟩
      exact shows.le_length
  | false =>
      have ends := origin.inside_follows.length_le begins
      simpa [Fence.last, closed, origin.lines_eq] using ends

theorem exists_source (origin : fence.Origin source) {line : List Char}
    (member : line ∈ fence.lines) : ∃ text ∈ source,
      line.length ≤ text.length + 3 ∧ ∀ c ∈ line, c = ' ' ∨ c ∈ text := by
  rw [origin.lines_eq] at member
  rcases List.mem_map.1 member with ⟨inner, inside, rfl⟩
  rcases origin.inside_follows.shows_of_mem inside with ⟨text, found, suffix⟩
  refine ⟨text, found, ?_, fun c member =>
    (mem_content member).imp_right suffix.mem⟩
  have := length_content_le inner origin.columns
  have := suffix.length_le
  omega

end Fence.Origin

section

variable {markdown : String} {fence : Fence}

theorem origin_of_mem (member : fence ∈ documentFences markdown) :
    Nonempty (fence.Origin (sourceLines markdown)) :=
  (placed_documentFences markdown).choose_spec.origin fence member

theorem ne_of_mem_lines (member : fence ∈ documentFences markdown)
    {line : List Char} (inside : line ∈ fence.lines) {c : Char}
    (occurs : c ∈ line) : c ≠ '\n' ∧ c ≠ '\r' := by
  rcases origin_of_mem member with ⟨origin⟩
  rcases origin.exists_source inside with ⟨text, found, -, only⟩
  rcases only c occurs with rfl | shown
  · decide
  · exact ne_of_mem_sourceLines found shown

/-- The text of a fence is what its lines hold, without the line end at the very
end. -/
theorem withoutFinalNewline_lines (member : fence ∈ documentFences markdown) :
    withoutFinalNewline (String.ofList (terminated fence.lines)) = fence.text :=
  withoutFinalNewline_terminated fun _ inside occurs =>
    (ne_of_mem_lines member inside occurs).2 rfl

theorem length_text_le (member : fence ∈ documentFences markdown) :
    fence.text.length ≤ markdown.length * (markdown.length + 4) := by
  rcases origin_of_mem member with ⟨origin⟩
  have short : ∀ line ∈ fence.lines, line.length ≤ markdown.length + 3 := by
    intro line inside
    rcases origin.exists_source inside with ⟨text, found, bound, -⟩
    have := length_le_of_mem_sourceLines found
    omega
  have count : fence.lines.length ≤ markdown.length := by
    have := origin.last_le_length
    have := length_sourceLines_le markdown
    simp only [Fence.last] at *
    omega
  rw [← String.length_toList, Fence.text, String.toList_ofList]
  exact (length_joinLines_le short).trans (Nat.mul_le_mul_right _ count)

end

end Markdown
end FencedJson
