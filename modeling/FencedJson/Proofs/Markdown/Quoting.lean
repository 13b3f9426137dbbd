import FencedJson.Proofs.Markdown.Content
import FencedJson.Proofs.Markdown.Reading
import Mathlib.Data.List.Infix

/-! # Fences in quotes

A text is put into a fence that is longer than all its runs of backticks, and
the fence into quotes, one inside of the other. The quotes take their own
markers off each line and leave the text as it is, whatever it looks like.
-/

namespace FencedJson.Markdown

/-! ## Documents -/

def quoteMarks (depth : Nat) : List Char :=
  (List.replicate depth ['>', ' ']).flatten

def fenceLines (length : Nat) (tag text : List Char) : List (List Char) :=
  (List.replicate length '`' ++ tag) ::
    (text.splitOn '\n' ++ [List.replicate length '`'])

/-- The document that holds a text in a fence of `length` backticks inside of
`depth` quotes. A line feed may end its last line. -/
def fencedDocument (depth length : Nat) (tag text : String) (ended : Bool) :
    String :=
  let lines := (fenceLines length tag.toList text.toList).map
      (quoteMarks depth ++ ·)
  String.ofList (joinLines lines ++ if ended then ['\n'] else [])

example : fencedDocument 1 3 "json" "[\n]" false =
    "> ```json\n> [\n> ]\n> ```" := by
  decide +kernel

theorem quoteMarks_succ (depth : Nat) (text : List Char) :
    quoteMarks (depth + 1) ++ text = '>' :: ' ' ::
      (quoteMarks depth ++ text) := by
  rw [quoteMarks, List.replicate_succ, List.flatten_cons]
  rfl

theorem map_quoteMarks_succ (depth : Nat) (texts : List (List Char)) :
    texts.map (quoteMarks (depth + 1) ++ ·) =
      (texts.map (quoteMarks depth ++ ·)).map fun text =>
        '>' :: ' ' :: text := by
  rw [List.map_map]
  exact List.map_congr_left fun text _ => quoteMarks_succ depth text

theorem mem_quoteMarks {depth : Nat} {c : Char}
    (member : c ∈ quoteMarks depth) :
    c = '>' ∨ c = ' ' := by
  rcases List.mem_flatten.1 member with ⟨mark, found, inside⟩
  rw [List.eq_of_mem_replicate found] at inside
  simpa using inside

/-! ## Lines of quotes -/

theorem reads_unquote {line : Line} {text : List Char}
    (reads : line.Reads ('>' :: ' ' :: text)) : (unquote line).Reads text := by
  rcases reads.of_solid (by decide) with ⟨body, indent⟩
  have shape : unquote line =
      { line with
        lead := text.takeWhile isIndent
        body := text.dropWhile isIndent
        indent := (columnAfter line.start 2 (text.takeWhile isIndent) : Nat) -
          (2 : Nat)
        start := 2 } := by
    simp [unquote, body, indent]
  rw [shape]
  refine ⟨rfl, rfl, ?_, ?_⟩
  · have := le_columnAfter line.start 2 (text.takeWhile isIndent)
    dsimp only
    omega
  · intro noLead
    dsimp only
    rw [noLead]
    rfl

section

variable {frame : Frame} {lines : List Line} {texts : List (List Char)}

theorem reads_map_unquote
    (reads : List.Forall₂ Line.Reads lines
      (texts.map fun text => '>' :: ' ' :: text)) :
    List.Forall₂ Line.Reads (lines.map unquote) texts := by
  rw [List.forall₂_map_right_iff] at reads
  rw [List.forall₂_map_left_iff]
  exact reads.imp fun _ _ shows => reads_unquote shows

private theorem quoteLines_of_reads (margin : frame.indent = 0)
    (afterBlank : Bool) (reads : List.Forall₂ Line.Reads lines
      (texts.map fun text => '>' :: ' ' :: text)) :
    quoteLines frame afterBlank lines = lines.map unquote := by
  induction lines generalizing texts afterBlank with
  | nil => rfl
  | cons line rest induction =>
      cases texts with
      | nil => cases reads
      | cons text texts =>
          rcases List.forall₂_cons.1 reads with ⟨head, tail⟩
          rcases head.of_solid (by decide) with ⟨body, -⟩
          simp [quoteLines, Line.isBlank, body, head.isOutside_eq margin,
            induction _ tail]

/-- A container takes a quote of marked lines alone as one block, if the quote
takes all its lines. -/
theorem sequence_quote {quoteContent : Nested} (itemContent : Nested)
    {first : Line} {text : List Char} {rest : List Line} {inner : List Block}
    (margin : frame.indent = 0) (opens : first.Reads ('>' :: ' ' :: text))
    (reads : List.Forall₂ Line.Reads rest
      (texts.map fun text => '>' :: ' ' :: text))
    (parsed : quoteContent { frame with indent := 0 }
      ((first :: rest).map unquote) = ⟨inner, rest.length + 1⟩) :
    sequence (step quoteContent itemContent) frame (first :: rest) =
      ⟨[.quote first.number inner], rest.length + 1⟩ := by
  rcases opens.of_solid (by decide) with ⟨body, indent⟩
  have notCode : frame.isCode first = false := by
    simp [Frame.isCode, margin, indent]
  have quoted : quoteStep? quoteContent frame first rest =
      some ⟨.quote first.number inner, rest.length⟩ := by
    rw [List.map_cons] at parsed
    simp [quoteStep?, notCode, body, quoteLines_of_reads margin _ reads, parsed]
  have made : step quoteContent itemContent frame first rest =
      ⟨.quote first.number inner, rest.length⟩ := by
    simp [step, codeStep?, fenceStep?, Opening.ofBody?, notCode, body, quoted]
  rw [sequence_of_inside (by rw [Line.isBlank, body]; rfl)
    (opens.isOutside_eq margin), made]
  dsimp only
  rw [List.drop_length, sequence_nil, Nat.add_zero, Nat.add_comm]

end

/-! ## Fences in quotes -/

private theorem infix_of_isClosedBy {opening : Opening} {body : List Char}
    (closes : opening.isClosedBy body) :
    List.replicate opening.length opening.marker <:+: body := by
  have long : opening.length ≤ runLength opening.marker body := by
    simp only [Opening.isClosedBy, Bool.and_eq_true,
      decide_eq_true_eq] at closes
    exact closes.1
  have run := replicate_runLength_append opening.marker body
  rw [← Nat.add_sub_cancel' long, ← List.replicate_append_replicate,
    List.append_assoc] at run
  exact ⟨[], _, run⟩

private theorem not_isClosedBy_of_reads {opening : Opening} {lines : List Line}
    {texts : List (List Char)} (reads : List.Forall₂ Line.Reads lines texts)
    (longer : ∀ text ∈ texts, ¬ List.replicate opening.length
      opening.marker <:+: text)
    {line : Line} (member : line ∈ lines) : ¬ opening.isClosedBy line.body := by
  intro closed
  rcases exists_reads_of_mem reads member with ⟨text, found, shows⟩
  have run := infix_of_isClosedBy closed
  rw [shows.body_eq] at run
  exact longer text found (run.trans (List.dropWhile_suffix _).isInfix)

theorem exists_blocksOf_fenced {length : Nat} {info : List Char}
    {texts : List (List Char)} (long : 3 ≤ length) (plain : '`' ∉ info)
    (longer : ∀ text ∈ texts, ¬ List.replicate length '`' <:+: text)
    (depth extra : Nat) (frame : Frame) (margin : frame.indent = 0)
    {first last : Line} {middle : List Line}
    (opens :
      first.Reads (quoteMarks depth ++ (List.replicate length '`' ++ info)))
      (reads : List.Forall₂ Line.Reads middle
        (texts.map (quoteMarks depth ++ ·)))
    (ended : ∀ line ∈ middle, line.ended)
    (closes : last.Reads (quoteMarks depth ++ List.replicate length '`')) :
    ∃ blocks, blocksOf (depth + extra + 1) frame (first :: (middle ++ [last])) =
        ⟨blocks, middle.length + 2⟩ ∧
      fencesOf blocks = [⟨first.number, info, texts, true⟩] := by
  -- One level of marks is taken off at a time, and the lines inside read as one
  -- level less.
  induction depth generalizing frame first last middle with
  | zero =>
      rcases blocksOf_succ (0 + extra) with ⟨itemContent, shape⟩
      have direct : texts.map (quoteMarks 0 ++ ·) = texts := List.map_id _
      rw [direct] at reads
      have goesOn : ∀ line ∈ middle,
          frame.isCode line ∨
          ¬ (Opening.mk '`' length info).isClosedBy line.body :=
        fun line member => .inr (not_isClosedBy_of_reads reads longer member)
      rw [shape, sequence_fence _ itemContent margin long plain opens reads
        ended goesOn closes, sequence_nil]
      exact ⟨_, rfl, rfl⟩
  | succ depth induction =>
      rcases blocksOf_succ (depth + extra + 1) with ⟨itemContent, shape⟩
      rw [quoteMarks_succ] at opens closes
      rw [map_quoteMarks_succ] at reads
      have innerEnded : ∀ line ∈ middle.map unquote, line.ended := by
        intro line member
        rcases List.mem_map.1 member with ⟨outer, found, rfl⟩
        exact ended outer found
      obtain ⟨blocks, parsed, fences⟩ :=
        induction { frame with indent := 0 } rfl (reads_unquote opens)
          (reads_map_unquote reads) innerEnded (reads_unquote closes)
      refine ⟨[.quote first.number blocks], ?_, ?_⟩
      · have whole : List.Forall₂ Line.Reads (middle ++ [last])
            ((texts.map (quoteMarks depth ++ ·) ++
              [quoteMarks depth ++ List.replicate length '`']).map
                fun text => '>' :: ' ' :: text) := by
          rw [List.map_append]
          exact List.rel_append reads (.cons closes .nil)
        have levels : depth + 1 + extra + 1 = depth + extra + 1 + 1 := by omega
        have used : (middle ++ [last]).length + 1 = middle.length + 2 := by simp
        rw [levels, shape, ← used]
        apply sequence_quote itemContent margin opens whole
        rw [used, List.map_cons, List.map_append]
        simpa using parsed
      · rw [fencesOf, Block.fences, fencesOf, List.append_nil, fences]
        rfl

/-! ## The fence of a document -/

theorem not_mem_of_mem_splitOn {text line : List Char}
    (member : line ∈ text.splitOn '\n') :
    '\n' ∉ line := by
  induction text generalizing line with
  | nil =>
      rw [List.splitOn_nil, List.mem_singleton] at member
      rw [member]
      exact List.not_mem_nil
  | cons c text induction =>
      rw [List.splitOn_cons_eq_if_modifyHead] at member
      cases found : text.splitOn '\n' with
      | nil => exact absurd found (List.splitOn_ne_nil '\n' text)
      | cons first others =>
          rw [found] at member induction
          split at member
          · rcases List.mem_cons.1 member with rfl | member
            · exact List.not_mem_nil
            · exact induction member
          · next other =>
              have notFeed : c ≠ '\n' := by simpa using other
              rcases List.mem_cons.1 member with rfl | member
              · simp [notFeed.symm, induction (List.mem_cons_self ..)]
              · exact induction (List.mem_cons_of_mem _ member)

theorem joinLines_eq_intercalate (lines : List (List Char)) :
    joinLines lines = ['\n'].intercalate lines := by
  fun_induction joinLines lines with
  | case1 => rfl
  | case2 last => simp
  | case3 first rest several induction =>
      rw [List.intercalate_cons_of_ne_nil several, induction, List.append_assoc]
      rfl

theorem joinLines_splitOn (text : List Char) :
    joinLines (text.splitOn '\n') = text := by
  rw [joinLines_eq_intercalate, List.intercalate_splitOn]

theorem splitOn_joinLines {lines : List (List Char)} (some : lines ≠ [])
    (single : ∀ line ∈ lines, '\n' ∉ line) :
    (joinLines lines).splitOn '\n' = lines := by
  rw [joinLines_eq_intercalate, List.splitOn_intercalate '\n' single some]

private theorem infix_joinLines {lines : List (List Char)} {line : List Char}
    (member : line ∈ lines) :
    line <:+: joinLines lines := by
  fun_induction joinLines lines with
  | case1 => simp at member
  | case2 last => rw [List.mem_singleton.1 member]
  | case3 first rest _ induction =>
      rcases List.mem_cons.1 member with rfl | later
      · exact (List.prefix_append ..).isInfix
      · have below := (induction later).trans (List.suffix_cons '\n' _).isInfix
        exact below.trans (List.suffix_append ..).isInfix

theorem infix_of_mem_splitOn {text line : List Char}
    (member : line ∈ text.splitOn '\n') :
    line <:+: text := by
  have inside := infix_joinLines member
  rwa [joinLines_splitOn] at inside

theorem mem_fenceLines {depth length : Nat}
    {tag text line : List Char} {c : Char}
    (member : line ∈ (fenceLines length tag text).map (quoteMarks depth ++ ·))
    (inside : c ∈ line) :
    c = '>' ∨ c = ' ' ∨ c = '`' ∨ c ∈ tag ∨ c ∈ text ∧ c ≠ '\n' := by
  rcases List.mem_map.1 member with ⟨shown, found, rfl⟩
  rcases List.mem_append.1 inside with marked | inside
  · rcases mem_quoteMarks marked with same | same <;> simp [same]
  · rcases List.mem_cons.1 found with rfl | found
    · rcases List.mem_append.1 inside with tick | tagged
      · simp [List.eq_of_mem_replicate tick]
      · simp [tagged]
    · rcases List.mem_append.1 found with content | last
      · have notFeed : c ≠ '\n' :=
          fun same => not_mem_of_mem_splitOn content (same ▸ inside)
        simp [(infix_of_mem_splitOn content).mem inside, notFeed]
      · rw [List.mem_singleton.1 last] at inside
        simp [List.eq_of_mem_replicate inside]

def IsTag (tag : String) : Prop :=
  ∀ c ∈ tag.toList, c ≠ '`' ∧ c ≠ '\n' ∧ c ≠ '\r' ∧ c ≠ '\x00'

section

variable {length : Nat} {tag : String}

theorem visibleText_fencedDocument {depth : Nat} {text : String}
    (tagged : IsTag tag) (plain : '\r' ∉ text.toList)
    (shown : '\x00' ∉ text.toList) (ended : Bool) :
    visibleText (fencedDocument depth length tag text ended).toList =
      (fencedDocument depth length tag text ended).toList := by
  have clean : ∀ c ∈ (fencedDocument depth length tag text ended).toList,
      c ≠ '\r' ∧ c ≠ '\x00' := by
    intro c member
    rw [fencedDocument, String.toList_ofList] at member
    rcases List.mem_append.1 member with joined | ending
    · rcases mem_joinLines joined with rfl | ⟨line, found, inside⟩
      · decide
      · rcases mem_fenceLines found inside with
          rfl | rfl | rfl | inTag | ⟨inText, -⟩
        · decide
        · decide
        · decide
        · exact (tagged c inTag).2.2
        · exact ⟨fun same => plain (same ▸ inText), fun same =>
            shown (same ▸ inText)⟩
    · have feed : c = '\n' := by
        cases ended with
        | true => exact List.mem_singleton.1 ending
        | false => cases ending
      subst feed
      decide
  apply visibleText_of_plain
  · intro member
    exact (clean _ member).1 rfl
  · intro member
    exact (clean _ member).2 rfl

theorem exists_documentLines_fencedDocument (tagged : IsTag tag)
    (long : 3 ≤ length) (depth : Nat) (text : String) (ended : Bool) :
    ∃ first middle last,
      documentLines (fencedDocument depth length tag text ended).toList =
        first :: (middle ++ [last]) ∧
      first.number = 1 ∧
      first.Reads
        (quoteMarks depth ++ (List.replicate length '`' ++ tag.toList)) ∧
      List.Forall₂ Line.Reads middle
        ((text.toList.splitOn '\n').map (quoteMarks depth ++ ·)) ∧
      (∀ line ∈ middle, line.ended) ∧
      last.Reads (quoteMarks depth ++ List.replicate length '`') := by
  let front :=
    (quoteMarks depth ++ (List.replicate length '`' ++ tag.toList)) ::
      (text.toList.splitOn '\n').map (quoteMarks depth ++ ·)
  let last := quoteMarks depth ++ List.replicate length '`'
  have marked : (fenceLines length tag.toList text.toList).map
      (quoteMarks depth ++ ·) = front ++ [last] := by
    simp [fenceLines, front, last]
  have single : ∀ line ∈ front ++ [last], '\n' ∉ line := by
    intro line member inside
    rw [← marked] at member
    rcases mem_fenceLines member inside with same | same | same | inTag | inText
    · simp at same
    · simp at same
    · simp at same
    · exact (tagged _ inTag).2.1 rfl
    · exact inText.2 rfl
  have tick : '`' ∈ last := by
    apply List.mem_append_right
    exact List.mem_replicate.2 ⟨by omega, rfl⟩
  have filled : last.all isIndent = false := by
    rw [List.all_eq_false]
    exact ⟨'`', tick, by decide⟩
  have lines : documentLines
      (fencedDocument depth length tag text ended).toList = numbered 1 front ++
        [.ofRaw (1 + front.length) ⟨last, ended⟩] := by
    rw [fencedDocument, String.toList_ofList, marked,
      joinLines_append_singleton, List.append_assoc,
      documentLines_terminated_append,
      documentLines_of_single (single last (by simp)) filled]
    · rfl
    · intro line member
      exact single line (List.mem_append_left _ member)
  refine ⟨_, _, _, lines, rfl, reads_ofRaw .., reads_numbered 2 _, ?_,
    reads_ofRaw ..⟩
  intro line member
  exact ended_of_mem_numbered member

theorem documentFences_fencedDocument {depth : Nat} {text : String}
    (tagged : IsTag tag) (plain : '\r' ∉ text.toList)
    (shown : '\x00' ∉ text.toList) (long : 3 ≤ length)
    (longer : ¬ List.replicate length '`' <:+: text.toList)
    (shallow : depth < nestingLimit) (ended : Bool) :
    documentFences (fencedDocument depth length tag text ended) =
      [⟨1, tag.toList, text.toList.splitOn '\n', true⟩] := by
  have noTick : '`' ∉ tag.toList := by
    intro tick
    exact (tagged _ tick).1 rfl
  have noRun : ∀ line ∈ text.toList.splitOn '\n', ¬ List.replicate length
      '`' <:+: line := by
    intro line member run
    exact longer (run.trans (infix_of_mem_splitOn member))
  rcases exists_documentLines_fencedDocument tagged long depth text ended with
    ⟨first, middle, last, lines, number, opens, reads, allEnded, closes⟩
  rcases exists_blocksOf_fenced long noTick noRun depth
    (nestingLimit - 1 - depth) Frame.top rfl opens reads allEnded closes with
      ⟨blocks, parsed, fences⟩
  have levels : depth + (nestingLimit - 1 - depth) + 1 = nestingLimit := by
    omega
  rw [levels] at parsed
  rw [documentFences, parseBlocks,
    visibleText_fencedDocument tagged plain shown, lines, parsed,
    fences, number]

end

end FencedJson.Markdown
