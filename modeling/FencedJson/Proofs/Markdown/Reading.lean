import FencedJson.Proofs.Markdown.Lines
import Mathlib.Data.List.Forall2
import Mathlib.Data.List.TakeWhile

/-! # What lines read

A line reads a text when its block sees that text and nothing of the containers
around it. Out of such lines a fence takes its own, up to the first one that
closes it.
-/

namespace FencedJson.Markdown

/-! ## Sequences -/

theorem sequence_eq (step : Frame → Line → List Line → Step) (frame : Frame)
    (lines : List Line) :
    sequence step frame lines =
      let blank := (lines.takeWhile Line.isBlank).length
      match lines.dropWhile Line.isBlank with
      | [] => ⟨[], blank⟩
      | line :: rest =>
          if frame.isOutside line then ⟨[], blank⟩
          else
            let made := step frame line rest
            let others := sequence step frame (rest.drop made.further)
            ⟨made.block :: others.blocks, blank + 1 + made.further +
              others.used⟩ := by
  rw [sequence]
  dsimp only
  split
  · next left => exact left ▸ rfl
  · next left => exact left ▸ rfl

section

variable {step : Frame → Line → List Line → Step} {frame : Frame} {line : Line}

theorem sequence_nil : sequence step frame [] = ⟨[], 0⟩ := sequence_eq ..

theorem sequence_of_inside (filled : line.isBlank = false)
    (inside : frame.isOutside line = false) (rest : List Line) :
    sequence step frame (line :: rest) =
      let made := step frame line rest
      let others := sequence step frame (rest.drop made.further)
      ⟨made.block :: others.blocks, 1 + made.further + others.used⟩ := by
  have blank : ¬ line.isBlank := by simp [filled]
  rw [sequence_eq, List.dropWhile_cons_of_neg blank,
    List.takeWhile_cons_of_neg blank]
  dsimp only
  rw [inside, List.length_nil, Nat.zero_add]
  rfl

end

theorem blocksOf_succ (depth : Nat) : ∃ itemContent,
    blocksOf (depth + 1) = sequence (step (blocksOf depth) itemContent) := by
  cases depth <;> exact ⟨_, rfl⟩

/-! ## Columns -/

theorem le_columnAfter (start column : Nat) (run : List Char) :
    column ≤ columnAfter start column run := by
  induction run generalizing column with
  | nil => exact Nat.le_refl _
  | cons c run induction =>
      have next : column ≤ nextColumn start column c := by
        unfold nextColumn
        split <;> omega
      exact Nat.le_trans next (induction _)

structure Line.Reads (line : Line) (text : List Char) : Prop where
  lead_eq : line.lead = text.takeWhile isIndent
  body_eq : line.body = text.dropWhile isIndent
  indent_nonneg : 0 ≤ line.indent
  indent_eq : text.takeWhile isIndent = [] → line.indent = 0

theorem reads_ofRaw (number : Nat) (text : List Char) (ended : Bool) :
    (Line.ofRaw number ⟨text, ended⟩).Reads text where
  lead_eq := rfl
  body_eq := rfl
  indent_nonneg := Int.natCast_nonneg _
  indent_eq noLead := by
    change ((columnAfter 0 0 (text.takeWhile isIndent) : Nat) : Int) = 0
    rw [noLead]
    rfl

namespace Line.Reads

variable {line : Line} {text : List Char}

theorem isOutside_eq (reads : line.Reads text) {frame : Frame}
    (margin : frame.indent = 0) :
    frame.isOutside line = false := by
  have := reads.indent_nonneg
  simp only [Frame.isOutside, margin, decide_eq_false_iff_not]
  omega

private theorem content_zero (reads : line.Reads text) :
    line.content 0 = text := by
  have whole : Line.cutLead line.start 0 0 line.lead = line.lead := by
    cases line.lead <;> rfl
  rw [Line.content, whole, reads.lead_eq, reads.body_eq,
    List.takeWhile_append_dropWhile]

theorem of_solid {c : Char} (reads : line.Reads (c :: text))
    (solid : isIndent c = false) :
    line.body = c :: text ∧ line.indent = 0 := by
  have stops : ¬ isIndent c := by simp [solid]
  refine ⟨?_, reads.indent_eq (List.takeWhile_cons_of_neg stops)⟩
  rw [reads.body_eq, List.dropWhile_cons_of_neg stops]

end Line.Reads

theorem exists_reads_of_mem {lines : List Line} {texts : List (List Char)}
    (reads : List.Forall₂ Line.Reads lines texts) {line : Line}
    (member : line ∈ lines) :
    ∃ text ∈ texts, line.Reads text := by
  induction reads with
  | nil => simp at member
  | cons head _ induction =>
      rcases List.mem_cons.1 member with rfl | member
      · exact ⟨_, List.mem_cons_self .., head⟩
      · rcases induction member with ⟨text, found, shows⟩
        exact ⟨text, List.mem_cons_of_mem _ found, shows⟩

theorem map_content_zero {lines : List Line} {texts : List (List Char)}
    (reads : List.Forall₂ Line.Reads lines texts) :
    lines.map (·.content 0) = texts := by
  induction reads with
  | nil => rfl
  | cons head _ induction => rw [List.map_cons, head.content_zero, induction]

theorem reads_numbered (number : Nat) (texts : List (List Char)) :
    List.Forall₂ Line.Reads (numbered number texts) texts := by
  induction texts generalizing number with
  | nil => exact .nil
  | cons text texts induction => exact .cons (reads_ofRaw ..) (induction _)

theorem mem_numbered {number : Nat} {texts : List (List Char)} {line : Line}
    (member : line ∈ numbered number texts) :
    ∃ text ∈ texts, ∃ place, line = .ofRaw place ⟨text, true⟩ := by
  induction texts generalizing number with
  | nil => cases member
  | cons text texts induction =>
      rcases List.mem_cons.1 member with rfl | member
      · exact ⟨text, List.mem_cons_self .., number, rfl⟩
      · rcases induction member with ⟨later, found, same⟩
        exact ⟨later, List.mem_cons_of_mem _ found, same⟩

theorem ended_of_mem_numbered {number : Nat}
    {texts : List (List Char)} {line : Line}
    (member : line ∈ numbered number texts) : line.ended := by
  rcases mem_numbered member with ⟨text, -, place, rfl⟩
  rfl

/-! ## Fences -/

theorem replicate_runLength_append (marker : Char) (text : List Char) :
    List.replicate (runLength marker text) marker ++
      text.drop (runLength marker text) = text := by
  have front : text.takeWhile (· = marker) =
      text.take (runLength marker text) :=
    List.prefix_iff_eq_take.1 (List.takeWhile_prefix _)
  have run : text.takeWhile (· = marker) =
      List.replicate (runLength marker text) marker := by
    rw [List.eq_replicate_iff]
    refine ⟨rfl, fun c member => ?_⟩
    simpa using List.mem_takeWhile_imp member
  rw [← run, front, List.take_append_drop]

theorem runLength_replicate_append {marker : Char} {rest : List Char}
    (other : rest.head? ≠ some marker) (count : Nat) :
    runLength marker (List.replicate count marker ++ rest) = count := by
  induction count with
  | zero =>
      cases rest with
      | nil => rfl
      | cons c rest =>
          have stops : c ≠ marker := fun same => other (congrArg some same)
          simp [runLength, stops]
  | succ count induction =>
      simp only [runLength, List.replicate_succ, List.cons_append, decide_true,
        List.takeWhile_cons_of_pos, List.length_cons] at induction ⊢
      rw [induction]

theorem opening_of_backticks {length : Nat} {info : List Char}
    (long : 3 ≤ length) (plain : '`' ∉ info) :
    Opening.ofBody? (List.replicate length '`' ++ info) =
      some ⟨'`', length, info⟩ := by
  have other : info.head? ≠ some '`' :=
    fun same => plain (List.mem_of_head? same)
  have run := runLength_replicate_append other length
  have rest : (List.replicate length '`' ++ info).drop length = info :=
    List.drop_left' List.length_replicate
  obtain ⟨more, rfl⟩ : ∃ more, length = more + 1 := ⟨length - 1, by omega⟩
  rw [List.replicate_succ, List.cons_append] at run rest ⊢
  simp [Opening.ofBody?, run, rest, long, plain]

theorem isClosedBy_backticks (length : Nat) (info : List Char) :
    (Opening.mk '`' length info).isClosedBy (List.replicate length '`') := by
  have run : runLength '`' (List.replicate length '`' ++ []) = length :=
    runLength_replicate_append (by simp) length
  rw [List.append_nil] at run
  simp [Opening.isClosedBy, run]

section

variable {frame : Frame} {first last : Line} {middle : List Line}

private theorem fenceExtent_append {opening : Opening}
    (inside : ∀ line ∈ middle, frame.isOutside line = false)
    (ended : ∀ line ∈ middle, line.ended)
    (goesOn : ∀ line ∈ middle, frame.isCode line ∨
      ¬ opening.isClosedBy line.body) (filled : last.isBlank = false)
      (lastInside : frame.isOutside last = false)
    (shallow : frame.isCode last = false)
    (closes : opening.isClosedBy last.body) (rest : List Line) :
    fenceExtent frame opening (middle ++ last :: rest) =
      (middle.length, true) := by
  induction middle with
  | nil => simp [fenceExtent, filled, lastInside, shallow, closes]
  | cons line middle induction =>
      rw [List.forall_mem_cons] at inside ended goesOn
      have others := induction inside.2 ended.2 goesOn.2
      have opened :
          (!frame.isCode line && opening.isClosedBy line.body) = false := by
        rcases goesOn.1 with code | notClosed
        · simp [code]
        · simp [notClosed]
      simp [fenceExtent, inside.1, ended.1, Bool.and_assoc, opened, others]

theorem sequence_fence {length : Nat} {info : List Char}
    {texts : List (List Char)} (quoteContent itemContent : Nested)
    (margin : frame.indent = 0) (long : 3 ≤ length) (plain : '`' ∉ info)
    (opens : first.Reads (List.replicate length '`' ++ info))
    (reads : List.Forall₂ Line.Reads middle texts)
    (ended : ∀ line ∈ middle, line.ended) (goesOn : ∀ line ∈ middle,
      frame.isCode line ∨ ¬ (Opening.mk '`' length info).isClosedBy line.body)
    (closes : last.Reads (List.replicate length '`')) (rest : List Line) :
    sequence (step quoteContent itemContent) frame
      (first :: (middle ++ last :: rest)) =
      let others := sequence (step quoteContent itemContent) frame rest
      ⟨.fence first.number info texts true :: others.blocks, middle.length + 2 +
        others.used⟩ := by
  obtain ⟨more, rfl⟩ : ∃ more, length = more + 1 := ⟨length - 1, by omega⟩
  rcases opens.of_solid (by decide) with ⟨firstBody, firstIndent⟩
  rcases closes.of_solid (by decide) with ⟨lastBody, lastIndent⟩
  have notCode (line : Line) (atMargin : line.indent = 0) :
      frame.isCode line = false := by
    simp [Frame.isCode, margin, atMargin]
  have inside : ∀ line ∈ middle, frame.isOutside line = false := by
    intro line member
    rcases exists_reads_of_mem reads member with ⟨text, -, shows⟩
    exact shows.isOutside_eq margin
  have extent : fenceExtent frame ⟨'`', more + 1, info⟩
      (middle ++ last :: rest) = (middle.length, true) := by
    apply fenceExtent_append inside ended goesOn _ (closes.isOutside_eq margin)
      (notCode last lastIndent)
    · rw [lastBody]
      exact isClosedBy_backticks ..
    · rw [Line.isBlank, lastBody]
      rfl
  have opening : Opening.ofBody? first.body = some ⟨'`', more + 1, info⟩ := by
    rw [firstBody]
    exact opening_of_backticks long plain
  have fenced : fenceStep? frame first (middle ++ last :: rest) =
      some ⟨.fence first.number info texts true, middle.length + 1⟩ := by
    simp only [fenceStep?, notCode first firstIndent, opening,
      Option.map_some, extent, List.take_left, firstIndent, Int.toNat_zero,
      map_content_zero reads]
    rfl
  have made : step quoteContent itemContent frame first
      (middle ++ last :: rest) =
        ⟨.fence first.number info texts true, middle.length + 1⟩ := by
    simp [step, codeStep?, notCode first firstIndent, fenced]
  have dropped : (middle ++ last :: rest).drop (middle.length + 1) = rest := by
    simp
  rw [sequence_of_inside (by rw [Line.isBlank, firstBody]; rfl)
    (opens.isOutside_eq margin), made]
  dsimp only
  rw [dropped, ← Nat.add_assoc, Nat.add_comm 1]

end

end FencedJson.Markdown
