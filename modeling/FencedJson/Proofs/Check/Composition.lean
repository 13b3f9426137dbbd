import FencedJson.Proofs.Check.Report
import FencedJson.Proofs.Markdown.Passages

/-! # Checks of composed documents

A document that begins with complete passages is checked as if its parts were
checked one by one. The lines of what is found behind the passages count from
the end of them.
-/

namespace FencedJson

def Node.lower (count : Nat) : Node → Node
  | mk type lang value line children =>
      mk type lang value (line.map (· + count)) children

namespace Check

open Markdown (Fence Passage documentFences)

def BlockError.lower (count : Nat) (error : BlockError) : BlockError :=
  { error with line := error.line + count, line_pos :=
    Nat.le_add_right_of_le error.line_pos }

def Finding.lower (count : Nat) (finding : Finding) : Finding :=
  ⟨finding.block.lower count, finding.error.lower count⟩

/-! ## Lower blocks -/

section

variable {fence : Fence} {count : Nat}

end

/-! ## Findings -/

section

variable {stack : Stack}

end

end Check
end FencedJson
