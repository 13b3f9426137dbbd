import FencedJson.Proofs.Check.Order
import FencedJson.Proofs.Check.Refusals
import FencedJson.Proofs.Command.Configuration
import FencedJson.Proofs.Files.Inclusion

/-! # Reports of runs

A run that comes to its end prints the errors of the files that it has found,
file by file, and how many files there were. Its exit status tells whether
anything was refused.
-/

namespace FencedJson.Command

open Check
  (BlockError Checker IsAddressable IsToldBy ParseError Schedule Selection
    Summaries Summary SummaryId fileStack recordOf? refusal? refusalsOf report?)
open Check.Summary (errorLine failing)
open Markdown (Fence documentFences)

/-! ## From files to records -/

section

variable {stack : Stack} {disk : Disk} {arguments : Arguments} {config : Config}

end

/-! ## Lines -/

section

variable {stack : Stack} {disk : Disk} {root : Path} {files : List Path}
  {records : List (String × List BlockError)}

end

/-! ## Disks with one file -/

section

variable (content : List UInt8)

end

end FencedJson.Command
