import FencedJson.Check.Pool
import FencedJson.Check.Summary
import FencedJson.Check.Validation
import FencedJson.Files.Tree
import FencedJson.Log
import FencedJson.Text.Newline
import FencedJson.Text.Utf8

/-! # Checking files

A run checks a list of files, and then records what came of each in a summary
that may have been recorded in before.
-/

namespace FencedJson.Check

inductive FileFailure where
  | path (problem : PathProblem)
  | encoding (fault : Utf8.Fault)
  | validation (failure : ValidationFailure)

def FileFailure.message : FileFailure → String
  | path problem => problem.message
  | encoding fault => fault.message
  | validation failure => failure.message

def readText (disk : Disk) (path : Path) : Except FileFailure String :=
  match disk.read path with
  | .error problem => .error (.path problem)
  | .ok content =>
      match Utf8.decode content with
      | .error fault => .error (.encoding fault)
      | .ok text => .ok (String.ofList (unifyNewlines text))

def checkFile (stack : Stack) (disk : Disk) (path : Path) :
    Except FileFailure (List Finding) :=
  match readText disk path with
  | .error failure => .error failure
  | .ok text => (checkText (stack.call 1) text).mapError .validation

def isShared (workers : Int) (paths : List Path) : Bool :=
  1 < workers && 1 < paths.length

/-- The stack on which the files of a run are checked. Workers that share them
have one of their own, and without them the check of a file is two calls further
in than the run. -/
def fileStack (stack : Stack) (workers : Int) (paths : List Path) : Stack :=
  if isShared workers paths then stack.worker else stack.call 2

/-- What is wrong with each of the files, or why the first one that could not be
checked could not. -/
def checkFiles (stack : Stack) (disk : Disk) (schedule : Schedule)
    (workers : Int) (paths : List Path) :
    Except FileFailure (List (List Finding)) :=
  let check := checkFile (fileStack stack workers paths) disk
  if isShared workers paths then Pool.results check workers.toNat schedule paths
  else paths.mapM check

inductive RunFailure where
  | file (failure : FileFailure)
  /-- A link on the way to the root or to a file leads back to itself. -/
  | loop (names : List String)

def RunFailure.message : RunFailure → String
  | file failure => failure.message
  | loop names => Disk.loopMessage names

/-- The name under which a file is recorded: its path as seen from the root,
both without links. -/
def recordedName (disk : Disk) (root path : Path) :
    Except (List String) String :=
  match disk.resolve path, disk.resolve root with
  | .ok target, .ok start => .ok (Path.relative target start).toString
  | .error names, _ => .error names
  | _, .error names => .error names

/-! ## Reports -/

def Finding.event (finding : Finding) : Event :=
  let kind := if isStrict finding.block then "json" else "json5"
  ⟨.debug, "mdjsonlint.validator",
    s!"{kind} block at line {finding.block.startLine} failed: {finding.error.message}"⟩

def checkedEvents (path : Path) (found : List Finding) : List Event :=
  found.map Finding.event ++
    [⟨.debug, "mdjsonlint.runner",
      s!"checked {path} ({found.length} error(s))"⟩]

def recordedEvents (name : String) (found : List Finding) : List Event :=
  match found with
  | [] => []
  | _ :: _ =>
      [⟨.warning, "mdjsonlint.runner",
        s!"{name}: {found.length} invalid JSON block(s)"⟩]

def summaryEvent (summary : Summary) : Event :=
  ⟨.info, "mdjsonlint.runner", s!"checked {summary.checked} file(s): " ++
    s!"{summary.valid} valid, {summary.invalid} invalid"⟩

/-! ## Runs -/

def recordFiles (disk : Disk) (root : Path) (summary : Summary) :
    List (Path × List Finding) → Summary × Except (List String) (List Event)
  | [] => (summary, .ok [])
  | (path, found) :: rest =>
      match recordedName disk root path with
      | .error names => (summary, .error names)
      | .ok name =>
          let (final, result) :=
            recordFiles disk root
              (summary.record name (found.map Finding.error)) rest
          (final, result.map (recordedEvents name found ++ ·))

/-- Check the files and record the outcomes in a summary. A run that comes to
nothing leaves behind what it has recorded by then. -/
def extend (stack : Stack) (disk : Disk) (schedule : Schedule) (root : Path)
    (workers : Int) (paths : List Path) (summary : Summary) :
    Summary × Except RunFailure (List Event) :=
  match checkFiles stack disk schedule workers paths with
  | .error failure => (summary, .error (.file failure))
  | .ok found =>
      let checked := paths.zip found
      match recordFiles disk root summary checked with
      | (final, .error names) => (final, .error (.loop names))
      | (final, .ok events) =>
          (final,
            .ok (checked.flatMap
              (fun (path, found) => checkedEvents path found) ++ events ++
                [summaryEvent final]))

/-- Check the files and record the outcomes in the given summary, or else in a
new one. -/
def runChecks (stack : Stack) (disk : Disk) (schedule : Schedule) (root : Path)
    (workers : Int) (paths : List Path) (given : Option SummaryId)
    (summaries : Summaries) :
    Summaries × Except RunFailure (SummaryId × List Event) :=
  let (id, summaries) := match given with
    | some id => (id, summaries)
    | none => summaries.fresh
  let (summary, result) := extend stack disk schedule root workers paths
      (summaries.get id)
  (summaries.put id summary, result.map (id, ·))

end FencedJson.Check
