import FencedJson.Check.Run
import FencedJson.Files.Discovery
import FencedJson.Setup.Config

/-! # The checker

A checker finds the files below its root and checks them when it is selected.
All of its runs record in one summary.
-/

namespace FencedJson.Check

/-- A selection of checks: a list of their names, or a text in which they occur.
-/
inductive Selection where
  | names (list : List String)
  | text (value : String)
  deriving DecidableEq, Repr

def Selection.contains : Selection → String → Bool
  | names list, key => list.contains key
  | text value, key => occursIn key.toList value.toList

structure Checker where
  root : Path
  config : Config
  workers : Int
  results : SummaryId

inductive CheckerFailure where
  | discovery (error : DiscoveryError)
  | run (failure : RunFailure)

def CheckerFailure.message : CheckerFailure → String
  | discovery error => error.message
  | run failure => failure.message

namespace Checker

def key : String := "mdjsonlint"

def start (root : Path) (config : Config) (workers : Int)
    (summaries : Summaries) :
    Checker × Summaries :=
  let (results, summaries) := summaries.fresh
  (⟨root, config, workers, results⟩, summaries)

def shouldRun (checker : Checker) : Option Selection → Bool
  | none => checker.config.enabled
  | some selection => selection.contains key

def findFiles (checker : Checker) (disk : Disk) :
    Except DiscoveryError (List (List String)) :=
  FencedJson.findFiles disk checker.root checker.config.includes
    checker.config.excludes

def skippedEvent : Event := ⟨.debug, "mdjsonlint.check", s!"{key} skipped"⟩

def scanningEvent (count : Nat) (root : Path) : Event :=
  ⟨.info, "mdjsonlint.check", s!"{key}: scanning {count} file(s) under {root}"⟩

def run (checker : Checker) (stack : Stack) (disk : Disk) (schedule : Schedule)
    (selection : Option Selection) (summaries : Summaries) :
    Summaries × Except CheckerFailure (SummaryId × List Event) :=
  if checker.shouldRun selection then
    match checker.findFiles disk with
    | .error error => (summaries, .error (.discovery error))
    | .ok files =>
        let (summaries, result) :=
          runChecks (stack.call 1) disk schedule checker.root checker.workers
            (files.map fun names => ⟨"/", names⟩)
            (some checker.results) summaries
        (summaries, (result.mapError CheckerFailure.run).map fun (id, events) =>
          (id, scanningEvent files.length checker.root :: events))
  else (summaries, .ok (checker.results, [skippedEvent]))

end Checker
end FencedJson.Check
