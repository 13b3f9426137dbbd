import FencedJson.Check.Checker

/-! # Sessions

A session is the life of a checker. Its files change, its configuration is
replaced, it runs, and files of another list are checked and recorded among its
results.
-/

namespace FencedJson.Check

structure Session where
  checker : Checker
  disk : Disk
  summaries : Summaries

inductive Action where
  /-- The files change, as when one is written or removed. -/
  | change (change : Disk → Disk)
  | configure (config : Config)
  | run (stack : Stack) (schedule : Schedule) (selection : Option Selection)
  /-- Listed files are checked, and recorded in the summary of the checker. -/
  | check (stack : Stack) (schedule : Schedule) (root : Path) (workers : Int)
      (paths : List Path)

inductive Reply where
  | done
  /-- A run came to its end, and this is the summary that it returned. -/
  | returned (id : SummaryId) (events : List Event)
  | failed (failure : CheckerFailure)

namespace Reply

def ofResult : Except CheckerFailure (SummaryId × List Event) → Reply
  | .ok (id, events) => returned id events
  | .error failure => failed failure

def isReturned : Reply → Bool
  | returned _ _ => true
  | done | failed _ => false

end Reply

namespace Session

def start (root : Path) (config : Config) (workers : Int) (disk : Disk) :
    Session :=
  let (checker, summaries) := Checker.start root config workers .empty
  ⟨checker, disk, summaries⟩

def results (session : Session) : Summary :=
  session.summaries.get session.checker.results

def step (session : Session) : Action → Session × Reply
  | .change change => ({ session with disk := change session.disk }, .done)
  | .configure config =>
      ({ session with checker := { session.checker with config } }, .done)
  | .run stack schedule selection =>
      let (summaries, result) :=
        session.checker.run stack session.disk schedule selection
          session.summaries
      ({ session with summaries }, .ofResult result)
  | .check stack schedule root workers paths =>
      let (summaries, result) :=
        runChecks stack session.disk schedule root workers paths
          (some session.checker.results) session.summaries
      ({ session with summaries }, .ofResult (result.mapError .run))

end Session
end FencedJson.Check
