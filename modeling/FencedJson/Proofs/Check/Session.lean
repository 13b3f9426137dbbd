import FencedJson.Check.Session
import FencedJson.Proofs.Check.Recording

/-! # The results of a session

After any session the results of its checker are what its completed runs
recorded, one run after the other. A run that fails has recorded nothing.
-/

namespace FencedJson.Check

/-- The files of a run, in its order, and the stack on which each of them is
checked. -/
structure Listing where
  stack : Stack
  root : Path
  paths : List Path

namespace Session

/-- What the run that an action asks for goes over. No run is made for a check
that is not selected, or when its files cannot be listed. -/
def listing? (session : Session) : Action → Option Listing
  | .run stack _ selection =>
      if session.checker.shouldRun selection then
        match session.checker.findFiles session.disk with
        | .ok files =>
            let paths := files.map fun names => (⟨"/", names⟩ : Path)
            some ⟨fileStack (stack.call 1) session.checker.workers paths,
              session.checker.root, paths⟩
        | .error _ => none
      else none
  | .check stack _ root workers paths =>
      some ⟨fileStack stack workers paths, root, paths⟩
  | .change _ | .configure _ => none

def afterAll (session : Session) (actions : List Action) : Session :=
  actions.foldl (fun session action => (session.step action).1) session

end Session

structure Turn where
  before : Session
  action : Action
  reply : Reply
  after : Session

def Session.turn (session : Session) (action : Action) : Turn :=
  ⟨session, action, (session.step action).2, (session.step action).1⟩

def Session.turns : Session → List Action → List Turn
  | _, [] => []
  | session, action :: rest =>
      session.turn action :: (session.step action).1.turns rest

/-- The entries of a completed run: each of its files in order, with the name
and the errors that it has at that time. -/
def Turn.entries (turn : Turn) : List (String × List BlockError) :=
  match turn.reply, turn.before.listing? turn.action with
  | .returned _ _, some listing =>
      listing.paths.filterMap
        (recordOf? listing.stack turn.before.disk listing.root)
  | _, _ => []

/-- A run that comes to its end records all of its files in the shared summary,
and any other action leaves it as it was. -/
structure Turn.IsAtomic (results : SummaryId) (turn : Turn) : Prop where
  recorded : turn.after.results = turn.before.results.recordAll turn.entries
  complete : turn.reply.isReturned → ∀ listing,
    turn.before.listing? turn.action = some listing → ∀ path ∈ listing.paths,
      (recordOf? listing.stack turn.before.disk listing.root path).isSome
  shared : turn.after.checker.results = results ∧
    ∀ id events, turn.reply = .returned id events → id = results
  /-- Nothing is recorded by a check that is not selected or by a run that
  fails. -/
  untouched : turn.reply.isReturned = false ∨
      turn.before.listing? turn.action = none →
    turn.after.results = turn.before.results
  /-- The first file that cannot be checked decides how a run fails. -/
  fails : ∀ listing before path after failure,
    turn.before.listing? turn.action = some listing →
      listing.paths = before ++ path :: after →
        (∀ earlier ∈ before, ∃ found,
          checkFile listing.stack turn.before.disk earlier = .ok found) →
          checkFile listing.stack turn.before.disk path = .error failure →
            turn.reply = .failed (.run (.file failure))

/-! ## One action -/

theorem Turn.entries_eq_nil {turn : Turn}
    (nothing : turn.reply.isReturned = false ∨
      turn.before.listing? turn.action = none) :
    turn.entries = [] := by
  unfold Turn.entries
  split
  · next returned listed =>
      rcases nothing with unreturned | unlisted
      · rw [returned] at unreturned
        cases unreturned
      · cases listed.symm.trans unlisted
  · rfl

namespace Session

variable {session : Session} {action : Action}

def IsValid (session : Session) : Prop :=
  session.summaries.Holds session.checker.results

theorem isValid_start (root : Path) (config : Config) (workers : Int)
    (disk : Disk) :
    (start root config workers disk).IsValid ∧
      (start root config workers disk).results = .empty := by
  constructor
  · exact Nat.zero_lt_one
  · rfl

theorem step_of_listing? {listing : Listing}
    (listed : session.listing? action = some listing) :
    ∃ stack schedule workers,
      fileStack stack workers listing.paths = listing.stack ∧
      let extended := extend stack session.disk schedule listing.root
          workers listing.paths
        session.results
      (session.step action).1 = { session with
        summaries := session.summaries.put session.checker.results
          extended.1 } ∧
      match extended.2 with
      | .ok _ =>
          ∃ events, (session.step action).2 =
            .returned session.checker.results events
      | .error failure => (session.step action).2 = .failed (.run failure) := by
  cases action with
  | change | configure => cases listed
  | check stack schedule root workers paths =>
      cases listed
      refine ⟨stack, schedule, workers, rfl, rfl, ?_⟩
      simp only [step, runChecks, results]
      split
      · next ended => exact ⟨_, by rw [ended]; rfl⟩
      · next ended => rw [ended]; rfl
  | run stack schedule selection =>
      simp only [listing?] at listed
      split at listed
      · next selected =>
          split at listed
          · next files found =>
              cases listed
              refine ⟨stack.call 1, schedule,
                session.checker.workers, rfl, ?_, ?_⟩
              · simp only [step, Checker.run, selected, found, runChecks,
                  results, if_true]
              · simp only [step, Checker.run, selected, found, runChecks,
                  results, if_true]
                split
                · next ended => exact ⟨_, by rw [ended]; rfl⟩
                · next ended => rw [ended]; rfl
          · cases listed
      · cases listed

theorem step_of_listing?_eq_none (none : session.listing? action = none) :
    (session.step action).1.summaries = session.summaries ∧
      (session.step action).1.checker.results = session.checker.results ∧
      ∀ id events, (session.step action).2 = .returned id events →
        id = session.checker.results := by
  cases action with
  | change | configure => exact ⟨rfl, rfl, fun _ _ returned => nomatch returned⟩
  | check => cases none
  | run stack schedule selection =>
      simp only [listing?] at none
      split at none
      · next selected =>
          split at none
          · cases none
          · next error found =>
              simp only [step, Checker.run, selected, found, if_true]
              exact ⟨trivial, trivial, fun _ _ returned => nomatch returned⟩
      · next unselected =>
          simp only [step, Checker.run, if_neg unselected]
          refine ⟨trivial, trivial, ?_⟩
          intro id events returned
          cases returned
          rfl

theorem shared_step (action : Action) :
    (session.step action).1.checker.results = session.checker.results ∧
      ∀ id events, (session.step action).2 = .returned id events →
        id = session.checker.results := by
  cases listed : session.listing? action with
  | none => exact (step_of_listing?_eq_none listed).2
  | some run =>
      rcases step_of_listing? listed with
        ⟨stack, schedule, workers, -, made, replied⟩
      refine ⟨by rw [made], ?_⟩
      intro id events returned
      rw [returned] at replied
      split at replied
      · rcases replied with ⟨_, same⟩
        cases same
        rfl
      · cases replied

theorem isValid_step (valid : session.IsValid) (action : Action) :
    (session.step action).1.IsValid := by
  unfold IsValid
  rw [(shared_step action).1]
  cases listed : session.listing? action with
  | none => rwa [(step_of_listing?_eq_none listed).1]
  | some run =>
      rcases step_of_listing? listed with ⟨stack, schedule, workers, -, made, -⟩
      rw [made]
      exact Summaries.holds_put.2 valid

theorem step_ends (valid : session.IsValid) {listing : Listing}
    (listed : session.listing? action = some listing) :
    (∃ entries events,
        listing.paths.mapM (recordOf? listing.stack session.disk listing.root) =
          some entries ∧
        (session.step action).2 = .returned session.checker.results events ∧
        (session.step action).1.results = session.results.recordAll entries) ∨
      ∃ failure, (session.step action).2 = .failed failure ∧
        (session.step action).1.results = session.results := by
  rcases step_of_listing? listed with
    ⟨stack, schedule, workers, same, made, replied⟩
  have extended : (session.step action).1.results =
      (extend stack session.disk schedule listing.root workers listing.paths
        session.results).1 := by
    simp only [results, made]
    exact Summaries.get_put_self valid _
  have spec := extend_spec stack session.disk schedule listing.root
      workers listing.paths
    session.results
  rw [same] at spec
  rcases spec with
    ⟨entries, all, events, ended⟩ | ⟨failure, ended⟩
  · rw [ended] at extended replied
    rcases replied with ⟨events, returned⟩
    exact .inl ⟨entries, events, all, returned, extended⟩
  · rw [ended] at extended replied
    exact .inr ⟨_, replied, extended⟩

theorem recorded_turn (valid : session.IsValid) (action : Action) :
    (session.turn action).after.results =
      session.results.recordAll (session.turn action).entries := by
  cases listed : session.listing? action with
  | none =>
      rcases step_of_listing?_eq_none listed with ⟨same, id, -⟩
      rw [Turn.entries_eq_nil (.inr listed)]
      simp only [turn, results, same, id]
      rfl
  | some run =>
      rcases step_ends valid listed with
        ⟨entries, events, all, returned, recorded⟩ | ⟨failure, failed, kept⟩
      · have whole : (session.turn action).entries = entries := by
          simp only [turn, Turn.entries, returned, listed]
          exact (filterMap_of_mapM all).1
        rw [whole]
        exact recorded
      · have unreturned : (session.turn action).reply.isReturned = false := by
          rw [turn, failed]
          rfl
        rw [Turn.entries_eq_nil (.inl unreturned)]
        exact kept

private theorem isAtomic_turn (valid : session.IsValid) (action : Action) :
    (session.turn action).IsAtomic session.checker.results where
  recorded := recorded_turn valid action
  complete := by
    intro ended listing listed
    change (session.step action).2.isReturned = true at ended
    have named : session.listing? action = some listing := listed
    rcases step_ends valid named with
      ⟨entries, events, all, -⟩ | ⟨failure, failed, -⟩
    · exact (filterMap_of_mapM all).2
    · rw [failed] at ended
      cases ended
  shared := shared_step action
  untouched := by
    intro nothing
    rw [recorded_turn valid action, Turn.entries_eq_nil nothing]
    rfl
  fails := by
    intro listing before path after failure listed split fine failing
    rcases step_of_listing? listed with
      ⟨stack, schedule, workers, same, -, replied⟩
    rw [← same] at fine failing
    rw [extend_of_failure split fine failing] at replied
    exact replied

/-! ## All actions -/

private theorem turns_spec (valid : session.IsValid) (actions : List Action) :
    (session.afterAll actions).results =
        session.results.recordAll
          ((session.turns actions).flatMap Turn.entries) ∧
      ∀ turn ∈ session.turns actions, turn.IsAtomic
        session.checker.results := by
  induction actions generalizing session with
  | nil => exact ⟨rfl, fun turn member => nomatch member⟩
  | cons action rest induction =>
      rcases induction (isValid_step valid action) with ⟨replayed, atomic⟩
      have first := isAtomic_turn valid action
      rw [(shared_step action).1] at atomic
      constructor
      · calc (session.afterAll (action :: rest)).results
          _ = (session.step action).1.results.recordAll
                (((session.step action).1.turns rest).flatMap Turn.entries) :=
                  replayed
          _ = session.results.recordAll
                ((session.turns (action :: rest)).flatMap Turn.entries) := by
            rw [turns, List.flatMap_cons, Summary.recordAll_append,
              ← recorded_turn valid]
            rfl
      · intro turn member
        rcases List.mem_cons.1 member with rfl | later
        · exact first
        · exact atomic turn later

end Session

/-- After any session the results are those of a new summary in which the
completed runs have recorded their files, run after run. All other actions leave
them as they are, and all runs record in the one summary that the checker began
with. -/
theorem session_results_eq_replay (root : Path) (config : Config)
    (workers : Int) (disk : Disk) (actions : List Action) :
    let session := Session.start root config workers disk
    (session.afterAll actions).results =
        Summary.empty.recordAll ((session.turns actions).flatMap Turn.entries) ∧
      ∀ turn ∈ session.turns actions, turn.IsAtomic
        session.checker.results := by
  intro session
  rcases Session.isValid_start root config workers disk with ⟨valid, new⟩
  rcases Session.turns_spec valid actions with ⟨replayed, atomic⟩
  rw [new] at replayed
  exact ⟨replayed, atomic⟩

/-- A run over a missing file fails for that file and records nothing, not even
the file before it. The run after it records its file twice. -/
theorem session_results_eq_replay_missing_file :
    let disk : Disk := ⟨.directory [("a.md", .file [])], []⟩
    let root : Path := ⟨"/", []⟩
    let file : Path := ⟨"/", ["a.md"]⟩
    let failing : Action :=
      .check .standard .inTurn root 1 [file, ⟨"/", ["b.md"]⟩]
    let session := Session.start root .standard 1 disk
    (session.turn failing).reply = .failed (.run (.file (.path .notFound))) ∧
      (session.turn failing).after.results = .empty ∧
      (session.afterAll [failing,
        .check .standard .inTurn root 2 [file, file]]).results =
          ⟨2, 2, 0, []⟩ := by
  intro disk root file failing session
  have first : checkFile (.call .standard 2) disk file = .ok [] :=
    checkFile_of_empty (by decide +kernel)
  have missing : disk.read ⟨"/", ["b.md"]⟩ = .error .notFound := by
    decide +kernel
  have second : checkFile (.call .standard 2) disk ⟨"/", ["b.md"]⟩ =
      .error (.path .notFound) := by rw [checkFile, readText, missing]
  have fine : ∀ earlier ∈ [file],
      ∃ found, checkFile (.call .standard 2) disk earlier = .ok found := by
    intro earlier member
    rw [List.mem_singleton.1 member]
    exact ⟨[], first⟩
  rcases session_results_eq_replay root .standard 1 disk
    [failing, .check .standard .inTurn root 2 [file, file]] with
      ⟨replayed, atomic⟩
  have turn := atomic (session.turn failing) (List.mem_cons_self ..)
  have failed := turn.fails ⟨.call .standard 2, root, [file, ⟨"/", ["b.md"]⟩]⟩
      [file] ⟨"/", ["b.md"]⟩ []
    _ rfl rfl fine second
  have unreturned : (session.turn failing).reply.isReturned = false := by
    rw [failed]
    rfl
  refine ⟨failed, turn.untouched (.inl unreturned), ?_⟩
  rw [replayed]
  decide +kernel

end FencedJson.Check
