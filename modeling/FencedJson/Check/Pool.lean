/-! # Pools of workers

Several workers share the jobs of a list. Each takes up a job that waits, and
later has its result. Results are handed over in the order of the jobs, and a
failure among them ends the handing over: jobs that still wait then are dropped.
Which of the possible moves comes next is up to a schedule.
-/

namespace FencedJson.Check

inductive Stage (ρ : Type) where
  | waiting
  | running
  | finished (result : ρ)

structure Job (α ρ : Type) where
  input : α
  stage : Stage ρ

namespace Job

variable {α ρ : Type}

def isWaiting (job : Job α ρ) : Bool :=
  match job.stage with
  | .waiting => true
  | _ => false

def isRunning (job : Job α ρ) : Bool :=
  match job.stage with
  | .running => true
  | _ => false

def isFinished (job : Job α ρ) : Bool :=
  match job.stage with
  | .finished _ => true
  | _ => false

def begun (job : Job α ρ) : Job α ρ := { job with stage := .running }

def finished (work : α → ρ) (job : Job α ρ) : Job α ρ :=
  { job with stage := .finished (work job.input) }

def distance (job : Job α ρ) : Nat :=
  match job.stage with
  | .waiting => 3
  | .running => 2
  | .finished _ => 1

def distances : List (Job α ρ) → Nat
  | [] => 0
  | job :: rest => job.distance + distances rest

end Job

structure Pool (α ε β : Type) where
  jobs : List (Job α (Except ε β))
  taken : List β
  failure : Option ε

/-- What can happen in a pool. Jobs are known by their place among those that
are left. -/
inductive Move where
  | begin (index : Nat)
  | finish (index : Nat)
  | take

/-- How the choice between possible moves falls at each time. -/
abbrev Schedule := Nat → Nat

namespace Schedule

def inTurn : Schedule := fun _ => 0

end Schedule

namespace Pool

variable {α ε β : Type}

def ofInputs (inputs : List α) : Pool α ε β :=
  ⟨inputs.map (⟨·, .waiting⟩), [], none⟩

def running (pool : Pool α ε β) : Nat := pool.jobs.countP Job.isRunning

def allows (workers : Nat) (pool : Pool α ε β) : Move → Bool
  | .begin index =>
      pool.running < workers && pool.jobs[index]?.any Job.isWaiting
  | .finish index => pool.jobs[index]?.any Job.isRunning
  | .take => pool.failure.isNone && pool.jobs.head?.any Job.isFinished

def handOver (pool : Pool α ε β) : Pool α ε β :=
  match pool.jobs with
  | ⟨_, .finished (.ok value)⟩ :: rest =>
      { pool with jobs := rest, taken := pool.taken ++ [value] }
  | ⟨_, .finished (.error failure)⟩ :: rest =>
      { pool with
        jobs := rest.filter fun job => !job.isWaiting
        failure := some failure }
  | _ => pool

def after (work : α → Except ε β) (pool : Pool α ε β) : Move → Pool α ε β
  | .begin index => { pool with jobs := pool.jobs.modify index Job.begun }
  | .finish index =>
      { pool with jobs := pool.jobs.modify index (Job.finished work) }
  | .take => pool.handOver

def moves (workers : Nat) (pool : Pool α ε β) : List Move :=
  (Move.take :: (List.range pool.jobs.length).flatMap fun index =>
    [.finish index, .begin index]).filter (pool.allows workers)

def next? (workers choice : Nat) (pool : Pool α ε β) : Option Move :=
  (pool.moves workers)[choice % (pool.moves workers).length]?

def distance (pool : Pool α ε β) : Nat := Job.distances pool.jobs

theorem allows_of_next? {workers choice : Nat} {pool : Pool α ε β} {move : Move}
    (chosen : pool.next? workers choice = some move) :
    pool.allows workers move :=
  (List.mem_filter.1 (List.mem_of_getElem? chosen)).2

theorem distance_modify_lt {ρ : Type} {jobs : List (Job α ρ)} {index : Nat}
    {job : Job α ρ} {change : Job α ρ → Job α ρ}
    (found : jobs[index]? = some job)
    (nearer : (change job).distance < job.distance) :
    Job.distances (jobs.modify index change) < Job.distances jobs := by
  induction jobs generalizing index with
  | nil => simp at found
  | cons first rest induction =>
      cases index with
      | zero =>
          cases found
          exact Nat.add_lt_add_right nearer _
      | succ index =>
          exact Nat.add_lt_add_left (induction (by simpa using found)) _

theorem distance_filter_le {ρ : Type} (keep : Job α ρ → Bool)
    (jobs : List (Job α ρ)) :
    Job.distances (jobs.filter keep) ≤ Job.distances jobs := by
  induction jobs with
  | nil => exact Nat.le_refl _
  | cons job rest induction =>
      rw [List.filter_cons]
      split <;> simp only [Job.distances] <;> omega

theorem distance_after_lt (work : α → Except ε β) {workers : Nat}
    {pool : Pool α ε β} {move : Move} (allowed : pool.allows workers move) :
    (pool.after work move).distance < pool.distance := by
  cases move with
  | begin index =>
      simp only [allows, Bool.and_eq_true, Option.any_eq_true] at allowed
      rcases allowed with ⟨-, job, found, waiting⟩
      apply distance_modify_lt found
      unfold Job.isWaiting at waiting
      split at waiting
      · next stage => simp [Job.distance, Job.begun, stage]
      · simp at waiting
  | finish index =>
      simp only [allows, Option.any_eq_true] at allowed
      rcases allowed with ⟨job, found, running⟩
      apply distance_modify_lt found
      unfold Job.isRunning at running
      split at running
      · next stage => simp [Job.distance, Job.finished, stage]
      · simp at running
  | take =>
      simp only [allows, Bool.and_eq_true, Option.any_eq_true] at allowed
      rcases allowed with ⟨-, job, found, finished⟩
      unfold Job.isFinished at finished
      split at finished
      · next result stage =>
          rcases pool with ⟨jobs, taken, failure⟩
          rcases List.head?_eq_some_iff.1 found with ⟨rest, rfl⟩
          rcases job with ⟨input, _⟩
          subst stage
          cases result with
          | ok value =>
              simp [after, handOver, distance, Job.distances, Job.distance]
          | error failure =>
              have := distance_filter_le (fun job => !job.isWaiting) rest
              simp only [after, handOver, distance, Job.distances, Job.distance]
              omega
      · simp at finished

def run (work : α → Except ε β) (workers : Nat)
    (schedule : Schedule) (time : Nat) (pool : Pool α ε β) : Pool α ε β :=
  match chosen : pool.next? workers (schedule time) with
  | none => pool
  | some move => run work workers schedule (time + 1) (pool.after work move)
termination_by pool.distance
decreasing_by exact distance_after_lt work (allows_of_next? chosen)

def outcome (pool : Pool α ε β) : Except ε (List β) :=
  match pool.failure with
  | some failure => .error failure
  | none => .ok pool.taken

def results (work : α → Except ε β) (workers : Nat) (schedule : Schedule)
    (inputs : List α) :
    Except ε (List β) :=
  (run work workers schedule 0 (ofInputs inputs)).outcome

end Pool
end FencedJson.Check
