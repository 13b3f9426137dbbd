import FencedJson.Check.Pool
import FencedJson.Proofs.Except

/-! # Outcomes of pools

However its moves are ordered, a pool hands over what its jobs give one after
the other. No pool with a worker in it gets stuck before that.
-/

namespace FencedJson.Check

namespace Pool

variable {α ε β : Type} {work : α → Except ε β} {workers : Nat}
  {pool final : Pool α ε β}

def forecast (work : α → Except ε β) (pool : Pool α ε β) : Except ε (List β) :=
  match pool.failure with
  | some failure => .error failure
  | none => ((pool.jobs.map Job.input).mapM work).map (pool.taken ++ ·)

def IsHonest (work : α → Except ε β) (pool : Pool α ε β) : Prop :=
  ∀ job ∈ pool.jobs, ∀ result, job.stage = .finished result →
  result = work job.input

theorem isHonest_ofInputs (inputs : List α) :
    (ofInputs inputs).IsHonest work := by
  intro job member result finished
  rcases List.mem_map.1 member with ⟨input, -, rfl⟩
  cases finished

theorem forecast_ofInputs (inputs : List α) :
    (ofInputs inputs).forecast work = inputs.mapM work := by
  have same :
      (inputs.map fun input => (⟨input, .waiting⟩ : Job α (Except ε β))).map
        Job.input = inputs := by
    rw [List.map_map]
    exact List.map_id inputs
  unfold forecast ofInputs
  simp only [same, List.nil_append]
  cases inputs.mapM work <;> rfl

/-! ## Moves -/

private theorem modify_spec {ρ : Type} {jobs : List (Job α ρ)} {index : Nat}
    {job : Job α ρ} (found : jobs[index]? = some job)
    (change : Job α ρ → Job α ρ) :
    ∃ front back, jobs = front ++ job :: back ∧
      jobs.modify index change = front ++ change job :: back := by
  rcases List.getElem?_eq_some_iff.1 found with ⟨within, -⟩
  rcases List.exists_of_modify change within with
    ⟨front, same, back, whole, length, modified⟩
  rw [whole, ← length, List.getElem?_append_right (Nat.le_refl _), Nat.sub_self,
    List.getElem?_cons_zero, Option.some.injEq] at found
  subst found
  exact ⟨front, back, whole, modified⟩

theorem allows_mem_moves {move : Move} (allowed : pool.allows workers move) :
    move ∈ pool.moves workers := by
  refine List.mem_filter.2 ⟨?_, allowed⟩
  have within : ∀ {index : Nat} {test : Job α (Except ε β) → Bool},
      pool.jobs[index]?.any test → index < pool.jobs.length := by
    intro index test some
    rcases (Option.any_eq_true _ _).1 some with ⟨job, found, -⟩
    exact (List.getElem?_eq_some_iff.1 found).1
  cases move with
  | take => exact List.mem_cons_self ..
  | finish index =>
      apply List.mem_cons_of_mem
      rw [List.mem_flatMap]
      exact ⟨index, List.mem_range.2 (within allowed), List.mem_cons_self ..⟩
  | begin index =>
      simp only [allows, Bool.and_eq_true] at allowed
      apply List.mem_cons_of_mem
      rw [List.mem_flatMap]
      exact ⟨index, List.mem_range.2 (within allowed.2),
        List.mem_cons_of_mem _ (List.mem_singleton_self _)⟩

/-- A job that goes on keeps its input, and if it has a result, it is that of
its work. -/
theorem modify_jobs_spec {jobs : List (Job α (Except ε β))} {index : Nat}
    {job : Job α (Except ε β)}
    {change : Job α (Except ε β) → Job α (Except ε β)} {taken : List β}
    {failure : Option ε} (found : jobs[index]? = some job)
    (kept : (change job).input = job.input)
    (right : ∀ result, (change job).stage = .finished result →
      result = work job.input)
      (honest : (Pool.mk jobs taken failure).IsHonest work) :
    (Pool.mk (jobs.modify index change) taken failure).IsHonest work ∧
      (Pool.mk (jobs.modify index change) taken failure).forecast work =
        (Pool.mk jobs taken failure).forecast work := by
  rcases modify_spec found change with ⟨front, back, rfl, modified⟩
  rw [modified]
  constructor
  · intro other member result finished
    rcases List.mem_append.1 member with inFront | inBack
    · exact honest other (List.mem_append_left _ inFront) result finished
    · rcases List.mem_cons.1 inBack with rfl | inBack
      · rw [kept]
        exact right result finished
      · exact honest other
          (List.mem_append_right _ (List.mem_cons_of_mem _ inBack))
          result finished
  · simp only [forecast, List.map_append, List.map_cons, kept]

theorem after_spec {move : Move} (honest : pool.IsHonest work)
    (allowed : pool.allows workers move) :
    (pool.after work move).IsHonest work ∧
      (pool.after work move).forecast work = pool.forecast work := by
  rcases pool with ⟨jobs, taken, failure⟩
  cases move with
  -- A job that changes its state keeps its input, and only inputs count for the
  -- forecast.
  | begin index =>
      simp only [allows, Bool.and_eq_true, Option.any_eq_true] at allowed
      rcases allowed with ⟨-, job, found, -⟩
      apply modify_jobs_spec found rfl _ honest
      intro result finished
      cases finished
  | finish index =>
      simp only [allows, Option.any_eq_true] at allowed
      rcases allowed with ⟨job, found, -⟩
      apply modify_jobs_spec found rfl _ honest
      intro result finished
      cases finished
      rfl
  | take =>
      simp only [allows, Bool.and_eq_true, Option.any_eq_true,
        Option.isNone_iff_eq_none] at allowed
      rcases allowed with ⟨rfl, job, found, finished⟩
      rcases List.head?_eq_some_iff.1 found with ⟨rest, rfl⟩
      rcases job with ⟨input, _ | _ | result⟩
      · cases finished
      · cases finished
      · have given : result = work input :=
          honest _ (List.mem_cons_self ..) result rfl
        have others := fun other member =>
            honest other (List.mem_cons_of_mem _ member)
        cases result with
        | ok value =>
            refine ⟨others, ?_⟩
            simp only [after, handOver, forecast, List.map_cons,
              mapM_cons_except, ← given]
            cases (rest.map Job.input).mapM work with
            | error failure => rfl
            | ok values => simp [Except.map]
        | error failure =>
            refine ⟨fun other member =>
              others other (List.mem_of_mem_filter member), ?_⟩
            simp only [after, handOver, forecast, List.map_cons,
              mapM_cons_except, ← given]
            rfl

/-! ## Ends -/

private theorem exists_allowed (staffed : 1 ≤ workers)
    (going : pool.failure = none) (left : pool.jobs ≠ []) :
    ∃ move, pool.allows workers move := by
  rcases List.exists_cons_of_ne_nil left with ⟨⟨input, stage⟩, rest, jobs⟩
  cases stage with
  | finished result =>
      exact ⟨.take, by simp [allows, going, jobs, Job.isFinished]⟩
  | running => exact ⟨.finish 0, by simp [allows, jobs, Job.isRunning]⟩
  | waiting =>
      by_cases room : pool.running < workers
      · exact ⟨.begin 0, by simp [allows, room, jobs, Job.isWaiting]⟩
      · have busy : 0 < pool.jobs.countP Job.isRunning := by
          unfold running at room
          omega
        rcases List.countP_pos_iff.1 busy with ⟨job, member, runs⟩
        rcases List.mem_iff_getElem?.1 member with ⟨index, found⟩
        exact ⟨.finish index, by simp [allows, found, runs]⟩

theorem outcome_of_moves_eq_nil (staffed : 1 ≤ workers)
    (resting : pool.moves workers = []) :
    pool.outcome = pool.forecast work := by
  unfold outcome forecast
  cases going : pool.failure with
  | some failure => rfl
  | none =>
      have done : pool.jobs = [] := by
        by_contra left
        rcases exists_allowed staffed going left with ⟨move, allowed⟩
        rw [List.eq_nil_iff_forall_not_mem] at resting
        exact resting move (allows_mem_moves allowed)
      rw [done]
      simp [Except.map, pure, Except.pure]

/-- A pool that comes out of another one by moves. -/
inductive Reaches (work : α → Except ε β) (workers : Nat) : Pool α ε β →
    Pool α ε β → Prop
  | refl (pool : Pool α ε β) : Reaches work workers pool pool
  | step {pool final : Pool α ε β} (move : Move)
      (allowed : pool.allows workers move)
      (later : Reaches work workers (pool.after work move) final) :
      Reaches work workers pool final

theorem Reaches.forecast_eq (reaches : Reaches work workers pool final)
    (honest : pool.IsHonest work) :
    final.forecast work = pool.forecast work := by
  induction reaches with
  | refl pool => rfl
  | step move allowed later induction =>
      rcases after_spec honest allowed with ⟨stillHonest, same⟩
      exact (induction stillHonest).trans same

theorem next?_eq_none_iff {choice : Nat} :
    pool.next? workers choice = none ↔ pool.moves workers = [] := by
  unfold next?
  constructor
  · intro none
    by_contra left
    have some := Nat.mod_lt choice (List.length_pos_of_ne_nil left)
    rw [List.getElem?_eq_none_iff] at none
    omega
  · intro resting
    rw [resting]
    rfl

theorem reaches_run (work : α → Except ε β) (workers : Nat)
    (schedule : Schedule) (time : Nat) (pool : Pool α ε β) :
    Reaches work workers pool (run work workers schedule time pool) ∧
      (run work workers schedule time pool).moves workers = [] := by
  fun_induction run work workers schedule time pool with
  | case1 time pool none => exact ⟨.refl pool, next?_eq_none_iff.1 none⟩
  | case2 time pool move chosen induction =>
      exact ⟨.step move (allows_of_next? chosen) induction.1, induction.2⟩

theorem run_of_moves_eq_nil {schedule : Schedule} {time : Nat}
    (resting : pool.moves workers = []) :
    run work workers schedule time pool = pool := by
  unfold run
  split
  · rfl
  · next chosen =>
      rw [next?_eq_none_iff.2 resting] at chosen
      cases chosen

theorem run_of_next? {schedule : Schedule} {time : Nat} {move : Move}
    (chosen : pool.next? workers (schedule time) = some move) :
    run work workers schedule time pool =
      run work workers schedule (time + 1) (pool.after work move) := by
  conv => lhs; unfold run
  split
  · next none =>
      rw [chosen] at none
      cases none
  · next other again =>
      rw [chosen] at again
      cases again
      rfl

private theorem run_congr {first second : Schedule} {time : Nat}
    (same : ∀ moment, time ≤ moment → first moment = second moment) :
    run work workers first time pool = run work workers second time pool := by
  fun_induction run work workers first time pool with
  | case1 time pool none => rw [run_of_moves_eq_nil (next?_eq_none_iff.1 none)]
  | case2 time pool move chosen induction =>
      rw [same time (Nat.le_refl _)] at chosen
      rw [run_of_next? chosen]
      apply induction
      intro moment later
      exact same moment (Nat.le_of_succ_le later)

theorem exists_schedule (reaches : Reaches work workers pool final)
    (resting : final.moves workers = []) (time : Nat) :
    ∃ schedule, run work workers schedule time pool = final := by
  induction reaches generalizing time with
  | refl pool => exact ⟨.inTurn, run_of_moves_eq_nil resting⟩
  | @step pool final move allowed later induction =>
      rcases induction resting (time + 1) with ⟨schedule, ends⟩
      rcases List.mem_iff_getElem?.1 (allows_mem_moves allowed) with
        ⟨index, found⟩
      have within := (List.getElem?_eq_some_iff.1 found).1
      let first : Schedule := fun moment =>
          if moment = time then index else schedule moment
      have chosen : pool.next? workers (first time) = some move := by
        simp only [next?, first, if_true, Nat.mod_eq_of_lt within, found]
      have afterwards : ∀ moment, time + 1 ≤ moment →
          first moment = schedule moment := by
        intro moment later
        exact if_neg (by omega)
      refine ⟨first, ?_⟩
      rw [run_of_next? chosen, run_congr afterwards, ends]

theorem results_eq_mapM (staffed : 1 ≤ workers) (schedule : Schedule)
    (inputs : List α) :
    results work workers schedule inputs = inputs.mapM work := by
  rcases reaches_run work workers schedule 0 (ofInputs inputs) with
    ⟨reaches, resting⟩
  calc results work workers schedule inputs
    _ = (run work workers schedule 0 (ofInputs inputs)).forecast work :=
      outcome_of_moves_eq_nil staffed resting
    _ = (ofInputs inputs).forecast work :=
      reaches.forecast_eq (isHonest_ofInputs inputs)
    _ = inputs.mapM work := forecast_ofInputs inputs

end Pool
end FencedJson.Check
