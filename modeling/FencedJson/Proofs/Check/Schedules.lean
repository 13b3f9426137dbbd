import FencedJson.Proofs.Check.LineEnds

/-! # Pools and single runs

A pool comes to the same in every order of its moves. Its workers have a stack
of their own, so that a run with a pool comes to what a run without one does as
long as the files are checked alike on both stacks, and no longer than that.
-/

namespace FencedJson.Check

/-! ## Records on two stacks -/

theorem countP_eq_imp {α : Type} {items : List α} {few many : α → Bool}
    (implies : ∀ item ∈ items, few item → many item)
    (same : items.countP few = items.countP many) : ∀ item ∈ items, many item →
    few item := by
  induction items with
  | nil => exact nofun
  | cons item rest induction =>
      rcases List.forall_mem_cons.1 implies with ⟨first, others⟩
      have bound := List.countP_mono_left others
      rw [List.countP_cons, List.countP_cons] at same
      have here : many item → few item := by
        intro holds
        by_contra fails
        simp only [holds, fails, if_true, if_false] at same
        omega
      have rest : rest.countP few = rest.countP many := by
        have both : few item = many item := Bool.eq_iff_iff.2 ⟨first, here⟩
        rw [both] at same
        omega
      exact List.forall_mem_cons.2 ⟨here, induction others rest⟩

section

variable {narrow wide : Stack} {disk : Disk} {root : Path} {paths : List Path}
  {records records' : List (String × List BlockError)}

def isFailing (stack : Stack) (disk : Disk) (root path : Path) : Bool :=
  (recordOf? stack disk root path).any fun record => record.2 ≠ []

theorem isFailing_eq {stack : Stack} {path : Path}
    {record : String × List BlockError}
    (recorded : recordOf? stack disk root path = some record) :
    isFailing stack disk root path = decide (record.2 ≠ []) := by
  rw [isFailing, recorded, Option.any_some]

theorem length_failing_of_records
    (all : paths.mapM (recordOf? narrow disk root) = some records) :
    (Summary.failing records).length =
      paths.countP (isFailing narrow disk root) := by
  have pairs := forall₂_of_mapM all
  clear all
  induction pairs with
  | nil => rfl
  | cons recorded _ induction =>
      rw [List.countP_cons, ← induction, isFailing_eq recorded,
        Summary.failing, Summary.failing, List.filter_cons]
      split <;> simp [*]

theorem isFailing_of_isWithin (within : narrow.IsWithin wide) {path : Path}
    (recorded : (recordOf? narrow disk root path).isSome)
    (fails : isFailing wide disk root path) :
    isFailing narrow disk root path := by
  rcases Option.isSome_iff_exists.1 recorded with ⟨⟨name, errors⟩, found⟩
  rcases recordOf?_eq_some_iff.1 found with ⟨named, here, checked, rfl⟩
  cases here with
  | cons first rest => simp [isFailing, found]
  | nil =>
      have fine := checkFile_eq_nil_of_isWithin within checked
      have recorded' := recordOf?_eq_some_iff.2 ⟨named, [], fine, rfl⟩
      rw [isFailing, recorded'] at fails
      cases fails

/-- As many files fail on both stacks, and those that fail on the larger one
fail on the other as well, so they are the same ones. -/
theorem isFailing_eq_of_recordAll (within : narrow.IsWithin wide)
    (all : paths.mapM (recordOf? narrow disk root) = some records)
    (all' : paths.mapM (recordOf? wide disk root) = some records')
    {summary : Summary}
    (same : summary.recordAll records = summary.recordAll records') :
    ∀ path ∈ paths, isFailing narrow disk root path =
      isFailing wide disk root path := by
  have present := (filterMap_of_mapM all).2
  have implies : ∀ path ∈ paths, isFailing wide disk root path →
      isFailing narrow disk root path :=
    fun path member => isFailing_of_isWithin within (present path member)
  have counts : paths.countP (isFailing wide disk root) =
      paths.countP (isFailing narrow disk root) := by
    have invalid := congrArg Summary.invalid same
    rw [(Summary.recordAll_spec ..).2.2.1, (Summary.recordAll_spec ..).2.2.1,
      length_failing_of_records all, length_failing_of_records all'] at invalid
    omega
  have fails := countP_eq_imp implies counts
  exact fun path member =>
    Bool.eq_iff_iff.2 ⟨fails path member, implies path member⟩

theorem records_eq_of_recordAll (within : narrow.IsWithin wide)
    (named : disk.HasNames IsFileName)
    (all : paths.mapM (recordOf? narrow disk root) = some records)
    (all' : paths.mapM (recordOf? wide disk root) = some records')
    {summary : Summary}
    (same : summary.recordAll records = summary.recordAll records') :
    ∀ path ∈ paths, recordOf? narrow disk root path =
      recordOf? wide disk root path := by
  intro path member
  rcases Option.isSome_iff_exists.1
    ((filterMap_of_mapM all).2 path member) with ⟨⟨name, errors⟩, found⟩
  rcases Option.isSome_iff_exists.1
    ((filterMap_of_mapM all').2 path member) with ⟨⟨name', errors'⟩, found'⟩
  have under : name' = name := by
    have first := (recordOf?_eq_some_iff.1 found).1
    exact (Except.ok.inj
      (first.symm.trans (recordOf?_eq_some_iff.1 found').1)).symm
  subst under
  have failing : errors ≠ [] ↔ errors' ≠ [] := by
    have alike := isFailing_eq_of_recordAll within all all' same path member
    rwa [isFailing_eq found, isFailing_eq found', decide_eq_decide] at alike
  rw [found, found']
  by_cases fine : errors = []
  · rw [fine, not_not.1 fun some => failing.2 some fine]
  · have listed := mem_of_mapM all member found
    have listed' := mem_of_mapM all' member found'
    have kept := Summary.lookup_recordAll_of_mem summary
      (fun other among => errors_eq_of_records named all among listed)
      fine listed
    have kept' := Summary.lookup_recordAll_of_mem summary
      (fun other among => errors_eq_of_records named all' among listed')
      (failing.1 fine) listed'
    rw [same, kept', Option.some.injEq] at kept
    rw [kept]

theorem recordOf?_of_loop (stack : Stack) {names : List String}
    (loops : disk.resolve root = .error names) (path : Path) :
    recordOf? stack disk root path = none := by
  unfold recordOf? recordedName
  cases disk.resolve path <;> simp [loops]

end

/-! ## Runs -/

section

variable {stack : Stack} {disk : Disk} {root : Path} {paths : List Path}
  {summaries : Summaries}

theorem Stack.isWithin_total {first second : Stack}
    (same : first.relaxed = second.relaxed) :
    first.IsWithin second ∨ second.IsWithin first := by
  rcases Nat.le_total first.frames second.frames with fewer | fewer
  · exact .inl ⟨fewer, same⟩
  · exact .inr ⟨fewer, same.symm⟩

private theorem recordOf?_eq_of_recordAll {first second : Stack}
    (same : first.relaxed = second.relaxed) (named : disk.HasNames IsFileName)
    (readable : ∀ path ∈ paths, IsReadable disk path)
    (rooted : paths ≠ [] → ∃ start, disk.resolve root = .ok start)
    {summary : Summary}
    (alike : summary.recordAll (recordsOf first disk root paths) =
      summary.recordAll (recordsOf second disk root paths)) :
    ∀ path ∈ paths, recordOf? first disk root path =
      recordOf? second disk root path := by
  have all := mapM_recordOf?_eq first readable rooted
  have all' := mapM_recordOf?_eq second readable rooted
  rcases Stack.isWithin_total same with within | within
  · exact records_eq_of_recordAll within named all all' alike
  · exact fun path member =>
      (records_eq_of_recordAll within named all' all alike.symm
        path member).symm

theorem runChecks_pool_eq_iff {workers : Int} {id : SummaryId}
    (named : disk.HasNames IsFileName)
    (readable : ∀ path ∈ paths, IsReadable disk path)
    (held : summaries.Holds id) (schedule inTurn : Schedule) :
    let pooled := runChecks stack disk schedule root workers paths
        (some id) summaries
    let single := runChecks stack disk inTurn root 1 paths (some id) summaries
    pooled.2.map Prod.fst = single.2.map Prod.fst ∧
      (pooled.1 = single.1 ↔ (isShared workers paths → ∀ path ∈ paths,
        recordOf? stack.worker disk root path =
          recordOf? (stack.call 2) disk root path)) := by
  intro pooled single
  by_cases rooted : paths ≠ [] → ∃ start, disk.resolve root = .ok start
  · rcases runChecks_of_rooted stack readable rooted schedule workers id
      summaries with ⟨events, ran⟩
    rcases runChecks_of_rooted stack readable rooted inTurn 1 id summaries with
      ⟨events', ran'⟩
    have alone : fileStack stack 1 paths = stack.call 2 := rfl
    rw [alone] at ran'
    simp only [pooled, single, ran, ran']
    refine ⟨rfl, ?_⟩
    by_cases shared : isShared workers paths
    · rw [fileStack, if_pos shared]
      constructor
      · intro same _
        have inSummary := congrArg (fun final => final.get id) same
        simp only [Summaries.get_put_self held] at inSummary
        exact recordOf?_eq_of_recordAll rfl named readable rooted inSummary
      · intro same
        rw [recordsOf, recordsOf, List.filterMap_congr (same shared)]
    · simp [fileStack, shared]
  · rcases Classical.not_imp.1 rooted with ⟨some, unrooted⟩
    cases resolved : disk.resolve root with
    | ok start => exact absurd ⟨start, resolved⟩ unrooted
    | error names =>
        simp only [pooled, single,
          runChecks_of_loop stack readable some resolved,
          recordOf?_of_loop _ resolved, implies_true, and_self]

theorem runChecks_of_unreadable {before after : List Path} {path : Path}
    {failure : FileFailure} (listed : paths = before ++ path :: after)
    (readable : ∀ earlier ∈ before, IsReadable disk earlier)
    (fails : readText disk path = .error failure) (schedule : Schedule)
    (workers : Int) (given : Option SummaryId) :
    let run := runChecks stack disk schedule root workers paths given summaries
    run.2 = .error (.file failure) ∧ ∀ id, run.1.get id = summaries.get id := by
  intro run
  have fine := fun earlier member =>
    (readable earlier member).exists_checkFile (fileStack stack workers paths)
  have stops : checkFile (fileStack stack workers paths) disk path =
      .error failure := by
    rw [checkFile, fails]
  cases given with
  | some id =>
      simp [run, runChecks, extend_of_failure listed fine stops,
        Summaries.put_get, Except.map]
  | none =>
      simp only [run, runChecks, extend_of_failure listed fine stops]
      refine ⟨rfl, fun id => ?_⟩
      rw [Summaries.put_get, Summaries.get_fresh]

theorem checkFile_congr {first second : Stack} {path : Path}
    (same : first.relaxed = second.relaxed)
    (room : ∀ refusal ∈ refusalsOf first disk path, ¬ refusal.IsOverflow)
    (room' : ∀ refusal ∈ refusalsOf second disk path, ¬ refusal.IsOverflow) :
    checkFile first disk path = checkFile second disk path := by
  rcases Stack.isWithin_total same with within | within
  · exact (checkFile_of_isWithin within room).symm
  · exact checkFile_of_isWithin within room'

end

/-- A run with a pool, whoever of its workers gets ahead. The first file that
cannot be read decides how it fails, as without a pool, and nothing is recorded
then. When all can be read, it leaves the summaries that a run without a pool
leaves exactly when the record of each file is the same on the stack of a
worker. Only a block that is too deep for one of the two stacks can make a
difference. -/
theorem runChecks_schedule {stack : Stack} {disk : Disk} {root : Path}
    {workers : Int} {paths : List Path} {given : Option SummaryId}
    {summaries : Summaries} (named : disk.HasNames IsFileName)
    (held : ∀ id ∈ given, summaries.Holds id) (schedule inTurn : Schedule) :
    let pooled := runChecks stack disk schedule root workers paths
        given summaries
    let single := runChecks stack disk inTurn root 1 paths given summaries
    (∀ other, runChecks stack disk other root workers paths given summaries =
      pooled) ∧
    (isShared workers paths → ∀ final,
      Pool.Reaches (checkFile stack.worker disk) workers.toNat
        (.ofInputs paths) final →
      final.moves workers.toNat = [] →
      final.outcome = paths.mapM (checkFile stack.worker disk)) ∧
    (∀ before path after failure, paths = before ++ path :: after →
      (∀ earlier ∈ before, IsReadable disk earlier) →
      readText disk path = .error failure →
        pooled.2 = .error (.file failure) ∧ single.2 = .error (.file failure) ∧
          ∀ id, pooled.1.get id = summaries.get id ∧
          single.1.get id = summaries.get id) ∧
    ((∀ path ∈ paths, IsReadable disk path) →
      pooled.2.map Prod.fst = single.2.map Prod.fst ∧
      (pooled.1 = single.1 ↔ (isShared workers paths → ∀ path ∈ paths,
        recordOf? stack.worker disk root path =
          recordOf? (stack.call 2) disk root path))) ∧
    ∀ path,
      (∀ refusal ∈ refusalsOf stack.worker disk path, ¬ refusal.IsOverflow) →
      (∀ refusal ∈ refusalsOf (stack.call 2) disk path, ¬ refusal.IsOverflow) →
        recordOf? stack.worker disk root path =
          recordOf? (stack.call 2) disk root path := by
  intro pooled single
  refine ⟨fun other => runChecks_congr .., ?_, ?_, fun readable => ?_, ?_⟩
  · intro shared final reaches resting
    have several := one_lt_of_isShared shared
    calc final.outcome
      _ = final.forecast (checkFile stack.worker disk) :=
        Pool.outcome_of_moves_eq_nil (by omega) resting
      _ = Pool.forecast (checkFile stack.worker disk) (.ofInputs paths) :=
        reaches.forecast_eq (Pool.isHonest_ofInputs paths)
      _ = paths.mapM (checkFile stack.worker disk) :=
        Pool.forecast_ofInputs paths
  · intro before path after failure listed readable fails
    rcases runChecks_of_unreadable listed readable fails schedule
      workers given with ⟨failed, untouched⟩
    rcases runChecks_of_unreadable listed readable fails inTurn 1 given with
      ⟨failed', untouched'⟩
    exact ⟨failed, failed', fun id => ⟨untouched id, untouched' id⟩⟩
  · rcases exists_given stack disk root held with ⟨id, opened, held, -, same⟩
    simp only [pooled, single, same]
    exact runChecks_pool_eq_iff named readable held schedule inTurn
  · intro path room room'
    have relaxed : stack.worker.relaxed = (stack.call 2).relaxed := rfl
    rw [recordOf?, recordOf?, checkFile_congr relaxed room room']

/-- Of three files the second is missing and the third is no text. Four workers
in a skew order fail for the second one, as does every other order of their
moves. -/
theorem runChecks_schedule_missing_file :
    let disk : Disk :=
      ⟨.directory [("a.md", .file []), ("c.md", .file [0xff])], []⟩
    let paths : List Path := [⟨"/", ["a.md"]⟩, ⟨"/", ["b.md"]⟩, ⟨"/", ["c.md"]⟩]
    let pooled := runChecks .standard disk (fun time => 7 * time)
        ⟨"/", []⟩ 4 paths none .empty
    disk.HasNames IsFileName ∧ pooled.2 = .error (.file (.path .notFound)) ∧
      (pooled.1.get 0).checked = 0 ∧ ∀ final,
        Pool.Reaches (checkFile Stack.standard.worker disk) 4
          (.ofInputs paths) final →
        final.moves 4 = [] → final.outcome = .error (.path .notFound) := by
  intro disk paths pooled
  have named : disk.HasNames IsFileName := .of_tree (by decide)
  have first : IsReadable disk ⟨"/", ["a.md"]⟩ :=
    ⟨[], [], by decide +kernel, by decide +kernel, by decide⟩
  have missing : disk.read ⟨"/", ["b.md"]⟩ = .error .notFound := by
    decide +kernel
  have second : readText disk ⟨"/", ["b.md"]⟩ = .error (.path .notFound) := by
    rw [readText, missing]
  have fine : ∀ earlier ∈ [(⟨"/", ["a.md"]⟩ : Path)], IsReadable disk earlier :=
    List.forall_mem_singleton.2 first
  have unheld : ∀ id ∈ (none : Option SummaryId), Summaries.empty.Holds id := by
    simp
  rcases @runChecks_schedule .standard disk
    ⟨"/", []⟩ 4 paths none .empty named unheld
      (fun time => 7 * time) .inTurn with ⟨-, orders, failing, -⟩
  rcases failing [⟨"/", ["a.md"]⟩] ⟨"/", ["b.md"]⟩ [⟨"/", ["c.md"]⟩] _ rfl
    fine second with ⟨failed, -, untouched⟩
  refine ⟨named, failed, congrArg Summary.checked (untouched 0).1,
    fun final reaches resting => ?_⟩
  rw [orders (by decide) final reaches resting]
  refine mapM_append_error
    (fun earlier member => (fine earlier member).exists_checkFile _) ?_ _
  rw [checkFile, second]

theorem exists_runChecks_of_records {stack : Stack} {disk : Disk} {root : Path}
    {workers : Int} {paths : List Path}
    {records : List (String × List BlockError)}
    (all : paths.mapM (recordOf? (fileStack stack workers paths) disk root) =
      some records) (schedule : Schedule) :
    ∃ events, runChecks stack disk schedule root workers paths none .empty =
      (⟨[Summary.empty.recordAll records]⟩, .ok (0, events)) := by
  rcases extend_of_records all schedule .empty with ⟨events, extended⟩
  exact
    ⟨events, by
      simp only [runChecks, Summaries.fresh, Summaries.empty, Summaries.get,
        Summaries.put, List.nil_append, List.length_nil,
        List.getElem?_cons_zero, Option.getD_some,
    extended, List.set_cons_zero, Except.map]⟩

section

variable (content : List UInt8)

theorem isUnlinked_first :
    Disk.IsUnlinked
      ⟨.directory [("a.md", .file content), ("b.md", .file [])], []⟩ :=
  .of_tree rfl rfl

private theorem read_first :
    Disk.read ⟨.directory [("a.md", .file content), ("b.md", .file [])], []⟩
      ⟨"/", ["a.md"]⟩ = .ok content :=
  (isUnlinked_first content).read_of_stands (show ".." ∉ ["a.md"] by decide) rfl

private theorem recordedName_first :
    recordedName ⟨.directory [("a.md", .file content), ("b.md", .file [])], []⟩
      ⟨"/", []⟩ ⟨"/", ["a.md"]⟩ = .ok "a.md" := by
  rw [recordedName, (isUnlinked_first content).resolve_eq,
    (isUnlinked_first content).resolve_eq]
  rfl

theorem recordOf?_empty (stack : Stack) :
    recordOf? stack ⟨.directory [("a.md", .file content), ("b.md", .file [])],
      []⟩ ⟨"/", []⟩ ⟨"/", ["b.md"]⟩ = some ("b.md", []) := by
  have unlinked := isUnlinked_first content
  refine recordOf?_eq_some_iff.2 ⟨?_, [], checkFile_of_empty ?_, rfl⟩
  · rw [recordedName, unlinked.resolve_eq, unlinked.resolve_eq]
    rfl
  · exact unlinked.read_of_stands (show ".." ∉ ["b.md"] by decide) rfl

end

/-- The arrays of the first file are within the reach of a single run, and too
deep for the worker of a pool. -/
theorem runChecks_schedule_nested :
    let disk : Disk :=
      ⟨.directory [("a.md", .file (nestedDocument 986).toUTF8.data.toList),
        ("b.md", .file [])], []⟩
    let paths : List Path := [⟨"/", ["a.md"]⟩, ⟨"/", ["b.md"]⟩]
    let run := fun workers => runChecks .standard disk .inTurn
        ⟨"/", []⟩ workers paths none .empty
    (∃ events, (run 1).2 = .ok (0, events)) ∧ ((run 1).1.get 0).invalid = 0 ∧
      (∃ events, (run 2).2 = .ok (0, events)) ∧
      ((run 2).1.get 0).invalid = 1 := by
  intro disk paths run
  have read : disk.read ⟨"/", ["a.md"]⟩ =
      .ok (nestedDocument 986).toUTF8.data.toList :=
    read_first _
  have named : recordedName disk ⟨"/", []⟩ ⟨"/", ["a.md"]⟩ = .ok "a.md" :=
    recordedName_first _
  have single :
      paths.mapM (recordOf? (fileStack .standard 1 paths) disk ⟨"/", []⟩) =
        some [("a.md", []), ("b.md", [])] := by
    have room :
        986 ≤
          (((fileStack .standard 1 paths).call 1).call
            4).strictLevels := by decide
    have fine : checkFile (fileStack .standard 1 paths) disk
        ⟨"/", ["a.md"]⟩ = .ok [] := by
      rw [checkFile_of_toUTF8 read, checkText_nestedDocument_of_le
        (by decide) room]
      rfl
    rw [List.mapM_cons, recordOf?_eq_some_iff.2 ⟨named, [], fine, rfl⟩,
      List.mapM_cons, recordOf?_empty]
    rfl
  have short : (((fileStack .standard 2 paths).call 1).call 4).strictLevels <
      986 := by decide
  rcases checkText_nestedDocument_of_lt (by decide) short with
    ⟨finding, checked, -⟩
  have pooled :
      paths.mapM (recordOf? (fileStack .standard 2 paths) disk ⟨"/", []⟩) =
        some [("a.md", [finding.error]), ("b.md", [])] := by
    have refused : checkFile (fileStack .standard 2 paths) disk
        ⟨"/", ["a.md"]⟩ = .ok [finding] := by
      rw [checkFile_of_toUTF8 read, checked]
      rfl
    rw [List.mapM_cons, recordOf?_eq_some_iff.2
      ⟨named, [finding], refused, rfl⟩, List.mapM_cons, recordOf?_empty]
    rfl
  rcases exists_runChecks_of_records single .inTurn with ⟨events, alone⟩
  rcases exists_runChecks_of_records pooled .inTurn with ⟨events', shared⟩
  simp only [run, alone, shared]
  exact ⟨⟨events, rfl⟩, rfl, ⟨events', rfl⟩, rfl⟩

end FencedJson.Check
