import FencedJson.Proofs.Check.History
import FencedJson.Proofs.Check.Naming
import FencedJson.Proofs.Check.Stacks

/-! # Orders of files

A run over files that can be read comes to the same as runs over parts of their
list one after the other. What a new summary holds in the end does not depend on
the order of the files, for what is recorded under one name is the same each
time. Only its entries stand in an order of their own.
-/

namespace FencedJson.Check

open Markdown (Fence documentFences)

def IsReadable (disk : Disk) (path : Path) : Prop :=
  ∃ content text, disk.read path = .ok content ∧
  Utf8.decode content = .ok text ∧
    IsAddressable (String.ofList (unifyNewlines text))

theorem IsReadable.exists_checkFile {disk : Disk} {path : Path}
    (readable : IsReadable disk path) (stack : Stack) :
    ∃ found, checkFile stack disk path = .ok found := by
  rcases readable with ⟨content, text, read, decoded, addressable⟩
  exact ⟨_, checkFile_eq_ok_iff.2
    ⟨content, text, read, decoded, checkText_eq addressable⟩⟩

theorem checkFile_of_single {stack : Stack} {disk : Disk} {path : Path}
    {content : List UInt8} {text : List Char}
    {fence : Fence} {refusal : ParseError} {error : BlockError}
    (read : disk.read path = .ok content)
    (decoded : Utf8.decode content = .ok text)
    (addressable : IsAddressable (String.ofList (unifyNewlines text)))
    (single : documentFences (String.ofList (unifyNewlines text)) = [fence])
    (refused : refusal? (stack.call 5) fence = some refusal)
    (reported : report? (stack.call 5) fence.node = some error) :
    checkFile stack disk path = .ok [⟨fence.node, error⟩] := by
  have found : finding? (stack.call 5) fence = some ⟨fence.node, error⟩ := by
    simp only [finding?, refused, reported, Option.bind_some, Option.map_some]
  refine checkFile_eq_ok_iff.2 ⟨content, text, read, decoded, ?_⟩
  rw [checkText_eq addressable, Stack.call_call, single,
    List.filterMap_cons_some found]
  rfl

/-- A run over some files and then, in the summary that it returns, a run over
others. -/
def runInTurn (stack : Stack) (disk : Disk) (first second : Schedule)
    (root : Path) (workers : Int) (front back : List Path)
    (given : Option SummaryId) (summaries : Summaries) :
    Summaries × Except RunFailure (SummaryId × List Event) :=
  match runChecks stack disk first root workers front given summaries with
  | (summaries, .ok (id, _)) =>
      runChecks stack disk second root workers back (some id) summaries
  | (summaries, .error failure) => (summaries, .error failure)

/-- Summaries that may differ in the order of their entries. -/
structure Summary.Agrees (first second : Summary) : Prop where
  checked : first.checked = second.checked
  valid : first.valid = second.valid
  invalid : first.invalid = second.invalid
  errors : ∀ name, first.errorsByPath.lookup name =
      second.errorsByPath.lookup name

theorem Summaries.put_put (summaries : Summaries) (id : SummaryId)
    (first second : Summary) :
    (summaries.put id first).put id second = summaries.put id second := by
  rw [put, put, put, List.set_set]

theorem runChecks_congr (stack : Stack) (disk : Disk)
    (schedule other : Schedule) (root : Path) (workers : Int)
    (paths : List Path) (given : Option SummaryId) (summaries : Summaries) :
    runChecks stack disk schedule root workers paths given summaries =
      runChecks stack disk other root workers paths given summaries := by
  simp only [runChecks, extend, checkFiles_eq_mapM]

theorem Summaries.fresh_spec (summaries : Summaries) :
    summaries.fresh.2.Holds summaries.fresh.1 ∧
      summaries.fresh.2.get summaries.fresh.1 = .empty := by
  constructor
  · simp [fresh, Holds]
  · rw [get_fresh, fresh, get, List.getElem?_eq_none (Nat.le_refl _)]
    rfl

theorem exists_given (stack : Stack) (disk : Disk) (root : Path)
    {given : Option SummaryId} {summaries : Summaries}
    (held : ∀ id ∈ given, summaries.Holds id) :
    ∃ (id : SummaryId) (opened : Summaries), opened.Holds id ∧
      ((∀ id ∈ given, summaries.get id = .empty) → opened.get id = .empty) ∧
      ∀ schedule workers paths,
        runChecks stack disk schedule root workers paths given summaries =
          runChecks stack disk schedule root workers paths
            (some id) opened := by
  cases given with
  | some id =>
      exact ⟨id, summaries, held id rfl, fun new => new id rfl,
        fun _ _ _ => rfl⟩
  | none =>
      rcases Summaries.fresh_spec summaries with ⟨held, new⟩
      exact ⟨summaries.fresh.1, summaries.fresh.2, held, fun _ => new,
        fun _ _ _ => rfl⟩

/-! ## Runs over readable files -/

def recordsOf (stack : Stack) (disk : Disk) (root : Path) (paths : List Path) :
    List (String × List BlockError) :=
  paths.filterMap (recordOf? stack disk root)

def ChecksAlike (disk : Disk) (paths : List Path) (first second : Stack) :
    Prop :=
  ∀ path ∈ paths, checkFile first disk path = checkFile second disk path

theorem recordsOf_of_checksAlike {disk : Disk} {paths : List Path}
    {first second : Stack} (alike : ChecksAlike disk paths first second)
    (root : Path) :
    recordsOf first disk root paths = recordsOf second disk root paths := by
  refine List.filterMap_congr fun path member => ?_
  rw [recordOf?, recordOf?, alike path member]

theorem checksAlike_fileStack {stack : Stack} {disk : Disk} {workers : Int}
    {paths : List Path} (alike : 1 < workers →
      ChecksAlike disk paths stack.worker (stack.call 2)) :
    ChecksAlike disk paths (fileStack stack workers paths) (stack.call 2) := by
  intro path member
  unfold fileStack
  split
  · next shared => exact alike (one_lt_of_isShared shared) path member
  · rfl

section

variable {stack : Stack} {disk : Disk} {root : Path} {paths : List Path}
  {id : SummaryId} {summaries : Summaries}

theorem mapM_recordOf?_eq (stack : Stack)
    (readable : ∀ path ∈ paths, IsReadable disk path)
    (rooted : paths ≠ [] → ∃ start, disk.resolve root = .ok start) :
    paths.mapM (recordOf? stack disk root) =
      some (recordsOf stack disk root paths) := by
  by_cases none : paths = []
  · rw [none]
    rfl
  · rcases rooted none with ⟨start, resolved⟩
    rcases exists_mapM fun path member =>
      (readable path member).exists_checkFile stack with ⟨found, checked⟩
    rcases exists_records_of_rooted checked resolved with ⟨records, all⟩
    rw [all, recordsOf, (filterMap_of_mapM all).1]

theorem runChecks_of_rooted (stack : Stack)
    (readable : ∀ path ∈ paths, IsReadable disk path)
    (rooted : paths ≠ [] → ∃ start, disk.resolve root = .ok start)
    (schedule : Schedule) (workers : Int) (id : SummaryId)
    (summaries : Summaries) :
    ∃ events, runChecks stack disk schedule root workers paths
      (some id) summaries = (summaries.put id ((summaries.get id).recordAll
        (recordsOf (fileStack stack workers paths) disk root paths)),
        .ok (id, events)) := by
  rcases extend_of_records
    (mapM_recordOf?_eq (fileStack stack workers paths) readable rooted) schedule
      (summaries.get id) with ⟨events, extended⟩
  exact ⟨events, by simp only [runChecks, extended, Except.map]⟩

theorem runChecks_of_loop (stack : Stack)
    (readable : ∀ path ∈ paths, IsReadable disk path) (some : paths ≠ [])
    {names : List String} (loops : disk.resolve root = .error names)
    (schedule : Schedule) (workers : Int) (id : SummaryId)
    (summaries : Summaries) :
    runChecks stack disk schedule root workers paths (.some id) summaries =
      (summaries, .error (.loop names)) := by
  rcases List.exists_cons_of_ne_nil some with ⟨path, rest, rfl⟩
  rcases exists_mapM fun other member =>
    (readable other member).exists_checkFile
      (fileStack stack workers (path :: rest)) with
    ⟨found, checked⟩
  rcases mapM_cons_eq_ok_iff.1 checked with ⟨here, later, first, -, rfl⟩
  have extended : extend stack disk schedule root workers (path :: rest)
      (summaries.get id) = (summaries.get id, .error (.loop names)) := by
    simp only [extend, checkFiles_eq_mapM, checked,
      List.zip_cons_cons, recordFiles, recordedName_of_loop first loops]
  simp only [runChecks, extended, Except.map, Summaries.put_get]

/-! ## Parts -/

theorem runChecks_of_checksAlike {workers : Int}
    (alike : 1 < workers → ChecksAlike disk paths stack.worker (stack.call 2))
    (readable : ∀ path ∈ paths, IsReadable disk path)
    (rooted : paths ≠ [] → ∃ start, disk.resolve root = .ok start)
    (schedule : Schedule) (id : SummaryId) (summaries : Summaries) :
    ∃ events, runChecks stack disk schedule root workers paths
      (some id) summaries = (summaries.put id ((summaries.get id).recordAll
        (recordsOf (stack.call 2) disk root paths)), .ok (id, events)) := by
  rw [← recordsOf_of_checksAlike (checksAlike_fileStack alike)]
  exact runChecks_of_rooted stack readable rooted schedule workers id summaries

/-- A run over two lists records what a run over the one and a run over the
other do. -/
theorem runChecks_append (root : Path) {front back : List Path} {workers : Int}
    (alike : 1 < workers → ChecksAlike disk (front ++ back) stack.worker
      (stack.call 2))
    (readable : ∀ path ∈ front ++ back, IsReadable disk path)
    (held : summaries.Holds id) (schedule first second : Schedule) :
    let whole := runChecks stack disk schedule root workers (front ++ back)
        (some id) summaries
    let parts := runInTurn stack disk first second root workers front back
        (some id) summaries
    whole.1 = parts.1 ∧ whole.2.map Prod.fst = parts.2.map Prod.fst := by
  intro whole parts
  have inFront := fun path member =>
      readable path (List.mem_append_left back member)
  have inBack := fun path member =>
      readable path (List.mem_append_right front member)
  have alikeFront : 1 < workers →
      ChecksAlike disk front stack.worker (stack.call 2) :=
    fun several path member =>
      alike several path (List.mem_append_left back member)
  have alikeBack : 1 < workers →
      ChecksAlike disk back stack.worker (stack.call 2) :=
    fun several path member =>
      alike several path (List.mem_append_right front member)
  cases resolved : disk.resolve root with
  | ok start =>
      rcases runChecks_of_checksAlike alike readable
        (fun _ => ⟨start, resolved⟩) schedule id summaries with ⟨events, all⟩
      rcases runChecks_of_checksAlike alikeFront inFront
        (fun _ => ⟨start, resolved⟩) first id summaries with ⟨begun, before⟩
      rcases runChecks_of_checksAlike alikeBack inBack
        (fun _ => ⟨start, resolved⟩) second id
          (summaries.put id
            ((summaries.get id).recordAll
              (recordsOf (stack.call 2) disk root front))) with
        ⟨ended, after⟩
      simp only [whole, parts, runInTurn, all, before, after,
        Summaries.get_put_self held, Summaries.put_put,
        ← Summary.recordAll_append]
      exact ⟨by rw [recordsOf, List.filterMap_append]; rfl, rfl⟩
  | error names =>
      -- A run over no file does not look at the root, so only the second one
      -- fails.
      by_cases none : front = []
      · subst none
        rcases runChecks_of_checksAlike alikeFront inFront
          (absurd rfl) first id summaries with ⟨begun, before⟩
        have same : summaries.put id ((summaries.get id).recordAll
          (recordsOf (stack.call 2) disk root [])) = summaries :=
            Summaries.put_get summaries id
        rw [same] at before
        simp only [whole, parts, runInTurn, before, List.nil_append]
        rw [runChecks_congr stack disk schedule second]
        exact ⟨rfl, rfl⟩
      · have some : front ++ back ≠ [] :=
          List.append_ne_nil_of_left_ne_nil none back
        simp only [whole, parts, runInTurn,
          runChecks_of_loop stack readable some resolved,
          runChecks_of_loop stack inFront none resolved, true_and]

/-! ## Orders -/

theorem Summary.agrees_of_perm
    {records records' : List (String × List BlockError)}
    (constant : ∀ name errors errors', (name, errors) ∈ records →
      (name, errors') ∈ records → errors = errors')
      (same : records.Perm records') :
    (empty.recordAll records).Agrees (empty.recordAll records') := by
  rcases recordAll_spec empty records with ⟨checked, valid, invalid, -⟩
  rcases recordAll_spec empty records' with ⟨checked', valid', invalid', -⟩
  have constant' : ∀ name errors errors', (name, errors) ∈ records' →
      (name, errors') ∈ records' → errors = errors' := by
    intro name errors errors' member member'
    exact constant name errors errors' (same.mem_iff.2 member)
      (same.mem_iff.2 member')
  exact {
    checked := by rw [checked, checked', same.length_eq]
    valid := by rw [valid, valid', same.countP_eq]
    invalid := by
      rw [invalid, invalid', failing, failing, (same.filter _).length_eq]
    errors := by
      intro name
      refine Option.ext fun errors => ?_
      rw [lookup_recordAll, lookup_recordAll, isLast_iff_mem fun errors' =>
        constant name _ _, isLast_iff_mem fun errors' => constant' name _ _,
        same.mem_iff] }

private theorem fileStack_of_perm {paths permuted : List Path}
    (same : paths.Perm permuted) (stack : Stack) (workers : Int) :
    fileStack stack workers permuted = fileStack stack workers paths := by
  have shared : isShared workers permuted = isShared workers paths := by
    rw [isShared, isShared, same.length_eq]
  rw [fileStack, fileStack, shared]

theorem runChecks_perm (stack : Stack) (root : Path)
    (named : disk.HasNames IsFileName)
    (readable : ∀ path ∈ paths, IsReadable disk path)
    (held : summaries.Holds id) (new : summaries.get id = .empty)
    (schedule other : Schedule) (workers : Int) {permuted : List Path}
    (same : paths.Perm permuted) :
    let run := runChecks stack disk schedule root workers paths
        (some id) summaries
    let rerun := runChecks stack disk other root workers permuted
        (some id) summaries
    run.2.map Prod.fst = rerun.2.map Prod.fst ∧
      ∀ returned events, run.2 = .ok (returned, events) →
        (run.1.get returned).Agrees (rerun.1.get returned) ∧
          (run.1.get returned).errorsByPath.map Prod.fst =
            ((Summary.failing
              (recordsOf (fileStack stack workers paths) disk root paths)).map
                Prod.fst).eraseDups := by
  intro run rerun
  have readable' := fun path member => readable path (same.mem_iff.2 member)
  by_cases rooted : paths ≠ [] → ∃ start, disk.resolve root = .ok start
  · have rooted' : permuted ≠ [] → ∃ start, disk.resolve root = .ok start :=
      fun some => rooted fun none => some (none ▸ same.symm).eq_nil
    rcases runChecks_of_rooted stack readable rooted schedule workers id
      summaries with ⟨events, ran⟩
    rcases runChecks_of_rooted stack readable' rooted' other workers id
      summaries with ⟨events', reran⟩
    rw [fileStack_of_perm same] at reran
    simp only [run, rerun, ran, reran]
    refine ⟨rfl, fun returned _ ended => ?_⟩
    cases ended
    rw [Summaries.get_put_self held, Summaries.get_put_self held, new]
    have all := mapM_recordOf?_eq
        (fileStack stack workers paths) readable rooted
    exact ⟨Summary.agrees_of_perm (fun _ _ _ => errors_eq_of_records named all)
      (same.filterMap _), Summary.keys_recordAll _⟩
  · rcases Classical.not_imp.1 rooted with ⟨some, unrooted⟩
    have some' : permuted ≠ [] := fun none => some (none ▸ same).eq_nil
    cases resolved : disk.resolve root with
    | ok start => exact absurd ⟨start, resolved⟩ unrooted
    | error names =>
        simp only [run, rerun, runChecks_of_loop stack readable some resolved,
          runChecks_of_loop stack readable' some' resolved, true_and]
        exact nofun

end

/-- Runs over files that can be read. They come to their end when the root can
be resolved. A run over two lists does to any summary what runs over the one and
then over the other do, as long as a pool checks the files as they are checked
without one. In another order the same files leave a new summary with the same
counts and with the same errors for every name, and its names stand in the order
of their first files with errors. -/
theorem runChecks_append_perm {stack : Stack} {disk : Disk} {root : Path}
    {paths : List Path} {given : Option SummaryId} {summaries : Summaries}
    (named : disk.HasNames IsFileName)
    (readable : ∀ path ∈ paths, IsReadable disk path)
    (held : ∀ id ∈ given, summaries.Holds id) (schedule : Schedule)
    (workers : Int) :
    let run := runChecks stack disk schedule root workers paths given summaries
    ((∃ start, disk.resolve root = .ok start) →
      ∃ id events, run.2 = .ok (id, events)) ∧
    ((1 < workers → ChecksAlike disk paths stack.worker (stack.call 2)) →
      ∀ first second front back, paths = front ++ back →
      let parts := runInTurn stack disk first second root workers front back
          given summaries
      run.1 = parts.1 ∧ run.2.map Prod.fst = parts.2.map Prod.fst) ∧
    ((∀ id ∈ given, summaries.get id = .empty) →
      ∀ other permuted, paths.Perm permuted →
      let rerun := runChecks stack disk other root workers permuted
          given summaries
      run.2.map Prod.fst = rerun.2.map Prod.fst ∧
      ∀ id events, run.2 = .ok (id, events) →
        (run.1.get id).Agrees (rerun.1.get id) ∧
        (run.1.get id).errorsByPath.map Prod.fst =
          ((Summary.failing
            (recordsOf (fileStack stack workers paths) disk root paths)).map
              Prod.fst).eraseDups) := by
  intro run
  rcases exists_given stack disk root held with ⟨id, opened, held, empty, same⟩
  have ran : run = runChecks stack disk schedule root workers paths
      (some id) opened := same ..
  refine ⟨fun rooted => ?_, ?_, fun new other permuted reordered => ?_⟩
  · rcases runChecks_of_rooted stack readable (fun _ => rooted) schedule workers
      id opened with ⟨events, ended⟩
    exact ⟨id, events, congrArg Prod.snd (ran.trans ended)⟩
  · rintro alike first second front back rfl
    have parts :=
      runChecks_append root alike readable held schedule first second
    rw [← ran] at parts
    simpa only [runInTurn, same] using parts
  · have orders := runChecks_perm stack root named readable held
        (empty new) schedule other workers
      reordered
    rw [← ran] at orders
    simpa only [same] using orders

theorem told_of_bracket {stack : Stack} (room : 9 ≤ stack.frames) :
    Utf8.decode "```json\n[1\n```\n".toUTF8.data.toList =
      .ok "```json\n[1\n```\n".toList ∧ documentFences "```json\n[1\n```\n" =
        [⟨1, ['j', 's', 'o', 'n'], [['[', '1']], true⟩] ∧
      refusal? stack ⟨1, ['j', 's', 'o', 'n'], [['[', '1']], true⟩ =
        some (.strict (.fault .commaExpected ⟨1, 3, 2⟩)) ∧
      report? stack (Fence.node ⟨1, ['j', 's', 'o', 'n'], [['[', '1']], true⟩) =
        some
          ⟨2, 3,
            "Expecting ',' delimiter: line 1 column 3 (char 2)", by
              decide, by decide⟩ := by
  let fence : Fence := ⟨1, ['j', 's', 'o', 'n'], [['[', '1']], true⟩
  let narrow : Stack := { Stack.standard with frames := 9 }
  have refused : refusal? narrow fence =
      some (.strict (.fault .commaExpected ⟨1, 3, 2⟩)) := by
    decide +kernel
  have reported : report? narrow fence.node =
      some
        ⟨2, 3,
          "Expecting ',' delimiter: line 1 column 3 (char 2)", by
            decide, by decide⟩ := by
    decide +kernel
  have strict : fence.language = some "json" := by decide +kernel
  have larger : narrow.strictLevels ≤ stack.strictLevels :=
    Nat.sub_le_sub_right room 5
  rcases Json.Strict.parse_of_larger larger fence.text with
    ⟨overflow, short⟩ | same
  · rw [refusal?_eq_some_iff.2 (.inl ⟨strict, _, short, rfl⟩)] at refused
    cases refused
  · rcases verdict_congr_strict strict same with ⟨alike, valid⟩
    refine ⟨by decide +kernel, by decide +kernel, alike.trans refused, ?_⟩
    rw [← reported, report?, valid, report?]

theorem checkFile_of_bracket {stack : Stack} {disk : Disk} {path : Path}
    (room : 14 ≤ stack.frames)
    (read : disk.read path = .ok "```json\n[1\n```\n".toUTF8.data.toList) :
    IsReadable disk path ∧ checkFile stack disk path =
      .ok [⟨Fence.node ⟨1, ['j', 's', 'o', 'n'], [['[', '1']], true⟩,
        ⟨2, 3,
          "Expecting ',' delimiter: line 1 column 3 (char 2)", by
            decide, by decide⟩⟩] := by
  have left : 9 ≤ (stack.call 5).frames := Nat.le_sub_of_add_le room
  rcases told_of_bracket left with ⟨decoded, single, refused, reported⟩
  have addressable : IsAddressable
      (String.ofList (unifyNewlines "```json\n[1\n```\n".toList)) := by
    decide
  exact ⟨⟨_, _, read, decoded, addressable⟩,
    checkFile_of_single read decoded addressable single refused reported⟩

theorem found_ne_nil_of_bracket {stack : Stack} {disk : Disk} {path : Path}
    {found : List Finding} (room : 14 ≤ stack.frames)
    (read : disk.read path = .ok "```json\n[1\n```\n".toUTF8.data.toList)
    (checked : checkFile stack disk path = .ok found) : found ≠ [] := by
  have single := (checkFile_of_bracket room read).2
  rw [checked, Except.ok.injEq] at single
  rw [single]
  exact List.cons_ne_nil _ _

/-- The first file is a link to the last one, and the one between them holds the
same. -/
theorem runChecks_append_perm_link :
    let broken : FileTree := .file "```json\n[1\n```\n".toUTF8.data.toList
    let disk : Disk :=
      ⟨.directory [("a.md", broken), ("b.md", .link ⟨"", ["a.md"]⟩),
        ("c.md", broken)], []⟩
    let file : String → Path := fun name => ⟨"/", [name]⟩
    let paths := [file "b.md", file "c.md", file "a.md"]
    let run := runChecks .standard disk .inTurn ⟨"/", []⟩ 2 paths none .empty
    let parts := runInTurn .standard disk .inTurn .inTurn ⟨"/", []⟩ 2
      [file "b.md"] [file "c.md", file "a.md"] none .empty
    let rerun := runChecks .standard disk .inTurn ⟨"/", []⟩ 2
      [file "c.md", file "a.md", file "b.md"] none .empty
    disk.HasNames IsFileName ∧ (∀ path ∈ paths, IsReadable disk path) ∧
      ChecksAlike disk paths Stack.standard.worker (Stack.standard.call 2) ∧
      ∃ id events, run.2 = .ok (id, events) ∧ run.1 = parts.1 ∧
        (run.1.get id).Agrees (rerun.1.get id) ∧
        (run.1.get id).errorsByPath.map Prod.fst = ["a.md", "c.md"] := by
  intro broken disk file paths run parts rerun
  have named : disk.HasNames IsFileName := .of_tree (by decide)
  have read : ∀ path ∈ paths, disk.read path =
      .ok "```json\n[1\n```\n".toUTF8.data.toList := by
    intro path member
    simp only [paths, List.mem_cons, List.not_mem_nil, or_false] at member
    rcases member with rfl | rfl | rfl <;> decide +kernel
  have pooled : 14 ≤ Stack.standard.worker.frames := by decide
  have single : 14 ≤ (Stack.standard.call 2).frames := by decide
  have readable := fun path member =>
      (checkFile_of_bracket pooled (read path member)).1
  have alike : ChecksAlike disk paths Stack.standard.worker
      (Stack.standard.call 2) := by
    intro path member
    have read := read path member
    exact (checkFile_of_bracket pooled read).2.trans
      (checkFile_of_bracket single read).2.symm
  have root : disk.resolve ⟨"/", []⟩ = .ok [] := by decide +kernel
  let error : BlockError :=
    ⟨2, 3,
      "Expecting ',' delimiter: line 1 column 3 (char 2)", by decide, by decide⟩
  have recorded (name place : String) (listed : file name ∈ paths)
      (under : recordedName disk ⟨"/", []⟩ (file name) = .ok place) :
      recordOf? Stack.standard.worker disk ⟨"/", []⟩ (file name) =
        some (place, [error]) := by
    exact recordOf?_eq_some_iff.2
      ⟨under, _, (checkFile_of_bracket pooled (read _ listed)).2, rfl⟩
  have records : recordsOf (fileStack .standard 2 paths) disk ⟨"/", []⟩ paths =
      [("a.md", [error]), ("c.md", [error]), ("a.md", [error])] := by
    have first := recorded "b.md" "a.md" (by decide) (by decide +kernel)
    have second := recorded "c.md" "c.md" (by decide) (by decide +kernel)
    have third := recorded "a.md" "a.md" (by decide) (by decide +kernel)
    have stack : fileStack .standard 2 paths = Stack.standard.worker := rfl
    simp only [recordsOf, stack, paths, List.filterMap_cons_some first,
      List.filterMap_cons_some second, List.filterMap_cons_some third,
      List.filterMap_nil]
  have held : ∀ id ∈ (none : Option SummaryId), Summaries.empty.Holds id := by
    simp
  have new : ∀ id ∈ (none : Option SummaryId), Summaries.empty.get id =
      .empty := by simp
  rcases runChecks_append_perm named readable held .inTurn 2 with
    ⟨ends, whole, orders⟩
  rcases ends ⟨[], root⟩ with ⟨id, events, ended⟩
  have reordered : paths.Perm [file "c.md", file "a.md", file "b.md"] := by
    decide
  rcases (orders new .inTurn _ reordered).2 id events ended with ⟨agrees, keys⟩
  refine ⟨named, readable, alike, id, events, ended,
    (whole (fun _ => alike) .inTurn .inTurn [file "b.md"]
      [file "c.md", file "a.md"] rfl).1,
    agrees, ?_⟩
  rw [keys, records]
  decide

end FencedJson.Check
