import FencedJson.Check.Checker
import FencedJson.Proofs.Check.Order
import FencedJson.Proofs.Check.Refusals
import FencedJson.Proofs.Files.Inclusion

/-! # Paths and places

Files are found and counted by their paths, and their errors are kept by the
places that the paths lead to. A file that is found along two paths counts
twice. At least one of them has double dots or meets a link.
-/

namespace FencedJson

def Disk.placesOf (disk : Disk) (files : List (List String)) :
    List (Except (List String) (List String)) :=
  files.map fun names => disk.resolve ⟨"/", names⟩

/-! ## Numbers of values -/

section

variable {α β γ : Type} [DecidableEq β] [DecidableEq γ]

theorem length_eraseDups_eq_card (items : List β) :
    items.eraseDups.length = items.toFinset.card := by
  have same : items.eraseDups.toFinset = items.toFinset := by
    ext item
    simp
  rw [← same, List.toFinset_card_of_nodup (nodup_eraseDups items)]

theorem length_eq_card_iff (items : List β) :
    items.length = items.toFinset.card ↔ items.Nodup := by
  rw [eq_comm, ← length_eraseDups_eq_card, length_eraseDups_eq_iff]

theorem card_map_eq {first : α → β} {second : α → γ} {items : List α}
    (same : ∀ item ∈ items, ∀ other ∈ items,
      first item = first other ↔ second item = second other) :
    (items.map first).toFinset.card = (items.map second).toFinset.card := by
  induction items with
  | nil => rfl
  | cons item rest induction =>
      have others := induction fun one member other member' =>
        same one (.tail _ member) other (.tail _ member')
      have known : first item ∈ (rest.map first).toFinset ↔
          second item ∈ (rest.map second).toFinset := by
        simp only [List.mem_toFinset, List.mem_map]
        exact exists_congr fun other => and_congr_right fun member =>
          same other (.tail _ member) item (.head _)
      rw [List.map_cons, List.map_cons, List.toFinset_cons, List.toFinset_cons,
        Finset.card_insert_eq_ite, Finset.card_insert_eq_ite, others]
      simp only [known]

end

/-! ## Paths that are found -/

section

variable {disk : Disk} {root : Path} {includes excludes : List String}
  {files : List (List String)}

private theorem exists_place_of_isFile {names : List String}
    (file : disk.isFile names) :
    ∃ place content, disk.resolve ⟨"/", names⟩ = .ok place ∧
      disk.tree.at? place = some (.file content) := by
  unfold Disk.isFile at file
  cases found : disk.find? names with
  | none => simp [found] at file
  | some tree =>
      rcases Disk.find?_eq_some_iff.1 found with ⟨place, located, stands⟩
      cases tree with
      | file content =>
          exact ⟨place, content, Disk.resolve_of_locate located, stands⟩
      | link | directory => simp [found, FileTree.isFile] at file

theorem exists_place_of_findFiles
    (found : findFiles disk root includes excludes = .ok files) :
    ∀ file ∈ files, ∃ place content, disk.resolve ⟨"/", file⟩ = .ok place ∧
      disk.tree.at? place = some (.file content) := by
  rcases findFiles_eq_ok_iff.1 found with ⟨base, globs, resolved, -⟩
  intro file member
  rcases (mem_findFiles_iff found resolved).1 member with ⟨-, -, -, file, -⟩
  exact exists_place_of_isFile file

theorem eq_of_isDirect {file other : List String}
    (direct : disk.IsDirect [] file) (direct' : disk.IsDirect [] other)
    (same : disk.resolve ⟨"/", file⟩ = disk.resolve ⟨"/", other⟩) :
    file = other := by
  rw [Disk.resolve_of_isDirect direct, Disk.resolve_of_isDirect direct'] at same
  exact Except.ok.inj same

theorem length_placesOf (disk : Disk) (files : List (List String)) :
    (disk.placesOf files).length = files.length := List.length_map _

theorem nodup_placesOf (unique : files.Nodup)
    (direct : ∀ file ∈ files, disk.IsDirect [] file) :
    (disk.placesOf files).Nodup :=
  unique.map_on fun _ member _ member' same =>
    eq_of_isDirect (direct _ member) (direct _ member') same

theorem isDirect_of_findFiles
    (found : findFiles disk root includes excludes = .ok files)
    (proper : disk.tree.isProper) (unlinked : disk.IsUnlinked)
    (down : ∀ pattern ∈ includes, ".." ∉
      (Path.ofString (normalizePattern pattern)).parts) :
    ∀ file ∈ files, disk.IsDirect [] file := by
  rcases findFiles_eq_ok_iff.1 found with ⟨base, globs, resolved, -⟩
  intro file member
  rcases (mem_findFiles_iff found resolved).1 member with
    ⟨path, rfl, ⟨pattern, listed, glob, parsed, selected⟩, -⟩
  have dotless := Glob.dotless_of_mem_select proper
      (down_of_ofString parsed (down pattern listed))
    List.not_mem_nil (List.mem_ite_nil_right.1 selected).2
  exact Disk.isDirect_append_iff.2
    ⟨unlinked.isDirect_iff.2 (Disk.dotless_of_resolve resolved),
      unlinked.isDirect_iff.2 dotless⟩

end

namespace Check

/-! ## Counts -/

def refusedOf (stack : Stack) (disk : Disk) (files : List (List String)) :
    List (List String) :=
  files.filter fun names => !(refusalsOf stack disk ⟨"/", names⟩).isEmpty

def foundStack (stack : Stack) (workers : Int) (files : List (List String)) :
    Stack :=
  fileStack (stack.call 1) workers (files.map fun names => ⟨"/", names⟩)

/-- What a summary tells of paths, each of which counts once, and of the places
that they lead to. -/
structure Summary.Counts (stack : Stack) (disk : Disk)
    (files : List (List String)) (summary : Summary) : Prop where
  checked : summary.checked = files.length
  invalid : summary.invalid = (refusedOf stack disk files).length
  /-- There is an entry for each place at which there is a refused file. -/
  entries : summary.errorsByPath.length =
      (disk.placesOf (refusedOf stack disk files)).toFinset.card
  once : summary.invalid = summary.errorsByPath.length ↔
    (disk.placesOf (refusedOf stack disk files)).Nodup
  direct : (∀ file ∈ files, disk.IsDirect [] file) →
    summary.invalid = summary.errorsByPath.length ∧
      summary.checked = (disk.placesOf files).toFinset.card

section

variable {stack : Stack} {disk : Disk} {root : Path}
  {files : List (List String)} {records : List (String × List BlockError)}

theorem recordedName_eq_iff {path other : Path}
    {record record' : String × List BlockError}
    (named : disk.HasNames IsFileName)
    (recorded : recordOf? stack disk root path = some record)
    (recorded' : recordOf? stack disk root other = some record') :
    recordedName disk root path = recordedName disk root other ↔
      disk.resolve path = disk.resolve other := by
  rcases exists_file_of_recordOf? recorded with
    ⟨under, -, names, content, -, -, resolved, stands⟩
  rcases exists_file_of_recordOf? recorded' with
    ⟨under', -, names', content', -, -, resolved', stands'⟩
  constructor
  · intro same
    rw [resolved, resolved',
      names_eq_of_recordedName named resolved stands resolved' stands' under
        (same ▸ under)]
  · intro same
    rw [recordedName, recordedName, same]

private theorem failing_of_records {paths : List Path}
    (all : paths.mapM (recordOf? stack disk root) = some records) :
    (Summary.failing records).map
      (fun record => (.ok record.1 : Except (List String) String)) =
        (paths.filter fun path => !(refusalsOf stack disk path).isEmpty).map
          (recordedName disk root) := by
  have pairs := forall₂_of_mapM all
  clear all
  induction pairs with
  | nil => rfl
  | @cons path record paths records recorded _ induction =>
      have told := (isToldBy_of_recordOf? recorded).length_eq
      have under := (recordOf?_eq_some_iff.1 recorded).1
      cases refused : refusalsOf stack disk path with
      | nil =>
          have fine : record.2 = [] :=
            List.length_eq_zero_iff.1 (by rw [← told, refused]; rfl)
          simpa [Summary.failing, fine, refused] using induction
      | cons refusal rest =>
          have fails : record.2 ≠ [] := by
            rintro none
            simp [none, refused] at told
          simpa [Summary.failing, fails, refused, under] using induction

theorem map_recordedName_of_records
    (all : (files.map fun names => ⟨"/", names⟩).mapM
      (recordOf? stack disk root) = some records) :
    (Summary.failing records).map
      (fun record => (.ok record.1 : Except (List String) String)) =
        (refusedOf stack disk files).map fun names => recordedName disk root
          ⟨"/", names⟩ := by
  rw [failing_of_records all, List.filter_map, List.map_map]
  rfl

private theorem length_errorsByPath_of_records
    (named : disk.HasNames IsFileName)
    (all : (files.map fun names => ⟨"/", names⟩).mapM
      (recordOf? stack disk root) = some records) :
    (Summary.empty.recordAll records).errorsByPath.length =
      (disk.placesOf (refusedOf stack disk files)).toFinset.card := by
  have present {names : List String}
      (member : names ∈ refusedOf stack disk files) :
      ∃ record, recordOf? stack disk root ⟨"/", names⟩ = some record :=
    Option.isSome_iff_exists.1 ((filterMap_of_mapM all).2 _
      (List.mem_map_of_mem (List.mem_of_mem_filter member)))
  calc (Summary.empty.recordAll records).errorsByPath.length
    _ = ((Summary.empty.recordAll records).errorsByPath.map Prod.fst).length :=
      (List.length_map _).symm
    _ = ((Summary.failing records).map Prod.fst).toFinset.card := by
      rw [Summary.keys_recordAll, length_eraseDups_eq_card]
    _ = ((Summary.failing records).map fun record =>
          (.ok record.1 : Except (List String) String)).toFinset.card :=
      card_map_eq (by simp)
    _ = ((refusedOf stack disk files).map fun names =>
          recordedName disk root ⟨"/", names⟩).toFinset.card := by
      rw [map_recordedName_of_records all]
    _ = (disk.placesOf (refusedOf stack disk files)).toFinset.card := by
      apply card_map_eq
      intro names member other member'
      rcases present member with ⟨record, recorded⟩
      rcases present member' with ⟨record', recorded'⟩
      exact recordedName_eq_iff named recorded recorded'

theorem counts_of_records (named : disk.HasNames IsFileName)
    (unique : files.Nodup)
    (all : (files.map fun names => ⟨"/", names⟩).mapM
      (recordOf? stack disk root) = some records) :
    (Summary.empty.recordAll records).Counts stack disk files := by
  rcases Summary.recordAll_spec .empty records with ⟨checked, -, invalid, -⟩
  have checked : (Summary.empty.recordAll records).checked = files.length := by
    rw [checked, ← (forall₂_of_mapM all).length_eq, List.length_map]
    exact Nat.zero_add _
  have invalid : (Summary.empty.recordAll records).invalid =
      (refusedOf stack disk files).length := by
    have same := congrArg List.length (map_recordedName_of_records all)
    rw [List.length_map, List.length_map] at same
    rw [invalid, same]
    exact Nat.zero_add _
  have entries := length_errorsByPath_of_records named all
  have once : (Summary.empty.recordAll records).invalid =
      (Summary.empty.recordAll records).errorsByPath.length ↔
        (disk.placesOf (refusedOf stack disk files)).Nodup := by
    rw [entries, invalid, ← length_placesOf disk, length_eq_card_iff]
  refine ⟨checked, invalid, entries, once, fun direct => ⟨?_, ?_⟩⟩
  · apply once.2
    apply nodup_placesOf (unique.filter _)
    intro file member
    exact direct file (List.mem_of_mem_filter member)
  · rw [checked, ← length_placesOf disk, length_eq_card_iff]
    exact nodup_placesOf unique direct

end

/-! ## Runs -/

namespace Checker

variable {stack : Stack} {disk : Disk} {checker : Checker}
  {selection : Option Selection} {files : List (List String)}

theorem run_eq_ok_iff (selected : checker.shouldRun selection)
    (listed : checker.findFiles disk = .ok files) {schedule : Schedule}
    {summaries after : Summaries} {id : SummaryId} {events : List Event} :
    checker.run stack disk schedule selection summaries =
      (after, .ok (id, events)) ↔
      ∃ reported, runChecks (stack.call 1) disk schedule checker.root
        checker.workers
          (files.map fun names => ⟨"/", names⟩)
          (some checker.results) summaries = (after, .ok (id, reported)) ∧
        events = scanningEvent files.length checker.root :: reported := by
  simp only [run, selected, listed, if_true]
  generalize runChecks _ _ _ _ _ _ _ _ = ran
  rcases ran with ⟨left, failure | ⟨returned, reported⟩⟩
  · simp [Except.mapError, Except.map]
  · simp [Except.mapError, Except.map, and_assoc, eq_comm]

end Checker

theorem exists_records_of_runChecks {stack : Stack} {disk : Disk}
    {schedule : Schedule} {root : Path} {workers : Int} {paths : List Path}
    {id returned : SummaryId} {summaries after : Summaries}
    {events : List Event} (held : summaries.Holds id)
    (ran : runChecks stack disk schedule root workers paths
      (some id) summaries = (after, .ok (returned, events))) :
    returned = id ∧ ∃ records, paths.mapM
      (recordOf? (fileStack stack workers paths) disk root) = some records ∧
      after.get id = (summaries.get id).recordAll records := by
  rcases extend_spec stack disk schedule root workers paths
    (summaries.get id) with
    ⟨records, all, events, extended⟩ | ⟨failure, extended⟩
  · simp only [runChecks, extended] at ran
    cases ran
    exact ⟨rfl, records, all, Summaries.get_put_self held _⟩
  · simp only [runChecks, extended] at ran
    cases ran

section

variable {stack : Stack} {disk : Disk} {root : Path} {config : Config}
  {files : List (List String)} {schedule : Schedule}
  {selection : Option Selection} {workers : Int} {summaries : Summaries}

theorem exists_run_of_readable
    (found : findFiles disk root config.includes config.excludes = .ok files)
    (readable : ∀ file ∈ files, IsReadable disk ⟨"/", file⟩)
    (selected :
      (Checker.start root config workers summaries).1.shouldRun selection) :
    let started := Checker.start root config workers summaries
    ∃ after events, started.1.run stack disk schedule selection started.2 =
      (after, .ok (started.1.results, events)) := by
  rcases findFiles_eq_ok_iff.1 found with ⟨base, globs, resolved, -⟩
  rcases runChecks_of_rooted (stack.call 1) (List.forall_mem_map.2 readable)
    (fun _ => ⟨base, resolved⟩) schedule workers summaries.fresh.1
      summaries.fresh.2 with ⟨reported, ran⟩
  exact ⟨_, _, (Checker.run_eq_ok_iff selected found).2 ⟨reported, ran, rfl⟩⟩

theorem counts_of_run (named : disk.HasNames IsFileName)
    (found : findFiles disk root config.includes config.excludes = .ok files)
    (selected :
      (Checker.start root config workers summaries).1.shouldRun selection)
    {after : Summaries} {id : SummaryId} {events : List Event}
    (returned : (Checker.start root config workers summaries).1.run stack disk
      schedule selection (Checker.start root config workers summaries).2 =
        (after, .ok (id, events))) :
    (after.get id).Counts (foundStack stack workers files) disk files := by
  rcases Summaries.fresh_spec summaries with ⟨held, new⟩
  rcases (Checker.run_eq_ok_iff selected found).1 returned with
    ⟨reported, ran, -⟩
  rcases exists_records_of_runChecks held ran with ⟨rfl, records, all, recorded⟩
  rw [recorded]
  exact new ▸ counts_of_records named (nodup_of_findFiles found) all

end

/-! ## A file and a link to it -/

private theorem isEmpty_refusalsOf_of_bracket {stack : Stack}
    {disk : Disk} {path : Path} (room : 14 ≤ stack.frames)
    (read : disk.read path = .ok "```json\n[1\n```\n".toUTF8.data.toList) :
    (refusalsOf stack disk path).isEmpty = false := by
  have checked := (checkFile_of_bracket room read).2
  cases told : refusalsOf stack disk path with
  | nil =>
      have length := (isToldBy_of_checkFile checked).length_eq
      rw [told] at length
      cases length
  | cons => rfl

def linkedDisk : Disk :=
  ⟨.directory [("a.md", .file "```json\n[1\n```\n".toUTF8.data.toList),
    ("b.md", .link ⟨"", ["a.md"]⟩)], []⟩

theorem hasNames_linkedDisk : linkedDisk.HasNames IsFileName :=
  .of_tree (by decide)

theorem findFiles_linkedDisk :
    findFiles linkedDisk ⟨"", []⟩ ["*.md"] [] = .ok [["a.md"], ["b.md"]] := by
  have globs :
      (["*.md"].mapM fun text => Glob.ofString (normalizePattern text)) =
        .ok [⟨[.wildcard (.ofString "*.md")], false⟩] := by decide +kernel
  exact findFiles_of_matched (by decide +kernel) globs (by decide +kernel)
    (by decide) (by decide)

theorem read_linkedDisk {file : List String}
    (member : file ∈ [["a.md"], ["b.md"]]) :
    linkedDisk.read ⟨"/", file⟩ =
      .ok "```json\n[1\n```\n".toUTF8.data.toList := by
  rcases List.mem_cons.1 member with rfl | member
  · decide +kernel
  · rw [List.mem_singleton.1 member]
    decide +kernel

theorem isReadable_linkedDisk {file : List String}
    (member : file ∈ [["a.md"], ["b.md"]]) :
    IsReadable linkedDisk ⟨"/", file⟩ := by
  have room : 14 ≤ Stack.standard.frames := by decide
  exact (checkFile_of_bracket room (read_linkedDisk member)).1

private theorem refusedOf_linkedDisk {stack : Stack}
    (room : 14 ≤ stack.frames) :
    refusedOf stack linkedDisk [["a.md"], ["b.md"]] = [["a.md"], ["b.md"]] := by
  refine List.filter_eq_self.2 fun file member => ?_
  rw [isEmpty_refusalsOf_of_bracket room (read_linkedDisk member)]
  rfl

theorem placesOf_linkedDisk :
    linkedDisk.placesOf [["a.md"], ["b.md"]] =
      [.ok ["a.md"], .ok ["a.md"]] := by decide +kernel

theorem counts_linkedDisk {stack : Stack} {summary : Summary}
    (room : 14 ≤ stack.frames)
    (counts : summary.Counts stack linkedDisk [["a.md"], ["b.md"]]) :
    summary.checked = 2 ∧ summary.invalid = 2 ∧
    summary.errorsByPath.length = 1 := by
  rcases counts with ⟨checked, invalid, entries, -, -⟩
  rw [refusedOf_linkedDisk room] at invalid entries
  rw [placesOf_linkedDisk] at entries
  exact ⟨checked, invalid, entries⟩

/-! ## Paths that count -/

/-- Files are found by their paths, and each path that is found is found once.
Two of them lead to one place only where one has double dots or meets a link. A
new checker counts every path that is found, and keeps errors for every place:
there are as many entries as refused paths just when no two of those lead to one
place. -/
theorem run_counts_paths {disk : Disk} {root : Path} {config : Config}
    {files : List (List String)} (named : disk.HasNames IsFileName)
    (found : findFiles disk root config.includes config.excludes = .ok files) :
    files.Nodup ∧
    (∀ file ∈ files, ∃ place content, disk.resolve ⟨"/", file⟩ = .ok place ∧
      disk.tree.at? place = some (.file content)) ∧
    (∀ file ∈ files, ∀ other ∈ files, file ≠ other →
      disk.resolve ⟨"/", file⟩ = disk.resolve ⟨"/", other⟩ →
        ¬ disk.IsDirect [] file ∨ ¬ disk.IsDirect [] other) ∧
    (disk.tree.isProper → disk.IsUnlinked →
      (∀ pattern ∈ config.includes, ".." ∉
        (Path.ofString (normalizePattern pattern)).parts) →
        ∀ file ∈ files, disk.IsDirect [] file) ∧
    ∀ stack schedule selection workers summaries,
      let started := Checker.start root config workers summaries
      started.1.shouldRun selection →
        ((∀ file ∈ files, IsReadable disk ⟨"/", file⟩) → ∃ after events,
          started.1.run stack disk schedule selection started.2 =
            (after, .ok (started.1.results, events))) ∧
        ∀ after id events,
          started.1.run stack disk schedule selection started.2 =
            (after, .ok (id, events)) →
            (after.get id).Counts (foundStack stack workers files)
            disk files := by
  refine ⟨nodup_of_findFiles found, exists_place_of_findFiles found, ?_,
    isDirect_of_findFiles found, ?_⟩
  · intro file _ other _ differs same
    rw [← not_and_or]
    rintro ⟨direct, direct'⟩
    exact differs (eq_of_isDirect direct direct' same)
  · intro stack schedule selection workers summaries started selected
    exact ⟨fun readable => exists_run_of_readable found readable selected,
      fun after id events returned =>
        counts_of_run named found selected returned⟩

/-- A link and the file that it leads to, and a file without a link to it. -/
theorem run_counts_paths_link :
    let config : Config := ⟨true, ["*.md"], []⟩
    let started := Checker.start ⟨"", []⟩ config 1 .empty
    let plain : Disk := ⟨.directory [("a.md", .file [])], []⟩
    (linkedDisk.HasNames IsFileName ∧
      findFiles linkedDisk ⟨"", []⟩ config.includes config.excludes =
        .ok [["a.md"], ["b.md"]] ∧
      (¬ linkedDisk.IsDirect [] ["a.md"] ∨ ¬ linkedDisk.IsDirect [] ["b.md"]) ∧
      ∃ after id events,
        started.1.run .standard linkedDisk .inTurn none started.2 =
          (after, .ok (id, events)) ∧
        (after.get id).checked = 2 ∧ (after.get id).invalid = 2 ∧
        (after.get id).errorsByPath.length = 1) ∧
    plain.HasNames IsFileName ∧ plain.tree.isProper ∧ plain.IsUnlinked ∧
      findFiles plain ⟨"", []⟩ config.includes config.excludes =
        .ok [["a.md"]] ∧
      plain.IsDirect [] ["a.md"] := by
  intro config started plain
  have globs :
      (config.includes.mapM fun text => Glob.ofString (normalizePattern text)) =
        .ok [⟨[.wildcard (.ofString "*.md")], false⟩] := by decide +kernel
  constructor
  · have found : findFiles linkedDisk ⟨"", []⟩ config.includes config.excludes =
        .ok [["a.md"], ["b.md"]] := findFiles_linkedDisk
    rcases run_counts_paths hasNames_linkedDisk found with
      ⟨-, -, alike, -, runs⟩
    rcases runs .standard .inTurn none 1 .empty rfl with ⟨ends, counts⟩
    rcases ends fun file member => isReadable_linkedDisk member with
      ⟨after, events, ran⟩
    exact ⟨hasNames_linkedDisk, found,
      alike ["a.md"] (by decide) ["b.md"] (by decide) (by decide)
      (by decide +kernel), after, _, events, ran, counts_linkedDisk (by decide)
      (counts after _ events ran)⟩
  · have named : plain.HasNames IsFileName := .of_tree (by decide)
    have proper : plain.tree.isProper := by decide
    have unlinked : plain.IsUnlinked := .of_tree rfl (by decide)
    have found : findFiles plain ⟨"", []⟩ config.includes config.excludes =
        .ok [["a.md"]] :=
      findFiles_of_matched (by decide +kernel) globs (by decide +kernel)
      (by decide) (by decide)
    have down : ∀ pattern ∈ config.includes,
        ".." ∉
          (Path.ofString (normalizePattern pattern)).parts := by decide +kernel
    rcases run_counts_paths named found with ⟨-, -, -, direct, -⟩
    exact ⟨named, proper, unlinked, found,
      direct proper unlinked down _ (.head _)⟩

/-- Two paths that are found lead to one file, by a link or by double dots in a
pattern. Both count as invalid, under the one name. -/
theorem run_counts_paths_same_file :
    let climbed : Disk :=
      ⟨.directory [("a.md", .file []), ("d", .directory [])], []⟩
    let started := Checker.start ⟨"", []⟩ ⟨true, ["*.md"], []⟩ 1 .empty
    findFiles linkedDisk ⟨"", []⟩ ["*.md"] [] = .ok [["a.md"], ["b.md"]] ∧
      linkedDisk.resolve ⟨"/", ["a.md"]⟩ = linkedDisk.resolve ⟨"/", ["b.md"]⟩ ∧
      findFiles climbed ⟨"", []⟩ ["*.md", "d/../*.md"] [] =
        .ok [["a.md"], ["d", "..", "a.md"]] ∧
      climbed.resolve ⟨"/", ["a.md"]⟩ =
        climbed.resolve ⟨"/", ["d", "..", "a.md"]⟩ ∧
      ∃ after id events,
        started.1.run .standard linkedDisk .inTurn none started.2 =
          (after, .ok (id, events)) ∧
        (after.get id).invalid ≠ (after.get id).errorsByPath.length ∧
        (after.get id).checked ≠
          (linkedDisk.placesOf [["a.md"], ["b.md"]]).toFinset.card := by
  intro climbed started
  have globs :
      (["*.md", "d/../*.md"].mapM fun text =>
        Glob.ofString (normalizePattern text)) =
          .ok [⟨[.wildcard (.ofString "*.md")], false⟩,
            ⟨[.name "d", .name "..", .wildcard (.ofString "*.md")],
              false⟩] := by decide +kernel
  have found : findFiles linkedDisk ⟨"", []⟩
      (Config.mk true ["*.md"] []).includes
        (Config.mk true ["*.md"] []).excludes = .ok [["a.md"], ["b.md"]] :=
          findFiles_linkedDisk
  have ends : ∃ after events, started.1.run .standard linkedDisk .inTurn
      none started.2 = (after, .ok (started.1.results, events)) :=
    exists_run_of_readable found
      (fun file member => isReadable_linkedDisk member) rfl
  rcases ends with ⟨after, events, ran⟩
  rcases counts_linkedDisk (by decide)
    (counts_of_run hasNames_linkedDisk found rfl ran) with
    ⟨checked, invalid, entries⟩
  refine
    ⟨findFiles_linkedDisk, by
      decide +kernel, ?_, by decide +kernel, after, _, events, ran, ?_, ?_⟩
  · exact findFiles_of_matched (by decide +kernel) globs (by decide +kernel)
      (by decide) (by decide)
  · rw [invalid, entries]
    decide
  · rw [checked, placesOf_linkedDisk]
    decide

end Check
end FencedJson
