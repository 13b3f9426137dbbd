import FencedJson.Check.Run
import FencedJson.Proofs.Check.Pool
import FencedJson.Proofs.Files.Links

/-! # What a run records

A run records all of its files or none. A file that can be read has a name, so
that names can only fail on the way to the root, and then they fail before
anything is recorded.
-/

namespace FencedJson.Check

theorem mapM_append_error {α ε β : Type} {work : α → Except ε β}
    {before : List α} {item : α} {failure : ε}
    (fine : ∀ earlier ∈ before, ∃ value, work earlier = .ok value)
    (fails : work item = .error failure) (after : List α) :
    (before ++ item :: after).mapM work = .error failure := by
  induction before with
  | nil => rw [List.nil_append, mapM_cons_except, fails]
  | cons first rest induction =>
      rcases fine first (List.mem_cons_self ..) with ⟨value, worked⟩
      rw [List.cons_append, mapM_cons_except, worked,
        induction fun earlier member =>
          fine earlier (List.mem_cons_of_mem _ member)]
      rfl

theorem filterMap_of_mapM {α β : Type} {read? : α → Option β} {items : List α}
    {values : List β} (all : items.mapM read? = some values) :
    items.filterMap read? = values ∧ ∀ item ∈ items, (read? item).isSome := by
  induction items generalizing values with
  | nil =>
      cases all
      exact ⟨rfl, fun item member => nomatch member⟩
  | cons item rest induction =>
      rw [List.mapM_cons] at all
      cases first : read? item with
      | none =>
          rw [first] at all
          cases all
      | some value =>
          cases others : rest.mapM read? with
          | none =>
              rw [first, others] at all
              cases all
          | some later =>
              rw [first, others] at all
              cases all
              rcases induction others with ⟨kept, present⟩
              refine ⟨by rw [List.filterMap_cons, first, kept], ?_⟩
              intro other member
              rcases List.mem_cons.1 member with rfl | member
              · rw [first]
                rfl
              · exact present other member

theorem mem_of_mapM {α β : Type} {read? : α → Option β} {items : List α}
    {values : List β} (all : items.mapM read? = some values) {item : α}
    (member : item ∈ items) {value : β} (read : read? item = some value) :
    value ∈ values := by
  rw [← (filterMap_of_mapM all).1]
  exact List.mem_filterMap.2 ⟨item, member, read⟩

theorem forall₂_of_mapM {α β : Type} {read? : α → Option β} {items : List α}
    {values : List β} (all : items.mapM read? = some values) :
    List.Forall₂ (fun item value => read? item = some value) items values := by
  rcases filterMap_of_mapM all with ⟨rfl, present⟩
  clear all
  induction items with
  | nil => exact .nil
  | cons item rest induction =>
      rcases List.forall_mem_cons.1 present with ⟨first, others⟩
      rcases Option.isSome_iff_exists.1 first with ⟨value, read⟩
      rw [List.filterMap_cons_some read]
      exact .cons read (induction others)

def Summary.recordAll (summary : Summary)
    (entries : List (String × List BlockError)) : Summary :=
  entries.foldl (fun summary entry => summary.record entry.1 entry.2) summary

theorem Summary.recordAll_append (summary : Summary)
    (front back : List (String × List BlockError)) :
    summary.recordAll (front ++ back) =
      (summary.recordAll front).recordAll back :=
  List.foldl_append

/-- What there is to record of a file that is checked on a stack: its name and
its errors. -/
def recordOf? (stack : Stack) (disk : Disk) (root path : Path) :
    Option (String × List BlockError) :=
  match recordedName disk root path, checkFile stack disk path with
  | .ok name, .ok found => some (name, found.map Finding.error)
  | _, _ => none

section

variable {stack : Stack} {disk : Disk} {schedule : Schedule} {root : Path}
  {workers : Int} {paths : List Path} {summary : Summary}

theorem recordOf?_eq_some_iff {path : Path} {name : String}
    {errors : List BlockError} :
    recordOf? stack disk root path = some (name, errors) ↔
    recordedName disk root path = .ok name ∧
      ∃ found, checkFile stack disk path = .ok found ∧
      found.map Finding.error = errors := by
  unfold recordOf?
  split
  · next named checked => simp [named, checked]
  · next failed =>
      simp only [reduceCtorEq, false_iff, not_and, not_exists]
      exact fun named found checked => (failed _ _ named checked).elim

theorem exists_path_of_mem {records : List (String × List BlockError)}
    (all : paths.mapM (recordOf? stack disk root) = some records)
    {record : String × List BlockError} (member : record ∈ records) :
    ∃ path ∈ paths, recordOf? stack disk root path = some record := by
  rw [← (filterMap_of_mapM all).1] at member
  exact List.mem_filterMap.1 member

theorem readText_eq_ok_iff {path : Path} {markdown : String} :
    readText disk path = .ok markdown ↔
    ∃ content text, disk.read path = .ok content ∧
      Utf8.decode content = .ok text ∧
      String.ofList (unifyNewlines text) = markdown := by
  unfold readText
  cases disk.read path with
  | error problem => simp
  | ok content =>
      simp only [Except.ok.injEq, exists_and_left, exists_eq_left']
      cases Utf8.decode content <;> simp

/-- A file that can be checked is one that can be read, and its bytes are a
text. -/
theorem checkFile_eq_ok_iff {path : Path} {found : List Finding} :
    checkFile stack disk path = .ok found ↔
    ∃ content text, disk.read path = .ok content ∧
      Utf8.decode content = .ok text ∧
      checkText (stack.call 1) (String.ofList (unifyNewlines text)) =
        .ok found := by
  have checked : checkFile stack disk path = .ok found ↔ ∃ markdown,
      readText disk path = .ok markdown ∧
      checkText (stack.call 1) markdown = .ok found := by
    unfold checkFile
    cases readText disk path with
    | error failure => simp
    | ok markdown => cases outcome : checkText (stack.call 1) markdown <;>
        simp [Except.mapError, outcome]
  rw [checked]
  constructor
  · rintro ⟨markdown, read, outcome⟩
    rcases readText_eq_ok_iff.1 read with ⟨content, text, bytes, decoded, rfl⟩
    exact ⟨content, text, bytes, decoded, outcome⟩
  · rintro ⟨content, text, bytes, decoded, outcome⟩
    exact ⟨_, readText_eq_ok_iff.2 ⟨content, text, bytes, decoded, rfl⟩,
      outcome⟩

theorem checkFile_of_empty {path : Path} (read : disk.read path = .ok []) :
    checkFile stack disk path = .ok [] := by
  have none : (Markdown.parse "").jsonBlocks = [] :=
    List.isEmpty_iff.1 (by decide +kernel)
  refine checkFile_eq_ok_iff.2 ⟨[], [], read, by decide +kernel, ?_⟩
  change findings _ (Markdown.parse "").jsonBlocks = .ok []
  rw [none, findings]

theorem one_lt_of_isShared (shared : isShared workers paths) : 1 < workers := by
  simp only [isShared, Bool.and_eq_true, decide_eq_true_eq] at shared
  exact shared.1

/-- Whoever of the workers gets ahead, the outcome is that of checking in turn
on the stack that they have. -/
theorem checkFiles_eq_mapM (stack : Stack) (disk : Disk) (schedule : Schedule)
    (workers : Int) (paths : List Path) :
    checkFiles stack disk schedule workers paths =
      paths.mapM (checkFile (fileStack stack workers paths) disk) := by
  unfold checkFiles
  split
  · next shared =>
      have several := one_lt_of_isShared shared
      exact Pool.results_eq_mapM (by omega) schedule paths
  · rfl

/-! ## Names -/

private theorem exists_recordedName {path : Path} {found : List Finding}
    {start : List String} (checked : checkFile stack disk path = .ok found)
    (rooted : disk.resolve root = .ok start) :
    ∃ name, recordedName disk root path = .ok name := by
  rcases checkFile_eq_ok_iff.1 checked with ⟨content, text, read, -⟩
  rcases Disk.exists_resolve_of_read read with ⟨target, resolved⟩
  exact ⟨_, by rw [recordedName, resolved, rooted]⟩

theorem recordedName_of_loop {path : Path} {found : List Finding}
    {names : List String} (checked : checkFile stack disk path = .ok found)
    (loops : disk.resolve root = .error names) :
    recordedName disk root path = .error names := by
  rcases checkFile_eq_ok_iff.1 checked with ⟨content, text, read, -⟩
  rcases Disk.exists_resolve_of_read read with ⟨target, resolved⟩
  rw [recordedName, resolved, loops]

/-! ## Records -/

theorem exists_records_of_rooted {found : List (List Finding)}
    {start : List String}
    (checked : paths.mapM (checkFile stack disk) = .ok found)
    (rooted : disk.resolve root = .ok start) :
    ∃ entries, paths.mapM (recordOf? stack disk root) = some entries := by
  induction paths generalizing found with
  | nil => exact ⟨[], rfl⟩
  | cons path rest induction =>
      rcases mapM_cons_eq_ok_iff.1 checked with
        ⟨here, later, first, others, rfl⟩
      rcases exists_recordedName first rooted with ⟨name, named⟩
      rcases induction others with ⟨entries, all⟩
      refine ⟨(name, here.map Finding.error) :: entries, ?_⟩
      rw [List.mapM_cons, recordOf?_eq_some_iff.2
        ⟨named, here, first, rfl⟩, all]
      rfl

private theorem recordFiles_of_records
    {entries : List (String × List BlockError)}
    (all : paths.mapM (recordOf? stack disk root) = some entries)
    (summary : Summary) :
    ∃ found, paths.mapM (checkFile stack disk) = .ok found ∧
      ∃ events, recordFiles disk root summary (paths.zip found) =
        (summary.recordAll entries, .ok events) := by
  have pairs := forall₂_of_mapM all
  clear all
  induction pairs generalizing summary with
  | nil => exact ⟨[], rfl, [], rfl⟩
  | @cons path entry rest entries read others induction =>
      rcases recordOf?_eq_some_iff.1 read with ⟨named, here, first, errors⟩
      rcases induction (summary.record entry.1 entry.2) with
        ⟨later, checked, events, recorded⟩
      refine ⟨here :: later, mapM_cons_eq_ok_iff.2
        ⟨here, later, first, checked, rfl⟩,
        recordedEvents entry.1 here ++ events, ?_⟩
      rw [List.zip_cons_cons, recordFiles, named]
      dsimp only
      rw [errors, recorded]
      rfl

theorem extend_of_records {entries : List (String × List BlockError)}
    (all : paths.mapM (recordOf? (fileStack stack workers paths) disk root) =
      some entries)
    (schedule : Schedule) (summary : Summary) :
    ∃ events, extend stack disk schedule root workers paths summary =
      (summary.recordAll entries, .ok events) := by
  rcases recordFiles_of_records all summary with
    ⟨found, checked, events, recorded⟩
  unfold extend
  rw [checkFiles_eq_mapM, checked]
  dsimp only
  rw [recorded]
  exact ⟨_, rfl⟩

/-- A run comes to its end and records every file, or it leaves the summary as
it was. -/
theorem extend_spec (stack : Stack) (disk : Disk)
    (schedule : Schedule) (root : Path) (workers : Int) (paths : List Path)
    (summary : Summary) :
    (∃ entries, paths.mapM
      (recordOf? (fileStack stack workers paths) disk root) = some entries ∧
      ∃ events, extend stack disk schedule root workers paths summary =
        (summary.recordAll entries, .ok events)) ∨
      ∃ failure, extend stack disk schedule root workers paths summary =
        (summary, .error failure) := by
  -- Only when every file is checked is the root resolved, and only then is
  -- anything recorded.
  cases checked :
    paths.mapM (checkFile (fileStack stack workers paths) disk) with
  | error failure =>
      exact .inr ⟨.file failure, by rw [extend, checkFiles_eq_mapM, checked]⟩
  | ok found =>
      cases rooted : disk.resolve root with
      | ok start =>
          rcases exists_records_of_rooted checked rooted with ⟨entries, all⟩
          exact .inl ⟨entries, all, extend_of_records all schedule summary⟩
      | error names =>
          cases paths with
          | nil => exact .inl ⟨[], rfl, extend_of_records rfl schedule summary⟩
          | cons path rest =>
              rcases mapM_cons_eq_ok_iff.1 checked with
                ⟨here, later, first, others, rfl⟩
              refine .inr ⟨.loop names, ?_⟩
              simp only [extend, checkFiles_eq_mapM, checked,
                List.zip_cons_cons, recordFiles,
                recordedName_of_loop first rooted]

theorem extend_of_failure {before after : List Path} {path : Path}
    {failure : FileFailure} (listed : paths = before ++ path :: after)
    (fine : ∀ earlier ∈ before, ∃ found,
      checkFile (fileStack stack workers paths) disk earlier = .ok found)
    (fails : checkFile (fileStack stack workers paths) disk path =
      .error failure) :
    extend stack disk schedule root workers paths summary =
      (summary, .error (.file failure)) := by
  have stopped := mapM_append_error fine fails after
  rw [← listed] at stopped
  unfold extend
  rw [checkFiles_eq_mapM, stopped]

end

end FencedJson.Check
