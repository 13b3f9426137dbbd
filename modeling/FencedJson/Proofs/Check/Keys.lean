import FencedJson.Proofs.Check.Places

/-! # Keys that lead back

A file is recorded under a key that tells the way to it from the root. Whoever
goes that way comes back to the file, so that a key belongs to one file, and no
file takes the place of another one in a summary.
-/

namespace FencedJson

/-- A name that can be read back where it is written in a path. Two dots are
such a name. -/
def IsPathName (name : String) : Prop :=
  name ≠ "" ∧ name ≠ "." ∧ '/' ∉ name.toList

instance (name : String) : Decidable (IsPathName name) :=
  inferInstanceAs (Decidable (name ≠ "" ∧ name ≠ "." ∧ '/' ∉ name.toList))

namespace Path

/-! ## Paths that are written out -/

private theorem pieces_eq_splitOn (text : List Char) :
    pieces text = text.splitOn '/' := by
  induction text with
  | nil => rfl
  | cons c rest induction =>
      rw [pieces, induction, List.splitOn, List.splitOn,
        List.splitOnP_cons_eq_if_modifyHead]
      by_cases slash : c = '/'
      · rw [if_pos slash, if_pos (beq_iff_eq.2 slash)]
      · rw [if_neg slash, if_neg (by simpa using slash)]
        cases pieces : List.splitOnP (· == '/') rest with
        | nil => exact absurd pieces (List.splitOnP_ne_nil _ _)
        | cons piece others => rfl

private theorem names_joinNames {parts : List String} (some : parts ≠ [])
    (named : ∀ name ∈ parts, IsPathName name) :
    names (joinNames parts).toList = parts := by
  have whole : ∀ name ∈ parts, '/' ∉ name.toList :=
    fun name member => (named name member).2.2
  have same : (parts.map String.toList).map String.ofList = parts := by
    rw [List.map_map]
    exact (List.map_congr_left fun name _ => String.ofList_toList).trans
      (List.map_id parts)
  rw [names, pieces_eq_splitOn, splitOn_joinNames some whole, same]
  refine List.filter_eq_self.2 fun name member => decide_eq_true ?_
  exact ⟨(named name member).1, (named name member).2.1⟩

private theorem takeWhile_slash_joinNames {name : String}
    (named : IsPathName name) (rest : List String) :
    (joinNames (name :: rest)).toList.takeWhile (· = '/') = [] := by
  have front : ∃ behind, (joinNames (name :: rest)).toList =
      name.toList ++ behind := by
    cases rest with
    | nil => exact ⟨[], by rw [toList_joinNames_singleton, List.append_nil]⟩
    | cons next rest =>
        exact ⟨_, toList_joinNames_cons name (List.cons_ne_nil next rest)⟩
  rcases front with ⟨behind, written⟩
  rw [written]
  cases first : name.toList with
  | nil => exact absurd (String.toList_eq_nil_iff.1 first) named.1
  | cons c inside =>
      have other : ¬ c = '/' := fun slash => named.2.2 (by simp [first, slash])
      rw [List.cons_append, List.takeWhile_cons_of_neg (by simpa using other)]

theorem ofString_toString {parts : List String}
    (named : ∀ name ∈ parts, IsPathName name) :
    ofString (Path.mk "" parts).toString = ⟨"", parts⟩ := by
  cases parts with
  | nil => decide +kernel
  | cons name rest =>
      have relative :=
          takeWhile_slash_joinNames (named name (List.mem_cons_self ..)) rest
      rw [toString_relative, if_neg (List.cons_ne_nil name rest),
        ofString, relative, names_joinNames (List.cons_ne_nil name rest) named]
      rfl

/-! ## Going a way -/

theorem descend_append (base front back : List String) :
    descend base (front ++ back) = descend (descend base front) back := by
  fun_induction descend base front with
  | case1 => rfl
  | case2 base rest induction =>
      rw [List.cons_append, descend, if_pos rfl, induction]
  | case3 base name rest named induction =>
      rw [List.cons_append, descend, if_neg named, induction]

theorem descend_of_dotless {base names : List String} (dotless : ".." ∉ names) :
    descend base names = base ++ names := by
  induction names generalizing base with
  | nil => exact (List.append_nil base).symm
  | cons name rest induction =>
      rw [List.mem_cons, not_or] at dotless
      rw [descend, if_neg (Ne.symm dotless.1), induction dotless.2,
        List.append_assoc]
      rfl

private theorem descend_replicate (base : List String) (count : Nat) :
    descend base (List.replicate count "..") =
      base.take (base.length - count) := by
  induction count generalizing base with
  | zero => rw [Nat.sub_zero, List.take_length]; rfl
  | succ count induction =>
      rw [List.replicate_succ, descend, if_pos rfl, induction,
        List.dropLast_eq_take, List.take_take, List.length_take]
      congr 1
      omega

theorem descend_relative {target : List String} (down : ".." ∉ target)
    (start : List String) :
    descend start (relative target start).parts = target := by
  rcases withoutCommon_spec target start with ⟨common, upper, lower⟩
  rw [relative]
  generalize withoutCommon target start = rest at upper lower ⊢
  subst upper lower
  have below : ".." ∉ rest.1 :=
    fun member => down (List.mem_append_right common member)
  have climbed : descend (common ++ rest.2)
      (rest.2.map fun _ => "..") = common := by
    rw [List.map_const', descend_replicate, List.length_append,
      Nat.add_sub_cancel, List.take_left]
  rw [descend_append, climbed, descend_of_dotless below]

end Path

namespace Disk

variable {disk : Disk} {kind : String → Prop}

/-! ## Names of places -/

/-- The way to the working directory and the targets of all links have names of
a kind. -/
structure LeadsBy (disk : Disk) (kind : String → Prop) : Prop where
  working : ∀ name ∈ disk.working, kind name
  links : ∀ names target, disk.tree.at? names = some (.link target) →
    ∀ name ∈ target.parts, kind name

theorem LeadsBy.of_tree [DecidablePred kind]
    (working : ∀ name ∈ disk.working, kind name)
    (start : disk.tree.isLink = false) (links : disk.tree.all fun _ inner =>
      match inner with
      | .link target => target.parts.all fun name => kind name
      | _ => true) : disk.LeadsBy kind := by
  refine ⟨working, fun names target stands name member => ?_⟩
  rcases (FileTree.passed_of_at? links stands).1 with whole | ⟨-, passed⟩
  · rw [← whole] at start
    cases start
  · exact of_decide_eq_true (List.all_eq_true.1 passed name member)

/-- A path that is followed meets no names but those of the path, of the links
on it and of the directory that it begins in. -/
theorem LeadsBy.names_of_follow (leads : disk.LeadsBy kind)
    {active : List (List String)} {base parts : List String}
    (begins : ∀ name ∈ base, kind name) (named : ∀ name ∈ parts, kind name) :
    ∀ name ∈ (disk.follow active base parts).names, kind name := by
  have begun {base : List String} (begins : ∀ name ∈ base, kind name)
      (target : Path) :
      ∀ name ∈ linkStart base target, kind name := by
    unfold linkStart
    split
    · exact List.forall_mem_nil _
    · exact begins
  fun_induction follow disk active base parts with
  | case1 => exact begins
  | case2 active base rest induction =>
      exact induction (fun name member =>
        begins name (List.mem_of_mem_dropLast member))
        (List.forall_mem_cons.1 named).2
  | case3 active base name rest _ here =>
      rcases List.forall_mem_cons.1 named with ⟨first, others⟩
      exact List.forall_mem_append.2
        ⟨List.forall_mem_append.2 ⟨begins, List.forall_mem_singleton.2 first⟩,
          others⟩
  | case4 active base name rest _ here target link _ _ _ behind _ further =>
      exact further
        (behind (begun begins target) (leads.links here target link))
        (List.forall_mem_cons.1 named).2
  | case5 active base name rest _ here target link _ _ _ behind =>
      exact List.forall_mem_append.2
        ⟨behind (begun begins target) (leads.links here target link),
          (List.forall_mem_cons.1 named).2⟩
  | case6 active base name rest _ here _ induction =>
      rcases List.forall_mem_cons.1 named with ⟨first, others⟩
      exact induction (List.forall_mem_append.2
        ⟨begins, List.forall_mem_singleton.2 first⟩) others

theorem LeadsBy.names_of_resolve (leads : disk.LeadsBy kind) {path : Path}
    {names : List String} (named : ∀ name ∈ path.parts, kind name)
    (resolved : disk.resolve path = .ok names) :
    ∀ name ∈ names, kind name := by
  have rooted : ∀ name ∈ disk.fromRoot path, kind name := by
    unfold fromRoot
    split
    · exact named
    · exact List.forall_mem_append.2 ⟨leads.working, named⟩
  have followed :
      ∀ name ∈ (disk.follow [] [] (disk.fromRoot path)).names, kind name :=
    leads.names_of_follow (List.forall_mem_nil _) rooted
  unfold resolve at resolved
  dsimp only at resolved
  split at resolved
  · cases resolved
    exact followed
  · split at resolved
    · cases resolved
    · cases resolved
      exact Path.forall_mem_descend (List.forall_mem_nil _) fun name member _ =>
        followed name member

end Disk

namespace Check

variable {disk : Disk} {root path : Path} {start target : List String}

/-! ## Keys -/

theorem recordedName_of_resolve (rooted : disk.resolve root = .ok start)
    (resolved : disk.resolve path = .ok target) :
    recordedName disk root path =
      .ok (Path.relative target start).toString := by
  rw [recordedName, resolved, rooted]

private theorem isPathName_of_mem_relative
    (named : ∀ name ∈ target, IsPathName name) :
    ∀ name ∈ (Path.relative target start).parts, IsPathName name := by
  intro name member
  rcases Path.eq_or_mem_of_mem_relative member with rfl | member
  · decide
  · exact named name member

theorem descend_recordedName (leads : disk.LeadsBy IsPathName)
    (named : ∀ name ∈ path.parts, IsPathName name)
    (rooted : disk.resolve root = .ok start)
    (resolved : disk.resolve path = .ok target) :
    ∃ key, recordedName disk root path = .ok key ∧
      Path.descend [] ((Path.mk "/" start).join (.ofString key)).parts =
        target := by
  refine ⟨_, recordedName_of_resolve rooted resolved, ?_⟩
  have read : Path.ofString (Path.relative target start).toString =
      Path.relative target start :=
    Path.ofString_toString
      (isPathName_of_mem_relative (leads.names_of_resolve named resolved))
  have joined : ((Path.mk "/" start).join (Path.relative target start)).parts =
      start ++ (Path.relative target start).parts := rfl
  have begins := Disk.dotless_of_resolve rooted
  have ends := Disk.dotless_of_resolve resolved
  rw [read, joined, Path.descend_append, Path.descend_of_dotless begins]
  exact Path.descend_relative ends start

theorem recordedName_eq_iff_resolve (leads : disk.LeadsBy IsPathName)
    {other : Path} (named : ∀ name ∈ path.parts, IsPathName name)
    (named' : ∀ name ∈ other.parts, IsPathName name) {target' : List String}
    (rooted : disk.resolve root = .ok start)
    (resolved : disk.resolve path = .ok target)
    (resolved' : disk.resolve other = .ok target') :
    recordedName disk root path = recordedName disk root other ↔
    target = target' := by
  constructor
  · intro same
    rcases descend_recordedName leads named rooted resolved with
      ⟨key, recorded, back⟩
    rcases descend_recordedName leads named' rooted resolved' with
      ⟨key', recorded', back'⟩
    rw [recorded, recorded', Except.ok.injEq] at same
    rw [← back, ← back', same]
  · rintro rfl
    rw [recordedName_of_resolve rooted resolved,
      recordedName_of_resolve rooted resolved']

private theorem errors_eq_of_key {stack : Stack}
    (leads : disk.LeadsBy IsPathName) (rooted : disk.resolve root = .ok start)
    {other : Path} (named : ∀ name ∈ path.parts, IsPathName name)
    (named' : ∀ name ∈ other.parts, IsPathName name) {key : String}
    {errors errors' : List BlockError}
    (recorded : recordOf? stack disk root path = some (key, errors))
    (recorded' : recordOf? stack disk root other = some (key, errors')) :
    errors' = errors := by
  rcases exists_file_of_recordOf? recorded with
    ⟨under, found, target, content, checked, rfl, resolved, -⟩
  rcases exists_file_of_recordOf? recorded' with
    ⟨under', found', target', content', checked', rfl, resolved', -⟩
  have same :=
    (recordedName_eq_iff_resolve leads named named' rooted resolved resolved').1
      (under.trans under'.symm)
  rw [found_eq_of_resolve checked checked' (by rw [resolved, resolved', same])]

/-- In a run every file has its own errors under its key, whatever else is
recorded, and entries under no key of the run stay as they are. -/
theorem lookup_of_runChecks {stack : Stack} (leads : disk.LeadsBy IsPathName)
    (rooted : disk.resolve root = .ok start) {paths : List Path}
    (named : ∀ path ∈ paths, ∀ name ∈ path.parts, IsPathName name)
    {schedule : Schedule} {workers : Int} {id returned : SummaryId}
    {summaries after : Summaries} {events : List Event}
    (held : summaries.Holds id)
    (ran : runChecks stack disk schedule root workers paths
      (some id) summaries = (after, .ok (returned, events))) :
    (∀ path ∈ paths, ∃ key found, recordedName disk root path = .ok key ∧
      checkFile (fileStack stack workers paths) disk path = .ok found ∧
      (found ≠ [] →
        (after.get returned).errorsByPath.lookup key =
          some (found.map Finding.error))) ∧
    ∀ key, (∀ path ∈ paths, recordedName disk root path ≠ .ok key) →
      (after.get returned).errorsByPath.lookup key =
        (summaries.get returned).errorsByPath.lookup key := by
  rcases exists_records_of_runChecks held ran with ⟨rfl, records, all, recorded⟩
  rw [recorded]
  constructor
  · intro path member
    rcases Option.isSome_iff_exists.1
      ((filterMap_of_mapM all).2 path member) with ⟨⟨key, errors⟩, recorded⟩
    rcases recordOf?_eq_some_iff.1 recorded with ⟨under, found, checked, rfl⟩
    refine ⟨key, found, under, checked, fun some => ?_⟩
    have kept : (key, found.map Finding.error) ∈ records :=
      mem_of_mapM all member recorded
    refine Summary.lookup_recordAll_of_mem _ (fun errors' member' => ?_)
      (fun none => some (List.map_eq_nil_iff.1 none)) kept
    rcases exists_path_of_mem all member' with ⟨other, listed, recorded'⟩
    exact errors_eq_of_key leads rooted (named path member)
      (named other listed) recorded recorded'
  · intro key absent
    apply Summary.lookup_recordAll_of_not_mem
    intro member
    rcases List.mem_map.1 member with ⟨record, found, rfl⟩
    rcases exists_path_of_mem all found with ⟨path, listed, read⟩
    exact absent path listed (recordOf?_eq_some_iff.1 read).1

/-! ## Files that are found -/

private theorem relative_append (start way : List String) :
    Path.relative (start ++ way) start = ⟨"", way⟩ := by
  have left : Path.withoutCommon (start ++ way) start = (way, []) := by
    induction start with
    | nil => cases way <;> rfl
    | cons name start induction =>
        rw [List.cons_append, Path.withoutCommon, if_pos rfl, induction]
  rw [Path.relative, left]
  rfl

/-- The key of a file that is found along a direct way is the text that patterns
of excluded files are matched with. -/
theorem recordedName_of_findFiles {includes excludes way : List String}
    {files : List (List String)}
    (complete : (disk.follow [] [] (disk.fromRoot root)).complete)
    (rooted : disk.resolve root = .ok start)
    (found : findFiles disk root includes excludes = .ok files)
    (member : start ++ way ∈ files) (direct : disk.IsDirect start way) :
    recordedName disk root ⟨"/", start ++ way⟩ = .ok (Path.joinNames way) ∧
      ∀ excludes', ∃ files', findFiles disk root includes excludes' =
        .ok files' ∧ (start ++ way ∈ files' ↔
          ¬ isExcluded (excludes'.map normalizePattern)
          (Path.joinNames way)) := by
  rcases (mem_findFiles_iff found rooted).1 member with
    ⟨path, same, matched, file, -⟩
  cases List.append_cancel_left same
  rcases matched with ⟨pattern, listed, glob, parsed, selected⟩
  have begins := Disk.isDirect_of_resolve complete rooted
  have below : way ≠ [] := by
    rintro rfl
    rw [List.append_nil] at file
    rcases (Disk.isFile_iff_of_isDirect begins).1 file with ⟨content, stands⟩
    rcases (Disk.isDirectory_iff_of_isDirect begins).1
      (List.mem_ite_nil_right.1 selected).1 with ⟨entries, stands'⟩
    rw [stands] at stands'
    cases stands'
  have whole :=
      Disk.resolve_of_isDirect (Disk.isDirect_append_iff.2 ⟨begins, direct⟩)
  constructor
  · rw [recordedName_of_resolve rooted whole, relative_append,
      Path.toString_relative, if_neg below]
  · intro excludes'
    have ends :
        ∃ files', findFiles disk root includes excludes' = .ok files' := by
      rcases findFiles_eq_ok_iff.1 found with ⟨base, globs, again, read, -⟩
      exact ⟨_, findFiles_eq_ok_iff.2 ⟨base, globs, again, read, rfl⟩⟩
    rcases ends with ⟨files', found'⟩
    refine ⟨files', found', (mem_findFiles_iff found' rooted).trans
      ⟨?_, fun kept => ?_⟩⟩
    · rintro ⟨path, same, -, -, kept⟩
      rwa [List.append_cancel_left same]
    · exact ⟨way, rfl, ⟨pattern, listed, glob, parsed, selected⟩, file, kept⟩

/-- A key tells the way to a file from the root. It leads back to the place that
the path leads to, so that paths have one key just when they lead to one place;
in a run every file has its own errors under its key, and the entries of other
keys stay. Below a root on which no link leads back to itself, the key of a file
that is found without double dots and links is the text that patterns of
excluded files are matched with. -/
theorem recordedName_identifies (leads : disk.LeadsBy IsPathName)
    (rooted : disk.resolve root = .ok start) :
    (∀ path target, (∀ name ∈ path.parts, IsPathName name) →
      disk.resolve path = .ok target →
      (∃ key, recordedName disk root path = .ok key ∧
        Path.descend [] ((Path.mk "/" start).join (.ofString key)).parts =
          target) ∧
      ∀ other target', (∀ name ∈ other.parts, IsPathName name) →
        disk.resolve other = .ok target' →
          (recordedName disk root path = recordedName disk root other ↔
            target = target')) ∧
    (∀ stack schedule workers paths given summaries after id events,
      (∀ path ∈ paths, ∀ name ∈ path.parts, IsPathName name) →
      (∀ id ∈ given, summaries.Holds id) →
      runChecks stack disk schedule root workers paths given summaries =
        (after, .ok (id, events)) →
      (∀ path ∈ paths, ∃ key found, recordedName disk root path = .ok key ∧
        checkFile (fileStack stack workers paths) disk path = .ok found ∧
        (found ≠ [] →
          (after.get id).errorsByPath.lookup key =
            some (found.map Finding.error))) ∧
      ∀ key, (∀ path ∈ paths, recordedName disk root path ≠ .ok key) →
        (after.get id).errorsByPath.lookup key =
          (summaries.get id).errorsByPath.lookup key) ∧
    ((disk.follow [] [] (disk.fromRoot root)).complete →
      ∀ includes excludes files, findFiles disk root includes excludes =
        .ok files →
      ∀ way, start ++ way ∈ files → disk.IsDirect start way →
        recordedName disk root ⟨"/", start ++ way⟩ = .ok (Path.joinNames way) ∧
          ∀ excludes', ∃ files', findFiles disk root includes excludes' =
            .ok files' ∧ (start ++ way ∈ files' ↔
              ¬ isExcluded (excludes'.map normalizePattern)
              (Path.joinNames way))) := by
  refine ⟨fun path target named resolved =>
    ⟨?_, fun other target' named' resolved' => ?_⟩, ?_, ?_⟩
  · exact descend_recordedName leads named rooted resolved
  · exact recordedName_eq_iff_resolve leads named named' rooted
      resolved resolved'
  · intro stack schedule workers paths given summaries after id events
      named held ran
    cases given with
    | some known =>
        exact lookup_of_runChecks leads rooted named (held known rfl) ran
    | none =>
        rw [← Summaries.get_fresh summaries id]
        exact lookup_of_runChecks leads rooted named
          (Summaries.fresh_spec summaries).1 ran
  · intro complete includes excludes files found way member direct
    exact recordedName_of_findFiles complete rooted found member direct

def aliasedDisk : Disk :=
  let broken := .file "```json\n[1\n```\n".toUTF8.data.toList
  ⟨.directory [("d", .directory [("b.md", broken)]),
    ("w", .directory [("a.md", broken), ("docs", .link ⟨"/", ["d"]⟩)])], ["w"]⟩

theorem leadsBy_aliasedDisk : aliasedDisk.LeadsBy IsPathName :=
  .of_tree (by decide) rfl (by decide)

theorem findFiles_aliasedDisk :
    findFiles aliasedDisk ⟨"", ["docs"]⟩ ["*.md"] [] = .ok [["d", "b.md"]] := by
  refine findFiles_eq_ok_iff.2
    ⟨["d"],
      [⟨[.wildcard (.ofString "*.md")], false⟩], by
        decide +kernel, by decide +kernel, ?_⟩
  have matched : [⟨[.wildcard (.ofString "*.md")], false⟩].flatMap
      (matchedFiles aliasedDisk ["d"]
        (([] : List String).map normalizePattern)) = [["b.md"]] := by
    decide +kernel
  rw [matched, eraseDups_of_nodup (List.nodup_singleton _),
    List.mergeSort_singleton]
  rfl

theorem read_aliasedDisk {path : Path}
    (member : path ∈ [⟨"", ["a.md"]⟩, ⟨"/", ["d", "b.md"]⟩]) :
    aliasedDisk.read path = .ok "```json\n[1\n```\n".toUTF8.data.toList := by
  simp only [List.mem_cons, List.not_mem_nil, or_false] at member
  rcases member with rfl | rfl <;> decide +kernel

/-- The root is a relative path that leads through a link. One file lies outside
of it, the other one is found below it. -/
theorem recordedName_identifies_link :
    let root : Path := ⟨"", ["docs"]⟩
    let outside : Path := ⟨"", ["a.md"]⟩
    let inside : Path := ⟨"/", ["d", "b.md"]⟩
    aliasedDisk.LeadsBy IsPathName ∧ aliasedDisk.resolve root = .ok ["d"] ∧
      recordedName aliasedDisk root outside = .ok "../w/a.md" ∧
      Path.descend [] ((Path.mk "/" ["d"]).join (.ofString "../w/a.md")).parts =
        ["w", "a.md"] ∧
      recordedName aliasedDisk root outside ≠
        recordedName aliasedDisk root inside ∧
      (∃ after id events found,
        runChecks .standard aliasedDisk .inTurn root 1
          [outside, inside] none .empty = (after, .ok (id, events)) ∧
        checkFile (.call .standard 2) aliasedDisk outside = .ok found ∧
        found ≠ [] ∧ (after.get id).errorsByPath.lookup "../w/a.md" =
          some (found.map Finding.error)) ∧
      (aliasedDisk.follow [] [] (aliasedDisk.fromRoot root)).complete ∧
      findFiles aliasedDisk root ["*.md"] [] = .ok [["d", "b.md"]] ∧
      aliasedDisk.IsDirect ["d"] ["b.md"] ∧
      recordedName aliasedDisk root inside = .ok "b.md" := by
  intro root outside inside
  have rooted : aliasedDisk.resolve root = .ok ["d"] := by decide +kernel
  have resolved : aliasedDisk.resolve outside = .ok ["w", "a.md"] := by
    decide +kernel
  have resolved' : aliasedDisk.resolve inside = .ok ["d", "b.md"] := by
    decide +kernel
  have named : ∀ path ∈ [outside, inside],
      ∀ name ∈ path.parts, IsPathName name := by decide
  have complete :
      (aliasedDisk.follow [] [] (aliasedDisk.fromRoot root)).complete := by
        decide +kernel
  have direct : aliasedDisk.IsDirect ["d"] ["b.md"] :=
    .cons (by decide) (by rintro target ⟨⟩) (.nil _)
  have under : recordedName aliasedDisk root outside = .ok "../w/a.md" := by
    decide +kernel
  rcases recordedName_identifies leadsBy_aliasedDisk rooted with
    ⟨identifies, keeps, agrees⟩
  rcases identifies outside ["w", "a.md"]
    (named outside (.head _)) resolved with ⟨back, apart⟩
  have differs : recordedName aliasedDisk root outside ≠
      recordedName aliasedDisk root inside :=
    fun same =>
      absurd
        ((apart inside ["d", "b.md"] (named inside (.tail _ (.head _)))
          resolved').1 same) (by decide)
  refine ⟨leadsBy_aliasedDisk, rooted, under, ?_, differs, ?_, complete,
    findFiles_aliasedDisk, direct,
    (agrees complete ["*.md"] [] _ findFiles_aliasedDisk ["b.md"]
      (.head _) direct).1⟩
  · rcases back with ⟨key, recorded, leads⟩
    rw [under, Except.ok.injEq] at recorded
    rw [recorded, leads]
  · have room : 14 ≤ (Stack.standard.call 2).frames := by decide
    have readable : ∀ path ∈ [outside, inside], IsReadable aliasedDisk path :=
      fun path member => (checkFile_of_bracket room (read_aliasedDisk member)).1
    have fresh : ∀ id ∈ (none : Option SummaryId), Summaries.empty.Holds id :=
      fun id absent => absurd absent (Option.not_mem_none id)
    rcases exists_given .standard aliasedDisk root fresh with
      ⟨id, opened, -, -, same⟩
    rcases runChecks_of_rooted .standard readable
      (fun _ => ⟨_, rooted⟩) .inTurn 1 id opened with ⟨events, ran⟩
    have run := (same .inTurn 1 [outside, inside]).trans ran
    rcases keeps .standard .inTurn 1 [outside, inside] none .empty _ id events
      named fresh run with ⟨all, -⟩
    rcases all outside (.head _) with ⟨key, found, recorded, checked, kept⟩
    rw [under, Except.ok.injEq] at recorded
    have some := found_ne_nil_of_bracket room
        (read_aliasedDisk (.head _)) checked
    exact ⟨_, id, events, found, run, checked, some, recorded ▸ kept some⟩

end Check
end FencedJson
