import FencedJson.Proofs.Files.Discovery
import FencedJson.Proofs.Files.Enumeration
import Mathlib.Data.List.Sort
import Mathlib.Data.String.Basic

/-! # What patterns include

Where there are no links, the files that are found can be told from their names
alone: they are those whose names fit those of some pattern one by one. They
come in order, each once, no matter in which order the patterns stand or
directories list what they hold.
-/

namespace FencedJson

open GlobPart

/-! ## The names of a pattern -/

/-- A relative pattern that does not go up. It has names, and two stars are a
name of their own wherever they stand. -/
structure IsDownward (pattern : String) : Prop where
  relative : (Path.ofString pattern).isAbsolute = false
  named : (Path.ofString pattern).parts ≠ []
  down : ".." ∉ (Path.ofString pattern).parts
  whole : ∀ part ∈ (Path.ofString pattern).parts,
    part = "**" ∨ occursIn ['*', '*'] part.toList = false

/-- The names of a path fit those of a pattern one by one, with a run of any
names for each two stars. -/
inductive AlignsNames : (parts names : List String) → Prop
  | nil : AlignsNames [] []
  | single {part name : String} {parts names : List String}
      (plain : part ≠ "**")
      (accepted : (Pattern.ofString part).accepts name.toList)
      (behind : AlignsNames parts names) :
      AlignsNames (part :: parts) (name :: names)
  | run {parts back : List String} (front : List String)
      (behind : AlignsNames parts back) :
      AlignsNames ("**" :: parts) (front ++ back)

/-- The names lead to files that a pattern includes. No file is included by two
stars at the end, or with a slash there. -/
structure Includes (pattern : String) (names : List String) : Prop where
  aligned : AlignsNames (Path.ofString pattern).parts names
  last : (Path.ofString pattern).parts.getLast? ≠ some "**"
  unslashed : pattern.toList.getLast? ≠ some '/'

theorem alignsNames_iff {texts names : List String} {parts : List GlobPart}
    (parsed : texts.mapM ofName = .ok parts) : AlignsNames texts names ↔
    Align 0 parts names := by
  rw [mapM_eq_ok_iff] at parsed
  constructor
  · intro aligned
    induction aligned generalizing parts with
    | nil =>
        cases parsed
        exact .nil
    | single plain accepted _ induction =>
        cases parsed with
        | cons first later =>
            rcases ofName_spec first with ⟨-, stars⟩ | ⟨-, -, fits⟩
            · exact absurd stars plain
            · exact .single ((fits _).2 accepted) (induction later)
    | run front _ induction =>
        cases parsed with
        | cons first later =>
            rcases ofName_spec first with ⟨rfl, -⟩ | ⟨-, other, -⟩
            · exact .run front (Nat.zero_le _) (induction later)
            · exact absurd rfl other
  · intro align
    induction align generalizing texts with
    | nil =>
        cases parsed
        exact .nil
    | single fits _ induction =>
        cases parsed with
        | cons first later =>
            rcases ofName_spec first with ⟨rfl, -⟩ | ⟨-, plain, accepted⟩
            · cases fits
            · exact .single plain ((accepted _).1 fits) (induction later)
    | run front _ _ induction =>
        cases parsed with
        | cons first later =>
            rcases ofName_spec first with ⟨-, rfl⟩ | ⟨other, -⟩
            · exact .run front (induction later)
            · exact absurd rfl other

theorem getLast?_eq_directories_iff {texts : List String}
    {parts : List GlobPart} (parsed : texts.mapM ofName = .ok parts) :
    parts.getLast? = some .directories ↔ texts.getLast? = some "**" := by
  rw [mapM_eq_ok_iff] at parsed
  induction parsed with
  | nil => simp
  | @cons text part texts parts first later induction =>
      cases later with
      | nil =>
          rcases ofName_spec first with ⟨rfl, rfl⟩ | ⟨other, plain, -⟩
          · simp
          · simp [other, plain]
      | cons => simpa only [List.getLast?_cons_cons] using induction

private theorem exists_ofName {text : String}
    (whole : text = "**" ∨ occursIn ['*', '*'] text.toList = false) :
    ∃ part, ofName text = .ok part := by
  unfold ofName
  split
  · exact ⟨_, rfl⟩
  · next other =>
      rw [if_neg (by simpa [other] using whole)]
      split <;> exact ⟨_, rfl⟩

theorem IsDownward.exists_glob {pattern : String}
    (downward : IsDownward pattern) :
    ∃ glob, Glob.ofString pattern = .ok glob := by
  have filled : pattern ≠ "" := by
    rintro rfl
    exact downward.named rfl
  rcases exists_mapM fun part member =>
    exists_ofName (downward.whole part member) with ⟨parts, parsed⟩
  unfold Glob.ofString
  dsimp only
  rw [if_neg filled, if_neg (by simp [downward.relative]), parsed]
  cases parts with
  | nil =>
      rw [mapM_eq_ok_iff, List.forall₂_nil_right_iff] at parsed
      exact absurd parsed downward.named
  | cons part rest => exact ⟨_, rfl⟩

/-! ## The walk -/

namespace Glob

variable {disk : Disk} {base : List String}

theorem mem_select_single {part : GlobPart} {rest : List GlobPart}
    {below path : List String} {name : String} {found : FileTree}
    (fits : part.fits name) (here : disk.find? (base ++ below) = some found)
    (listed : name ∈ found.entries.map Prod.fst)
    (held : disk.holds (base ++ (below ++ [name])))
    (goesOn : rest ≠ [] → disk.isDirectory (base ++ (below ++ [name])))
    (behind : path ∈ select disk base false rest (below ++ [name])) :
    path ∈ select disk base false (part :: rest) below := by
  have isOpen :
      (if (rest.isEmpty && !false) = true then disk.holds
        (base ++ (below ++ [name]))
      else disk.isDirectory (base ++ (below ++ [name]))) = true := by
    split
    · exact held
    · next more => exact goesOn (by simpa using more)
  cases part with
  | name text =>
      cases of_decide_eq_true fits
      rw [select]
      exact List.mem_ite_nil_right.2 ⟨isOpen, behind⟩
  | wildcard pattern =>
      rw [select, here]
      exact List.mem_flatMap.2
        ⟨name, List.mem_filter.2 ⟨List.mem_filter.2 ⟨listed, fits⟩,
          Bool.or_eq_true_iff.2 (.inr isOpen)⟩, behind⟩
  | directories => cases fits

theorem mem_select_run {rest : List GlobPart} {below path way : List String}
    {found : FileTree} (here : disk.find? (base ++ below) = some found)
    (listed : way ∈ found.directories)
    (behind : path ∈ select disk base false rest (below ++ way)) :
    path ∈ select disk base false (.directories :: rest) below := by
  rw [select, here]
  exact List.mem_flatMap.2 ⟨way, listed, behind⟩

end Glob

theorem ne_nil_of_align {parts : List GlobPart} {names : List String}
    (align : Align 0 parts names) (filled : parts ≠ [])
    (last : parts.getLast? ≠ some .directories) : names ≠ [] := by
  induction align with
  | nil => exact absurd rfl filled
  | single => exact List.cons_ne_nil _ _
  | @run rest back front _ _ induction =>
      cases rest with
      | nil => exact absurd rfl last
      | cons next rest =>
          have more := induction (List.cons_ne_nil _ _) (by simpa using last)
          exact List.append_ne_nil_of_right_ne_nil front more

theorem getLast?_ne_of_cons {part final : GlobPart} {rest : List GlobPart}
    (last : (part :: rest).getLast? ≠ some final) :
    rest.getLast? ≠ some final := by
  cases rest with
  | nil => exact nofun
  | cons next rest => exact last

section

variable {disk : Disk} {base : List String}

theorem mem_select_of_align (unlinked : disk.IsUnlinked) {parts : List GlobPart}
    {below names : List String} {content : List UInt8}
    (align : Align 0 parts names) (last : parts.getLast? ≠ some .directories)
    (dotless : ".." ∉ base ++ (below ++ names))
    (stands : disk.tree.at? (base ++ (below ++ names)) = some (.file content)) :
    below ++ names ∈ Glob.select disk base false parts below := by
  induction align generalizing below with
  | nil =>
      rw [List.append_nil]
      exact List.mem_singleton_self _
  | @single part rest name names fits behind induction =>
      have further : rest ≠ [] → names ≠ [] := fun more =>
        ne_nil_of_align behind more (getLast?_ne_of_cons last)
      have whole : base ++ (below ++ name :: names) = base ++ below ++
          name :: names :=
        (List.append_assoc ..).symm
      rcases unlinked.exists_listed (whole ▸ dotless) (whole ▸ stands) with
        ⟨entries, here, listed, held, goesOn⟩
      rw [List.append_assoc] at held goesOn
      rw [List.append_cons] at dotless stands ⊢
      exact Glob.mem_select_single fits here listed held
        (fun more => goesOn (further more))
        (induction (getLast?_ne_of_cons last) dotless stands)
  | @run rest back front _ behind induction =>
      -- A run is never the last part, so there is a name left behind the
      -- directory it ends in.
      have filled : rest ≠ [] := by
        rintro rfl
        exact last rfl
      have more := ne_nil_of_align behind filled (getLast?_ne_of_cons last)
      have whole : base ++ (below ++ (front ++ back)) = base ++ below ++
          (front ++ back) :=
        (List.append_assoc ..).symm
      rcases unlinked.exists_directories (whole ▸ dotless)
        (whole ▸ stands) more with ⟨inner, here, listed⟩
      rw [← List.append_assoc below] at dotless stands ⊢
      exact Glob.mem_select_run here listed
        (induction (getLast?_ne_of_cons last) dotless stands)

theorem mem_paths_iff (proper : disk.tree.isProper) (unlinked : disk.IsUnlinked)
    (dotless : ".." ∉ base) {glob : Glob} (filled : glob.parts ≠ [])
    (down : .name ".." ∉ glob.parts) {path : List String} :
    path ∈ glob.paths disk base ∧ disk.isFile (base ++ path) ↔
      (∃ content, disk.tree.at? (base ++ path) = some (.file content)) ∧
        glob.trailing = false ∧ glob.parts.getLast? ≠ some .directories ∧
        Align 0 glob.parts path := by
  constructor
  · rintro ⟨selected, file⟩
    have other := Disk.not_isDirectory_of_isFile file
    rcases List.mem_ite_nil_right.1 selected with ⟨stands, selected⟩
    rw [← List.append_nil base] at stands
    have direct : disk.IsDirect [] (base ++ path) := by
      refine unlinked.isDirect_iff.2 ?_
      rw [List.mem_append, not_or]
      exact ⟨dotless, Glob.dotless_of_mem_select proper down
        List.not_mem_nil selected⟩
    have unended :
        ¬ (glob.trailing ∨ glob.parts.getLast? = some .directories) :=
          fun ends =>
      other (Glob.isDirectory_of_mem_select proper ends stands selected)
    rw [not_or, Bool.not_eq_true] at unended
    rcases Glob.align_of_mem_select proper (.inl rfl) stands selected with
      ⟨names, rfl, align⟩
    exact ⟨(Disk.isFile_iff_of_isDirect direct).1 file, unended.1,
      unended.2, align⟩
  · rintro ⟨⟨content, stands⟩, unslashed, last, align⟩
    have dots := FileTree.dotless_of_at? proper stands
    have direct {front back : List String}
        (whole : front ++ back = base ++ path) :
        disk.IsDirect [] front :=
      unlinked.isDirect_iff.2 fun inside =>
        dots (whole ▸ List.mem_append_left _ inside)
    rcases FileTree.exists_entries_of_at?_append stands
      (ne_nil_of_align align filled last) with ⟨entries, directory, -⟩
    have begins := (Disk.isDirectory_iff_of_isDirect (direct rfl)).2
        ⟨entries, directory⟩
    have selected : [] ++ path ∈ Glob.select disk base false glob.parts [] :=
      mem_select_of_align unlinked align last dots stands
    refine ⟨List.mem_ite_nil_right.2 ⟨begins, ?_⟩,
      (Disk.isFile_iff_of_isDirect (direct (List.append_nil _))).2
        ⟨content, stands⟩⟩
    rw [unslashed]
    exact selected

end

theorem includes_iff {pattern : String} {glob : Glob}
    (parsed : Glob.ofString pattern = .ok glob) {names : List String} :
    Includes pattern names ↔ glob.trailing = false ∧
    glob.parts.getLast? ≠ some .directories ∧ Align 0 glob.parts names := by
  rcases parts_of_ofString parsed with ⟨read, slash⟩
  rw [slash, ne_eq, getLast?_eq_directories_iff read, ← alignsNames_iff read,
    beq_eq_false_iff_ne]
  exact ⟨fun included => ⟨included.unslashed, included.last, included.aligned⟩,
    fun ⟨unslashed, last, aligned⟩ => ⟨aligned, last, unslashed⟩⟩

theorem down_of_ofString {pattern : String} {glob : Glob}
    (parsed : Glob.ofString pattern = .ok glob)
    (down : ".." ∉ (Path.ofString pattern).parts) :
    .name ".." ∉ glob.parts := by
  intro member
  rcases (mem_iff_of_mapM (parts_of_ofString parsed).1).1 member with
    ⟨text, listed, made⟩
  unfold ofName at made
  split at made
  · cases made
  · split at made
    · cases made
    · split at made <;> cases made
      exact down listed

theorem IsDownward.parts_ne_nil {pattern : String} {glob : Glob}
    (downward : IsDownward pattern)
    (parsed : Glob.ofString pattern = .ok glob) : glob.parts ≠ [] := by
  intro none
  have read := (parts_of_ofString parsed).1
  rw [none, mapM_eq_ok_iff, List.forall₂_nil_right_iff] at read
  exact downward.named read

/-! ## Files that are found -/

theorem mem_findFiles_iff {disk : Disk} {root : Path}
    {includes excludes base : List String} {files : List (List String)}
    (found : findFiles disk root includes excludes = .ok files)
    (resolved : disk.resolve root = .ok base) {file : List String} :
    file ∈ files ↔ ∃ path, file = base ++ path ∧
      (∃ pattern ∈ includes, ∃ glob, Glob.ofString
        (normalizePattern pattern) = .ok glob ∧ path ∈ glob.paths disk base) ∧
      disk.isFile file ∧ ¬ isExcluded (excludes.map normalizePattern)
      (Path.joinNames path) := by
  rcases findFiles_eq_ok_iff.1 found with ⟨_, globs, again, read, rfl⟩
  cases resolved.symm.trans again
  simp only [List.mem_map, List.mem_mergeSort, List.mem_eraseDups,
    List.mem_flatMap, matchedFiles, List.mem_filter, mem_iff_of_mapM read,
    Bool.and_eq_true, Bool.not_eq_true', Bool.not_eq_true]
  constructor
  · rintro ⟨path, ⟨glob, ⟨pattern, listed, parsed⟩, selected, stands, kept⟩,
      rfl⟩
    exact ⟨path, rfl, ⟨pattern, listed, glob, parsed, selected⟩, stands, kept⟩
  · rintro ⟨path, rfl, ⟨pattern, listed, glob, parsed, selected⟩, stands, kept⟩
    exact ⟨path, ⟨glob, ⟨pattern, listed, parsed⟩, selected, stands, kept⟩, rfl⟩

theorem exists_findFiles {disk : Disk} {root : Path}
    {includes base : List String} (resolved : disk.resolve root = .ok base)
    (downward : ∀ pattern ∈ includes, IsDownward (normalizePattern pattern))
    (excludes : List String) : ∃ files, findFiles disk root includes excludes =
      .ok files := by
  rcases exists_mapM fun pattern member =>
    (downward pattern member).exists_glob with ⟨globs, read⟩
  exact ⟨_, findFiles_eq_ok_iff.2 ⟨base, globs, resolved, read, rfl⟩⟩

theorem namesBefore_iff {first second : List String} :
    namesBefore first second ↔ ¬ second < first := by
  fun_induction namesBefore first second with
  | case1 | case2 => simp
  | case3 name left right induction =>
      rw [induction, List.cons_lt_cons_iff]
      simp
  | case4 name left name' right differs =>
      rw [decide_eq_true_eq, List.cons_lt_cons_iff, not_or, not_lt]
      exact ⟨fun before => ⟨before.le, fun same => differs same.1.symm⟩,
        fun ⟨notAfter, _⟩ => lt_of_le_of_ne notAfter differs⟩

private theorem pairwise_lt_mergeSort {names : List (List String)}
    (unique : names.Nodup) :
    (names.mergeSort namesBefore).Pairwise (· < ·) := by
  have sorted : (names.mergeSort namesBefore).Pairwise fun first second =>
      namesBefore first second :=
    List.pairwise_mergeSort
      (fun first second
        third => by simpa only [namesBefore_iff, not_lt] using le_trans)
      (fun first second => by
        simpa only [Bool.or_eq_true, namesBefore_iff, not_lt] using le_total
          first second) names
  have distinct : (names.mergeSort namesBefore).Nodup :=
    (List.mergeSort_perm ..).nodup_iff.2 unique
  refine (sorted.and distinct).imp ?_
  rintro first second ⟨before, differs⟩
  exact lt_of_le_of_ne (not_lt.1 (namesBefore_iff.1 before)) differs

theorem pairwise_lt_of_findFiles {disk : Disk} {root : Path}
    {includes excludes : List String} {files : List (List String)}
    (found : findFiles disk root includes excludes = .ok files) :
    files.Pairwise (· < ·) := by
  rcases findFiles_eq_ok_iff.1 found with ⟨base, globs, -, -, rfl⟩
  exact List.pairwise_map.2
    ((pairwise_lt_mergeSort (nodup_eraseDups _)).imp List.append_left_lt)

theorem nodup_of_findFiles {disk : Disk} {root : Path}
    {includes excludes : List String} {files : List (List String)}
    (found : findFiles disk root includes excludes = .ok files) :
    files.Nodup :=
  (pairwise_lt_of_findFiles found).imp ne_of_lt

theorem findFiles_of_matched {disk : Disk} {root : Path}
    {includes excludes : List String} {globs : List Glob}
    {files : List (List String)} (rooted : disk.resolve root = .ok [])
    (read : (includes.mapM fun text => Glob.ofString (normalizePattern text)) =
      .ok globs)
      (matched :
        globs.flatMap (matchedFiles disk [] (excludes.map normalizePattern)) =
          files)
    (unique : files.Nodup) (ordered : files.Pairwise fun first second =>
      namesBefore first second) :
    findFiles disk root includes excludes = .ok files := by
  refine findFiles_eq_ok_iff.2 ⟨[], globs, rooted, read, ?_⟩
  rw [matched, eraseDups_of_nodup unique, List.mergeSort_of_pairwise ordered]
  exact (List.map_id files).symm

section

variable {disk : Disk} {root : Path} {includes excludes : List String}

theorem mem_findFiles_iff_includes (proper : disk.tree.isProper)
    (unlinked : disk.IsUnlinked)
    (downward : ∀ pattern ∈ includes, IsDownward (normalizePattern pattern))
    {base : List String} (resolved : disk.resolve root = .ok base)
    {files : List (List String)}
    (found : findFiles disk root includes excludes = .ok files)
    {file : List String} :
    file ∈ files ↔ ∃ names, file = base ++ names ∧
      (∃ content, disk.tree.at? file = some (.file content)) ∧
      (∃ pattern ∈ includes, Includes (normalizePattern pattern) names) ∧
      ¬ isExcluded (excludes.map normalizePattern) (Path.joinNames names) := by
  have dotless := Disk.dotless_of_resolve resolved
  have told {pattern : String} (listed : pattern ∈ includes)
      {names : List String} :
      (∃ glob, Glob.ofString (normalizePattern pattern) = .ok glob ∧
        names ∈ glob.paths disk base) ∧ disk.isFile (base ++ names) ↔
      (∃ content, disk.tree.at? (base ++ names) = some (.file content)) ∧
        Includes (normalizePattern pattern) names := by
    rcases (downward pattern listed).exists_glob with ⟨glob, parsed⟩
    have filled := (downward pattern listed).parts_ne_nil parsed
    have down := down_of_ofString parsed (downward pattern listed).down
    rw [includes_iff parsed, ← mem_paths_iff proper unlinked
      dotless filled down]
    simp [parsed]
  rw [mem_findFiles_iff found resolved]
  refine exists_congr fun names => and_congr_right ?_
  rintro rfl
  constructor
  · rintro ⟨⟨pattern, listed, selected⟩, file, kept⟩
    rcases (told listed).1 ⟨selected, file⟩ with ⟨stands, included⟩
    exact ⟨stands, ⟨pattern, listed, included⟩, kept⟩
  · rintro ⟨stands, ⟨pattern, listed, included⟩, kept⟩
    rcases (told listed).2 ⟨stands, included⟩ with ⟨selected, file⟩
    exact ⟨⟨pattern, listed, selected⟩, file, kept⟩

theorem isExcluded_mono {fewer more : List String} (within : fewer ⊆ more)
    {relative : String} (excluded : isExcluded fewer relative) :
    isExcluded more relative := by
  rcases List.any_eq_true.1 excluded with ⟨pattern, member, hit⟩
  exact List.any_eq_true.2 ⟨pattern, within member, hit⟩

private theorem isExcluded_congr {excludes' : List String}
    (same : ∀ pattern, pattern ∈ excludes' ↔ pattern ∈ excludes)
    (relative : String) :
    isExcluded (excludes'.map normalizePattern) relative ↔
      isExcluded (excludes.map normalizePattern) relative :=
  ⟨isExcluded_mono (List.map_subset _ fun pattern => (same pattern).1),
    isExcluded_mono (List.map_subset _ fun pattern => (same pattern).2)⟩

/-- The same patterns in another order find the same files in directories that
list what they hold in another order. -/
theorem findFiles_of_reorders (proper : disk.tree.isProper)
    (unlinked : disk.IsUnlinked)
    (downward : ∀ pattern ∈ includes, IsDownward (normalizePattern pattern))
    {files : List (List String)}
    (found : findFiles disk root includes excludes = .ok files)
    {includes' excludes' : List String} {tree : FileTree}
    (sameIncludes : ∀ pattern, pattern ∈ includes' ↔ pattern ∈ includes)
    (sameExcludes : ∀ pattern, pattern ∈ excludes' ↔ pattern ∈ excludes)
    (reorders : disk.tree.Reorders tree) :
    findFiles { disk with tree } root includes' excludes' = .ok files := by
  have proper' := reorders.isProper proper
  have unlinked' := unlinked.of_reorders proper reorders
  have downward' : ∀ pattern ∈ includes', IsDownward
      (normalizePattern pattern) :=
    fun pattern listed => downward pattern ((sameIncludes pattern).1 listed)
  have resolved' : Disk.resolve { disk with tree } root =
      .ok (Path.descend [] (disk.fromRoot root)) := unlinked'.resolve_eq root
  rcases exists_findFiles resolved' downward' excludes' with ⟨files', found'⟩
  have same : files' = files := by
    refine (pairwise_lt_of_findFiles found').sortedLT.eq_of_mem_iff
      (pairwise_lt_of_findFiles found).sortedLT fun file => ?_
    rw [mem_findFiles_iff_includes proper' unlinked' downward' resolved' found',
      mem_findFiles_iff_includes proper unlinked downward
        (unlinked.resolve_eq root) found]
    have kept (content : List UInt8) :
        disk.tree.at? file = some (.file content) ↔
        tree.at? file = some (.file content) :=
          reorders.at?_eq_some_iff proper rfl
    simp only [sameIncludes, isExcluded_congr sameExcludes, kept]
  rw [found', same]

/-- Without links and with patterns that lead downward, the files are found that
some pattern includes by their names and none excludes: in the order of the
names, each once. Neither the order of patterns, nor their repetition, nor that
of directories matters; more includes find no fewer files, and more excludes no
other ones. -/
theorem findFiles_by_names (proper : disk.tree.isProper)
    (unlinked : disk.IsUnlinked)
    (downward : ∀ pattern ∈ includes, IsDownward (normalizePattern pattern)) :
    ∃ base files, disk.resolve root = .ok base ∧
      findFiles disk root includes excludes = .ok files ∧
      files.Pairwise (· < ·) ∧
      (∀ file, file ∈ files ↔ ∃ names, file = base ++ names ∧
        (∃ content, disk.tree.at? file = some (.file content)) ∧
        (∃ pattern ∈ includes, Includes (normalizePattern pattern) names) ∧
        ¬ isExcluded (excludes.map normalizePattern) (Path.joinNames names)) ∧
      (∀ includes' excludes' tree, (∀ pattern, pattern ∈ includes' ↔
        pattern ∈ includes) →
        (∀ pattern, pattern ∈ excludes' ↔ pattern ∈ excludes) →
        disk.tree.Reorders tree →
          findFiles { disk with tree } root includes' excludes' = .ok files) ∧
      (∀ includes', includes ⊆ includes' →
        (∀ pattern ∈ includes', IsDownward (normalizePattern pattern)) →
          ∃ more, findFiles disk root includes' excludes = .ok more ∧
          files ⊆ more) ∧
      (∀ excludes', excludes ⊆ excludes' →
        ∃ fewer, findFiles disk root includes excludes' = .ok fewer ∧
        fewer ⊆ files) := by
  have resolved := unlinked.resolve_eq root
  rcases exists_findFiles resolved downward excludes with ⟨files, found⟩
  have members {file : List String} : file ∈ files ↔ _ :=
    mem_findFiles_iff_includes proper unlinked downward resolved found
  refine ⟨_, files, resolved, found, pairwise_lt_of_findFiles found, fun file =>
    members, ?_, ?_, ?_⟩
  · intro includes' excludes' tree sameIncludes sameExcludes reorders
    exact findFiles_of_reorders proper unlinked downward found sameIncludes
      sameExcludes reorders
  · intro includes' within downward'
    rcases exists_findFiles resolved downward' excludes with ⟨more, found'⟩
    refine ⟨more, found', fun file member => ?_⟩
    rcases members.1 member with
      ⟨names, whole, stands, ⟨pattern, listed, included⟩, kept⟩
    exact (mem_findFiles_iff_includes proper unlinked downward'
      resolved found').2 ⟨names, whole, stands,
      ⟨pattern, within listed, included⟩, kept⟩
  · intro excludes' within
    rcases exists_findFiles resolved downward excludes' with ⟨fewer, found'⟩
    refine ⟨fewer, found', fun file member => ?_⟩
    rcases (mem_findFiles_iff_includes proper unlinked downward resolved
      found').1 member with ⟨names, whole, stands, included, kept⟩
    exact members.2 ⟨names, whole, stands, included,
      fun excluded =>
        kept (isExcluded_mono (List.map_subset _ within) excluded)⟩

end

/-- One file is found along two patterns, in one of which two stars stand for no
directory. -/
theorem findFiles_by_names_twice :
    let disk : Disk :=
      ⟨.directory
        [("docs", .directory [("b.md", .file []), ("a.md", .file [])])], []⟩
    let includes := ["./**/*.md", "docs/**/a.md"]
    disk.tree.isProper ∧ disk.IsUnlinked ∧
      (∀ pattern ∈ includes, IsDownward (normalizePattern pattern)) ∧
      ∃ files, findFiles disk ⟨"", []⟩ includes ["docs/b*"] = .ok files ∧
        files.Pairwise (· < ·) ∧ ["docs", "a.md"] ∈ files ∧
        ["docs", "b.md"] ∉ files := by
  intro disk includes
  have proper : disk.tree.isProper := by decide +kernel
  have unlinked : disk.IsUnlinked := .of_tree rfl (by decide +kernel)
  have downward : ∀ pattern ∈ includes, IsDownward
      (normalizePattern pattern) := by
    intro pattern listed
    rcases List.mem_cons.1 listed with rfl | listed
    · exact
        ⟨by decide +kernel, by
          decide +kernel, by decide +kernel, by decide +kernel⟩
    · rcases List.mem_singleton.1 listed with rfl
      exact
        ⟨by decide +kernel, by
          decide +kernel, by decide +kernel, by decide +kernel⟩
  have told : ∃ base files, disk.resolve ⟨"", []⟩ = .ok base ∧
      findFiles disk ⟨"", []⟩ includes ["docs/b*"] = .ok files ∧ _ :=
    findFiles_by_names proper unlinked downward
  rcases told with ⟨base, files, resolved, found, ordered, members, -⟩
  have root : disk.resolve ⟨"", []⟩ = .ok [] := by decide +kernel
  cases root.symm.trans resolved
  have plain : normalizePattern "docs/**/a.md" = "docs/**/a.md" := by
    decide +kernel
  have parts : (Path.ofString "docs/**/a.md").parts =
      ["docs", "**", "a.md"] := by decide +kernel
  have behind : AlignsNames ["**", "a.md"] ["a.md"] :=
    .run [] (.single (by decide) (by decide +kernel) .nil)
  have aligned : AlignsNames ["docs", "**", "a.md"] ["docs", "a.md"] :=
    .single (by decide) (by decide +kernel) behind
  have included : Includes (normalizePattern "docs/**/a.md")
      ["docs", "a.md"] := by
    rw [plain]
    exact ⟨parts ▸ aligned, by decide +kernel, by decide +kernel⟩
  refine ⟨proper, unlinked, downward, files, found, ordered, ?_, ?_⟩
  · exact (members _).2 ⟨["docs", "a.md"], rfl, ⟨[], rfl⟩,
      ⟨_, .tail _ (.head _), included⟩, by decide +kernel⟩
  · intro member
    rcases (members _).1 member with ⟨names, rfl, -, -, kept⟩
    exact kept (by decide +kernel)

end FencedJson
