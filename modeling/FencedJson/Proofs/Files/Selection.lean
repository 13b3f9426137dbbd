import FencedJson.Files.Glob
import FencedJson.Proofs.Entries
import FencedJson.Proofs.Files.Links
import FencedJson.Proofs.Files.Wildcard

/-! # What globs select

A glob selects paths whose names fit its parts one by one, with a run of
directories for each part of two stars. Where no such run is empty, the text of
the glob also matches the text of the path as a whole.
-/

namespace FencedJson

namespace FileTree

mutual

/-- A directory has no two entries of one name, and none by the name of two
dots. -/
def isProper : FileTree → Bool
  | directory entries => (entries.map (·.1)).Nodup && properEntries entries
  | _ => true

def properEntries : List (String × FileTree) → Bool
  | [] => true
  | (name, inner) :: rest => name ≠ ".." && inner.isProper && properEntries rest

end

theorem properEntries_iff {entries : List (String × FileTree)} :
    properEntries entries ↔ ∀ entry ∈ entries, entry.1 ≠ ".." ∧
    entry.2.isProper := by
  induction entries with
  | nil => simp [properEntries]
  | cons entry rest induction =>
      rcases entry with ⟨name, inner⟩
      simp [properEntries, induction, and_assoc]

theorem mem_directoriesOf {entries : List (String × FileTree)}
    {way : List String} :
    way ∈ directoriesOf entries ↔
      ∃ name inner behind, (name, inner) ∈ entries ∧
      behind ∈ inner.directories ∧ way = name :: behind := by
  induction entries with
  | nil => simp [directoriesOf]
  | cons entry rest induction =>
      rcases entry with ⟨name, inner⟩
      simp only [directoriesOf, List.mem_append, List.mem_map, induction,
        List.mem_cons]
      constructor
      · rintro (⟨behind, found, rfl⟩ | ⟨name', inner', behind,
          member, found, rfl⟩)
        · exact ⟨name, inner, behind, .inl rfl, found, rfl⟩
        · exact ⟨name', inner', behind, .inr member, found, rfl⟩
      · rintro ⟨name', inner', behind, same | member, found, rfl⟩
        · cases same
          exact .inl ⟨behind, found, rfl⟩
        · exact .inr ⟨name', inner', behind, member, found, rfl⟩

theorem isProper_of_child? {tree inner : FileTree} {name : String}
    (proper : tree.isProper) (found : tree.child? name = some inner) :
    inner.isProper := by
  cases tree with
  | file | link => cases found
  | directory entries =>
      rw [isProper, Bool.and_eq_true] at proper
      exact (properEntries_iff.1 proper.2 _ (mem_of_lookup found)).2

theorem isProper_of_at? {tree inner : FileTree} {names : List String}
    (proper : tree.isProper) (found : tree.at? names = some inner) :
    inner.isProper := by
  induction names generalizing tree with
  | nil =>
      cases found
      exact proper
  | cons name rest induction =>
      rcases Option.bind_eq_some_iff.1 found with ⟨next, child, behind⟩
      exact induction (isProper_of_child? proper child) behind

theorem ne_dots_of_mem_entries {tree : FileTree} {name : String}
    (proper : tree.isProper) (listed : name ∈ tree.entries.map Prod.fst) :
    ".." ≠ name := by
  cases tree with
  | file | link => cases listed
  | directory entries =>
      rw [isProper, Bool.and_eq_true] at proper
      rcases List.mem_map.1 listed with ⟨entry, member, rfl⟩
      exact (properEntries_iff.1 proper.2 entry member).1.symm

theorem dotless_of_at? {tree found : FileTree} {names : List String}
    (proper : tree.isProper) (stands : tree.at? names = some found) :
    ".." ∉ names := by
  induction names generalizing tree with
  | nil => exact List.not_mem_nil
  | cons name rest induction =>
      rcases Option.bind_eq_some_iff.1 stands with ⟨inner, child, behind⟩
      have listed : name ∈ tree.entries.map Prod.fst :=
        List.mem_map_of_mem (mem_of_lookup child)
      rw [List.mem_cons, not_or]
      exact ⟨ne_dots_of_mem_entries proper listed,
        induction (isProper_of_child? proper child) behind⟩

theorem dotless_of_mem_directories {tree : FileTree} {way : List String}
    (proper : tree.isProper) (listed : way ∈ tree.directories) :
    ".." ∉ way := by
  induction way generalizing tree with
  | nil => exact List.not_mem_nil
  | cons name behind induction =>
      cases tree with
      | file | link => cases listed
      | directory entries =>
          have further : name :: behind ∈ directoriesOf entries := by
            simpa [directories] using listed
          rcases mem_directoriesOf.1 further with
            ⟨_, inner, _, member, inside, same⟩
          cases same
          rw [isProper, Bool.and_eq_true] at proper
          rcases properEntries_iff.1 proper.2 _ member with ⟨named, properInner⟩
          rw [List.mem_cons, not_or]
          exact ⟨named.symm, induction properInner inside⟩

end FileTree

namespace Disk

variable {disk : Disk}

theorem walk_directories {base way : List String} {tree : FileTree}
    (proper : tree.isProper) (stands : disk.tree.at? base = some tree)
    (listed : way ∈ tree.directories) (budget : Nat) :
    disk.walk budget base way = .ok (base ++ way) ∧
      ∃ entries, disk.tree.at? (base ++ way) = some (.directory entries) := by
  induction way generalizing base tree with
  | nil =>
      cases tree with
      | directory entries =>
          rw [List.append_nil, walk]
          exact ⟨rfl, entries, stands⟩
      | file | link => cases listed
  | cons name behind induction =>
      cases tree with
      | file | link => cases listed
      | directory entries =>
          have further : name :: behind ∈ FileTree.directoriesOf entries := by
            simpa [FileTree.directories] using listed
          rcases FileTree.mem_directoriesOf.1 further with
            ⟨_, inner, _, member, inside, same⟩
          cases same
          rw [FileTree.isProper, Bool.and_eq_true, decide_eq_true_eq] at proper
          rcases proper with ⟨distinct, properInside⟩
          rcases FileTree.properEntries_iff.1 properInside _ member with
            ⟨named, properInner⟩
          have found := lookup_of_mem distinct member
          have here : disk.tree.at? (base ++ [name]) = some inner := by
            rw [FileTree.at?_append_singleton, stands]
            exact found
          rcases induction properInner here inside with ⟨walked, stop⟩
          rw [List.append_assoc] at walked stop
          have plain : ∀ target, inner ≠ .link target := by
            rintro target rfl
            cases inside
          rw [walk_of_plain stands named found plain]
          exact ⟨walked, stop⟩

theorem find?_eq_some_iff {parts : List String} {found : FileTree} :
    disk.find? parts = some found ↔
      ∃ names, disk.locate parts = .ok names ∧
      disk.tree.at? names = some found := by
  unfold find? find
  cases disk.locate parts with
  | error problem => simp [Except.toOption]
  | ok names =>
      cases stands : disk.tree.at? names <;> simp [Except.toOption, stands]

theorem isDirectory_of_listed {parts way : List String} {found : FileTree}
    (proper : disk.tree.isProper) (stands : disk.find? parts = some found)
    (listed : way ∈ found.directories) : disk.isDirectory (parts ++ way) := by
  rcases find?_eq_some_iff.1 stands with ⟨names, located, here⟩
  rcases leads_of_walk located with ⟨links, within, leads⟩
  rcases walk_directories (FileTree.isProper_of_at? proper here) here listed
    (linkLimit - links) with ⟨walked, entries, there⟩
  have relocated : disk.locate (parts ++ way) = .ok (names ++ way) :=
    (walk_append_of_leads leads within way).trans walked
  rw [isDirectory, find?_eq_some_iff.2 ⟨_, relocated, there⟩]
  rfl

theorem not_isDirectory_of_isFile {parts : List String}
    (file : disk.isFile parts) :
    ¬ disk.isDirectory parts := by
  unfold isFile at file
  unfold isDirectory
  cases found : disk.find? parts with
  | none => simp
  | some tree =>
      rw [found] at file
      cases tree with
      | file content => simp [FileTree.isDirectory]
      | link | directory => simp [FileTree.isFile] at file

end Disk

def GlobPart.fits : GlobPart → String → Bool
  | name text, found => found = text
  | wildcard pattern, found => pattern.accepts found.toList
  | directories, _ => false

/-- The names fit the parts one by one, with a run of so many names or more for
each part that stands for directories. -/
inductive GlobPart.Align (least : Nat) : List GlobPart → List String → Prop
  | nil : Align least [] []
  | single {part : GlobPart} {rest : List GlobPart} {name : String}
      {names : List String} (fits : part.fits name)
      (behind : Align least rest names) :
      Align least (part :: rest) (name :: names)
  | run {rest : List GlobPart} {back : List String} (front : List String)
      (enough : least ≤ front.length) (behind : Align least rest back) :
      Align least (.directories :: rest) (front ++ back)

namespace Glob

open GlobPart

variable {disk : Disk} {base : List String} {trailing : Bool}

theorem mem_select_cons {part : GlobPart} {rest : List GlobPart}
    {below path : List String}
    (selected : path ∈ select disk base trailing (part :: rest) below) :
    (∃ name, part.fits name ∧
      (part = .name name ∨ ∃ found, disk.find? (base ++ below) = some found ∧
        name ∈ found.entries.map (·.1)) ∧
      (rest ≠ [] ∨ trailing → disk.isDirectory (base ++ (below ++ [name]))) ∧
      path ∈ select disk base trailing rest (below ++ [name])) ∨
    (part = .directories ∧ ∃ found way, disk.find?
      (base ++ below) = some found ∧ way ∈ found.directories ∧
      path ∈ select disk base trailing rest (below ++ way)) := by
  have goesOn {path : List String} (fits : (if rest.isEmpty && !trailing then
      disk.holds (base ++ path) else disk.isDirectory (base ++ path)) = true) :
      rest ≠ [] ∨ trailing → disk.isDirectory (base ++ path) := by
    intro further
    rw [if_neg] at fits
    · exact fits
    · simpa [imp_iff_not_or] using further
  cases part with
  | name text =>
      simp only [select, List.mem_ite_nil_right] at selected
      exact .inl ⟨text, decide_eq_true rfl, .inl rfl,
        goesOn selected.1, selected.2⟩
  | wildcard pattern =>
      rw [select] at selected
      dsimp only at selected
      rcases List.mem_flatMap.1 selected with ⟨name, member, behind⟩
      rcases List.mem_filter.1 member with ⟨member, fits⟩
      cases found : disk.find? (base ++ below) with
      | none =>
          rw [found] at member
          cases member
      | some tree =>
          rw [found] at member
          rcases List.mem_filter.1 member with ⟨listed, accepted⟩
          refine .inl ⟨name, accepted, .inr ⟨tree, rfl, listed⟩,
            fun further => ?_, behind⟩
          rw [Bool.or_eq_true] at fits
          rcases fits with last | fits
          · rw [Bool.and_eq_true, List.isEmpty_iff, Bool.not_eq_true'] at last
            rcases further with more | slash
            · exact absurd last.1 more
            · exact absurd slash (Bool.eq_false_iff.1 last.2)
          · exact goesOn fits further
  | directories =>
      rw [select] at selected
      rcases List.mem_flatMap.1 selected with ⟨way, listed, behind⟩
      cases found : disk.find? (base ++ below) with
      | none =>
          rw [found] at listed
          cases listed
      | some tree =>
          rw [found] at listed
          exact .inr ⟨rfl, tree, way, rfl, listed, behind⟩

/-- A path that a glob selects fits its parts. Unless the path is a directory,
every run of directories but those in the last place may have been left out. -/
theorem align_of_mem_select {least : Nat} {parts : List GlobPart}
    {below path : List String} (proper : disk.tree.isProper)
    (allowed : least = 0 ∨
      least = 1 ∧ .directories ∉ parts.dropLast ∧
      ¬ disk.isDirectory (base ++ path))
    (stands : disk.isDirectory (base ++ below))
    (selected : path ∈ select disk base trailing parts below) :
    ∃ names, path = below ++ names ∧ Align least parts names := by
  induction parts generalizing below with
  | nil =>
      rcases List.mem_singleton.1 selected with rfl
      exact ⟨[], (List.append_nil _).symm, .nil⟩
  | cons part rest induction =>
      -- What is asked of the parts holds of those behind the first one, so the
      -- induction goes on.
      have allowedBehind : least = 0 ∨
          least = 1 ∧ .directories ∉ rest.dropLast ∧
          ¬ disk.isDirectory (base ++ path) := by
        refine allowed.imp_right fun ⟨one, last, other⟩ =>
          ⟨one, fun inside => last ?_, other⟩
        cases rest with
        | nil => cases inside
        | cons next rest => exact .tail _ inside
      rcases mem_select_cons selected with
        ⟨name, fits, -, goesOn, behind⟩ | ⟨rfl, found, way, here,
          listed, behind⟩
      · cases rest with
        | nil =>
            rcases List.mem_singleton.1 behind with rfl
            exact ⟨[name], rfl, .single fits .nil⟩
        | cons next rest =>
            rcases induction allowedBehind
              (goesOn (.inl (List.cons_ne_nil _ _))) behind with
              ⟨names, rfl, align⟩
            exact ⟨name :: names, List.append_assoc _ _ _, .single fits align⟩
      · have there := Disk.isDirectory_of_listed proper here listed
        rw [List.append_assoc] at there
        rcases induction allowedBehind there behind with ⟨names, rfl, align⟩
        -- Only the last part may be a run, and that run leads from a directory
        -- to none.
        have enough : least ≤ way.length := by
          rcases allowed with rfl | ⟨rfl, last, other⟩
          · exact Nat.zero_le _
          · cases rest with
            | cons next rest => exact absurd (.head _) last
            | nil =>
                refine List.length_pos_iff.2 ?_
                rintro rfl
                rcases List.mem_singleton.1 behind with same
                rw [same, List.append_nil] at other
                exact other stands
        exact ⟨way ++ names, List.append_assoc _ _ _, .run way enough align⟩

theorem isDirectory_of_mem_select {parts : List GlobPart}
    {below path : List String} (proper : disk.tree.isProper)
    (ends : trailing ∨ parts.getLast? = some .directories)
    (stands : disk.isDirectory (base ++ below))
    (selected : path ∈ select disk base trailing parts below) :
    disk.isDirectory (base ++ path) := by
  induction parts generalizing below with
  | nil =>
      rcases List.mem_singleton.1 selected with rfl
      exact stands
  | cons part rest induction =>
      rcases mem_select_cons selected with
        ⟨name, fits, _, goesOn, behind⟩ | ⟨_, found, way, here, listed, behind⟩
      · cases rest with
        | nil =>
            rcases List.mem_singleton.1 behind with rfl
            rcases ends with slash | last
            · exact goesOn (.inr slash)
            · cases last
              cases fits
        | cons next rest =>
            exact induction ends (goesOn (.inl (List.cons_ne_nil _ _))) behind
      · have there := Disk.isDirectory_of_listed proper here listed
        rw [List.append_assoc] at there
        cases rest with
        | nil =>
            rcases List.mem_singleton.1 behind with rfl
            exact there
        | cons next rest => exact induction ends there behind

theorem dotless_of_mem_select {parts : List GlobPart} {below path : List String}
    (proper : disk.tree.isProper) (down : .name ".." ∉ parts)
    (dotless : ".." ∉ below)
    (selected : path ∈ select disk base trailing parts below) :
    ".." ∉ path := by
  have properFound {parts : List String} {found : FileTree}
      (stands : disk.find? parts = some found) : found.isProper := by
    rcases Disk.find?_eq_some_iff.1 stands with ⟨names, -, here⟩
    exact FileTree.isProper_of_at? proper here
  induction parts generalizing below with
  | nil =>
      rcases List.mem_singleton.1 selected with rfl
      exact dotless
  | cons part rest induction =>
      rw [List.mem_cons, not_or] at down
      rcases mem_select_cons selected with
        ⟨name, _, source, _, behind⟩ | ⟨_, found, way, here, listed, behind⟩
      · have named : ".." ≠ name := by
          rcases source with rfl | ⟨found, here, listed⟩
          · exact fun dots => down.1 (congrArg GlobPart.name dots)
          · exact FileTree.ne_dots_of_mem_entries (properFound here) listed
        refine induction down.2 ?_ behind
        simp [dotless, named]
      · refine induction down.2 ?_ behind
        rw [List.mem_append, not_or]
        exact ⟨dotless, FileTree.dotless_of_mem_directories
          (properFound here) listed⟩

end Glob

end FencedJson
