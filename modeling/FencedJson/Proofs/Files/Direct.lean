import FencedJson.Proofs.Files.Selection

/-! # Direct ways

A way is direct when it has no double dots and meets no link. What stands at its
end is found without following anything, and the names of a path that was
followed to its end are a direct way to the same place.
-/

namespace FencedJson

namespace FileTree

theorem exists_entries_of_at?_append {tree found : FileTree}
    {front back : List String} (stands : tree.at? (front ++ back) = some found)
    (more : back ≠ []) :
    ∃ entries, tree.at? front = some (.directory entries) ∧
      (directory entries).at? back = some found := by
  rw [at?_append] at stands
  rcases Option.bind_eq_some_iff.1 stands with ⟨inner, here, behind⟩
  cases inner with
  | directory entries => exact ⟨entries, here, behind⟩
  | file | link =>
      cases back with
      | nil => exact absurd rfl more
      | cons name rest => cases behind

theorem mem_directories_of_at? {tree : FileTree} {way : List String}
    {entries : List (String × FileTree)}
    (stands : tree.at? way = some (.directory entries)) :
    way ∈ tree.directories := by
  induction way generalizing tree with
  | nil =>
      cases stands
      exact List.mem_cons_self ..
  | cons name rest induction =>
      rcases Option.bind_eq_some_iff.1 stands with ⟨inner, child, behind⟩
      cases tree with
      | file | link => cases child
      | directory inside =>
          rw [directories]
          exact List.mem_cons_of_mem _
            (mem_directoriesOf.2 ⟨name, inner, rest, mem_of_lookup child,
              induction behind, rfl⟩)

def isLink : FileTree → Bool
  | link _ => true
  | _ => false

mutual

def all (test : String → FileTree → Bool) : FileTree → Bool
  | file _ => true
  | link _ => true
  | directory entries => allEntries test entries

def allEntries (test : String → FileTree → Bool) :
    List (String × FileTree) → Bool
  | [] => true
  | (name, inner) :: rest =>
      test name inner && inner.all test && allEntries test rest

end

variable {test : String → FileTree → Bool}

private theorem all_of_mem {entries : List (String × FileTree)} {name : String}
    {inner : FileTree} (passed : allEntries test entries)
    (member : (name, inner) ∈ entries) :
    test name inner ∧ inner.all test := by
  induction entries with
  | nil => cases member
  | cons entry rest induction =>
      rw [allEntries, Bool.and_eq_true, Bool.and_eq_true] at passed
      rcases List.mem_cons.1 member with rfl | later
      · exact passed.1
      · exact induction passed.2 later

theorem passed_of_at? {tree found : FileTree} {names : List String}
    (passed : tree.all test) (stands : tree.at? names = some found) :
    (found = tree ∨ ∃ name, test name found) ∧
    ∀ name ∈ names, ∃ inner, test name inner := by
  induction names generalizing tree with
  | nil =>
      cases stands
      exact ⟨.inl rfl, nofun⟩
  | cons name rest induction =>
      rcases Option.bind_eq_some_iff.1 stands with ⟨inner, child, behind⟩
      cases tree with
      | file | link => cases child
      | directory entries =>
          rcases all_of_mem passed (mem_of_lookup child) with ⟨here, below⟩
          rcases induction below behind with ⟨last, others⟩
          refine ⟨.inr ?_, List.forall_mem_cons.2 ⟨⟨inner, here⟩, others⟩⟩
          rcases last with rfl | further
          · exact ⟨name, here⟩
          · exact further

end FileTree

theorem Path.forall_mem_descend {kind : String → Prop}
    {base parts : List String} (begins : ∀ name ∈ base, kind name)
    (named : ∀ name ∈ parts, name ≠ ".." → kind name) :
    ∀ name ∈ descend base parts, kind name := by
  fun_induction descend base parts with
  | case1 => exact begins
  | case2 base rest induction =>
      exact induction (fun name member =>
        begins name ((List.dropLast_sublist base).subset member))
        (List.forall_mem_cons.1 named).2
  | case3 base name rest down induction =>
      rcases List.forall_mem_cons.1 named with ⟨first, others⟩
      refine induction (List.forall_mem_append.2 ⟨begins, ?_⟩) others
      exact List.forall_mem_singleton.2 (first down)

namespace Disk

variable {disk : Disk}

/-- A way from `base` on without double dots and without links. -/
inductive IsDirect (disk : Disk) : (base names : List String) → Prop
  | nil (base : List String) : IsDirect disk base []
  | cons {base rest : List String} {name : String} (named : name ≠ "..")
      (plain : ∀ target, disk.tree.at? (base ++ [name]) ≠ some (.link target))
      (behind : IsDirect disk (base ++ [name]) rest) :
      IsDirect disk base (name :: rest)

theorem isDirect_append_iff {base front back : List String} :
    IsDirect disk base (front ++ back) ↔
      IsDirect disk base front ∧ IsDirect disk (base ++ front) back := by
  induction front generalizing base with
  | nil => simp [IsDirect.nil]
  | cons name rest induction =>
      constructor
      · rintro (_ | ⟨named, plain, behind⟩)
        rw [List.append_cons]
        exact ⟨.cons named plain (induction.1 behind).1, (induction.1 behind).2⟩
      · rintro ⟨_ | ⟨named, plain, behind⟩, further⟩
        rw [List.append_cons] at further
        exact .cons named plain (induction.2 ⟨behind, further⟩)

theorem dotless_of_isDirect {base names : List String}
    (direct : IsDirect disk base names) :
    ".." ∉ names := by
  induction direct with
  | nil => exact List.not_mem_nil
  | cons named _ _ induction =>
      exact List.not_mem_cons_of_ne_of_not_mem (Ne.symm named) induction

/-! ## Following -/

theorem follow_of_isDirect {base names : List String}
    (direct : IsDirect disk base names) (active : List (List String)) :
    disk.follow active base names = ⟨base ++ names, true⟩ := by
  induction direct with
  | nil base => simp only [follow, List.append_nil]
  | @cons base rest name named plain _ induction =>
      rw [List.append_cons, ← induction, follow_of_plain named plain]

theorem isDirect_of_follow {active : List (List String)}
    {base parts : List String} (direct : IsDirect disk [] base)
    (complete : (disk.follow active base parts).complete) :
    IsDirect disk [] (disk.follow active base parts).names := by
  fun_induction follow disk active base parts with
  | case1 => exact direct
  | case2 active base rest induction =>
      rcases List.dropLast_prefix base with ⟨last, whole⟩
      have parted : IsDirect disk [] (base.dropLast ++ last) :=
        whole.symm ▸ direct
      exact induction (isDirect_append_iff.1 parted).1 complete
  | case3 | case5 => cases complete
  | case4 active base name rest named here target link new inner ended
      behind _ further =>
      refine further (behind ?_ ended) complete
      unfold linkStart
      split
      · exact .nil []
      · exact direct
  | case6 active base name rest named here plain induction =>
      have single : IsDirect disk base [name] := .cons named plain (.nil _)
      exact induction (isDirect_append_iff.2 ⟨direct, single⟩) complete

theorem isDirect_of_resolve {path : Path} {names : List String}
    (complete : (disk.follow [] [] (disk.fromRoot path)).complete)
    (resolved : disk.resolve path = .ok names) : IsDirect disk [] names := by
  simp only [resolve, complete, if_true, Except.ok.injEq] at resolved
  exact resolved ▸ isDirect_of_follow (.nil []) complete

theorem dotless_of_resolve {path : Path} {names : List String}
    (resolved : disk.resolve path = .ok names) : ".." ∉ names := by
  unfold resolve at resolved
  dsimp only at resolved
  split at resolved
  · next complete =>
      cases resolved
      exact dotless_of_isDirect (isDirect_of_follow (.nil []) complete)
  · split at resolved
    · cases resolved
    · cases resolved
      have down : ∀ name ∈ Path.descend []
          (disk.follow [] [] (disk.fromRoot path)).names, name ≠ ".." :=
            Path.forall_mem_descend (List.forall_mem_nil _)
            fun name _ down => down
      exact fun member => down ".." member rfl

theorem resolve_of_isDirect {names : List String}
    (direct : IsDirect disk [] names) :
    disk.resolve ⟨"/", names⟩ = .ok names := by
  have absolute : disk.fromRoot ⟨"/", names⟩ = names := rfl
  simp only [resolve, absolute, follow_of_isDirect direct, if_true,
    List.nil_append]

/-! ## Finding -/

theorem walk_of_isDirect {base names : List String}
    (direct : IsDirect disk base names) {found : FileTree}
    (stands : disk.tree.at? (base ++ names) = some found) (budget : Nat) :
    disk.walk budget base names = .ok (base ++ names) := by
  induction direct with
  | nil base => rw [walk, List.append_nil]
  | @cons base rest name named plain _ induction =>
      rcases FileTree.exists_entries_of_at?_append stands
        (List.cons_ne_nil _ _) with ⟨entries, here, behind⟩
      rcases Option.bind_eq_some_iff.1 behind with ⟨inner, child, -⟩
      have next : disk.tree.at? (base ++ [name]) = some inner := by
        rw [FileTree.at?_append_singleton, here]
        exact child
      have child : entries.lookup name = some inner := child
      rw [List.append_cons] at stands ⊢
      have noLink : ∀ target, inner ≠ .link target := by
        rintro target rfl
        exact plain target next
      rw [walk_of_plain here named child noLink]
      exact induction stands

private theorem eq_of_walk_of_isDirect {base names stop : List String}
    {budget : Nat} (direct : IsDirect disk base names)
    (walked : disk.walk budget base names = .ok stop) :
    stop = base ++ names := by
  induction direct with
  | nil base =>
      rw [walk] at walked
      cases walked
      exact (List.append_nil _).symm
  | @cons base rest name named plain _ induction =>
      rw [List.append_cons]
      rw [walk] at walked
      split at walked
      · next entries here =>
          rw [if_neg named] at walked
          split at walked
          · cases walked
          · next target child =>
              have link : disk.tree.at? (base ++ [name]) =
                  some (.link target) := by
                rw [FileTree.at?_append_singleton, here]
                exact child
              exact absurd link (plain target)
          · exact induction walked
      · cases walked
      · cases walked

theorem find?_of_isDirect {names : List String}
    (direct : IsDirect disk [] names) :
    disk.find? names = disk.tree.at? names := by
  refine Option.ext fun found => ?_
  rw [find?_eq_some_iff]
  constructor
  · rintro ⟨stop, walked, stands⟩
    rw [eq_of_walk_of_isDirect direct walked] at stands
    exact stands
  · intro stands
    exact ⟨names, walk_of_isDirect direct stands linkLimit, stands⟩

theorem isFile_iff_of_isDirect {names : List String}
    (direct : IsDirect disk [] names) :
    disk.isFile names ↔ ∃ content, disk.tree.at? names =
      some (.file content) := by
  rw [isFile, find?_of_isDirect direct]
  rcases disk.tree.at? names with _ | _ | _ | _ <;> simp [FileTree.isFile]

theorem isDirectory_iff_of_isDirect {names : List String}
    (direct : IsDirect disk [] names) :
    disk.isDirectory names ↔ ∃ entries, disk.tree.at? names =
      some (.directory entries) := by
  rw [isDirectory, find?_of_isDirect direct]
  rcases disk.tree.at? names with _ | _ | _ | _ <;> simp [FileTree.isDirectory]

/-! ## Disks without links -/

def IsUnlinked (disk : Disk) : Prop :=
  ∀ names target, disk.tree.at? names ≠ some (.link target)

theorem IsUnlinked.of_tree (start : disk.tree.isLink = false)
    (unlinked : disk.tree.all fun _ inner => !inner.isLink) :
    disk.IsUnlinked := by
  intro names target stands
  rcases (FileTree.passed_of_at? unlinked stands).1 with whole | ⟨-, plain⟩
  · rw [← whole] at start
    cases start
  · cases plain

theorem IsUnlinked.isDirect_iff (unlinked : disk.IsUnlinked)
    {base names : List String} :
    IsDirect disk base names ↔ ".." ∉ names := by
  refine ⟨dotless_of_isDirect, fun dotless => ?_⟩
  induction names generalizing base with
  | nil => exact .nil base
  | cons name rest induction =>
      rw [List.mem_cons, not_or] at dotless
      rcases dotless with ⟨named, behind⟩
      exact .cons (Ne.symm named) (unlinked _) (induction behind)

private theorem IsUnlinked.follow_eq (unlinked : disk.IsUnlinked)
    (active : List (List String)) (base parts : List String) :
    disk.follow active base parts = ⟨Path.descend base parts, true⟩ := by
  fun_induction Path.descend base parts with
  | case1 => rw [follow]
  | case2 base rest induction => rw [follow, if_pos rfl, induction]
  | case3 base name rest named induction =>
      rw [follow_of_plain named (unlinked _), induction]

theorem IsUnlinked.resolve_eq (unlinked : disk.IsUnlinked) (path : Path) :
    disk.resolve path = .ok (Path.descend [] (disk.fromRoot path)) := by
  simp only [resolve, unlinked.follow_eq, if_true]

theorem IsUnlinked.find?_eq (unlinked : disk.IsUnlinked) {names : List String}
    (dotless : ".." ∉ names) : disk.find? names = disk.tree.at? names :=
  find?_of_isDirect (unlinked.isDirect_iff.2 dotless)

theorem IsUnlinked.read_of_stands (unlinked : disk.IsUnlinked) {path : Path}
    {content : List UInt8} (dotless : ".." ∉ disk.fromRoot path)
    (stands : disk.tree.at? (disk.fromRoot path) = some (.file content)) :
    disk.read path = .ok content := by
  have located : disk.locate (disk.fromRoot path) = .ok (disk.fromRoot path) :=
    walk_of_isDirect (unlinked.isDirect_iff.2 dotless) stands linkLimit
  simp only [Disk.read, find, located, stands]

theorem IsUnlinked.find?_of_stands (unlinked : disk.IsUnlinked)
    {front back : List String} {found : FileTree}
    (dotless : ".." ∉ front ++ back)
    (stands : disk.tree.at? front = some found) :
    disk.find? front = some found := by
  rw [unlinked.find?_eq fun dots => dotless (List.mem_append_left back dots),
    stands]

theorem IsUnlinked.exists_listed (unlinked : disk.IsUnlinked)
    {way names : List String} {name : String} {found : FileTree}
    (dotless : ".." ∉ way ++ name :: names)
    (stands : disk.tree.at? (way ++ name :: names) = some found) :
    ∃ entries, disk.find? way = some (.directory entries) ∧
    name ∈ entries.map Prod.fst ∧
      disk.holds (way ++ [name]) ∧
      (names ≠ [] → disk.isDirectory (way ++ [name])) := by
  rcases FileTree.exists_entries_of_at?_append stands
    (List.cons_ne_nil _ _) with ⟨entries, here, inside⟩
  rcases Option.bind_eq_some_iff.1 inside with ⟨inner, child, -⟩
  have there : disk.tree.at? (way ++ [name]) = some inner := by
    rw [FileTree.at?_append_singleton, here]
    exact child
  rw [List.append_cons] at stands
  refine ⟨entries, unlinked.find?_of_stands dotless here,
    List.mem_map_of_mem (mem_of_lookup child), ?_, fun more => ?_⟩
  · rw [List.append_cons] at dotless
    rw [holds, unlinked.find?_of_stands dotless there]
    rfl
  · rcases FileTree.exists_entries_of_at?_append stands more with
      ⟨inside, directory, -⟩
    rw [List.append_cons] at dotless
    rw [isDirectory, unlinked.find?_of_stands dotless directory]
    rfl

theorem IsUnlinked.exists_directories (unlinked : disk.IsUnlinked)
    {way front back : List String} {found : FileTree}
    (dotless : ".." ∉ way ++ (front ++ back))
    (stands : disk.tree.at? (way ++ (front ++ back)) = some found)
    (more : back ≠ []) :
    ∃ inner, disk.find? way = some inner ∧ front ∈ inner.directories := by
  rw [← List.append_assoc] at stands
  rcases FileTree.exists_entries_of_at?_append stands more with
    ⟨entries, directory, -⟩
  rw [FileTree.at?_append] at directory
  rcases Option.bind_eq_some_iff.1 directory with ⟨inner, here, inside⟩
  exact ⟨inner, unlinked.find?_of_stands dotless here,
    FileTree.mem_directories_of_at? inside⟩

end Disk
end FencedJson
