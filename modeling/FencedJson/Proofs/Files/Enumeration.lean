import FencedJson.Proofs.Files.Direct

/-! # Orders of enumeration

Directories hold the same when their entries are listed in another order, here
or further down. Nothing that can be looked up by its names tells the two trees
apart.
-/

namespace FencedJson

namespace FileTree

/-- The tree with the entries of its directories in some other order. -/
inductive Reorders : FileTree → FileTree → Prop
  | refl (tree : FileTree) : Reorders tree tree
  | trans {first second third : FileTree} (left : Reorders first second)
      (right : Reorders second third) : Reorders first third
  | swap (front back : List (String × FileTree))
      (first second : String × FileTree) :
      Reorders (directory (front ++ first :: second :: back))
        (directory (front ++ second :: first :: back))
  | inside (front back : List (String × FileTree)) (name : String)
      {inner other : FileTree} (same : Reorders inner other) :
      Reorders (directory (front ++ (name, inner) :: back))
        (directory (front ++ (name, other) :: back))

variable {tree other : FileTree}

theorem Reorders.eq_or_isDirectory (same : Reorders tree other) :
    tree = other ∨ tree.isDirectory ∧ other.isDirectory := by
  induction same with
  | refl => exact .inl rfl
  | swap | inside => exact .inr ⟨rfl, rfl⟩
  | trans _ _ first second =>
      rcases first with rfl | ⟨before, middle⟩
      · exact second
      · rcases second with rfl | ⟨-, after⟩
        · exact .inr ⟨before, middle⟩
        · exact .inr ⟨before, after⟩

theorem isProper_directory_iff {entries : List (String × FileTree)} :
    (directory entries).isProper ↔ (entries.map Prod.fst).Nodup ∧
      ∀ entry ∈ entries, entry.1 ≠ ".." ∧ entry.2.isProper := by
  rw [isProper, Bool.and_eq_true, decide_eq_true_eq, properEntries_iff]

theorem Reorders.isProper (same : Reorders tree other)
    (proper : tree.isProper) :
    other.isProper := by
  induction same with
  | refl => exact proper
  | trans _ _ first second => exact second (first proper)
  | swap front back first second =>
      rw [isProper_directory_iff] at proper ⊢
      have swapped : (front ++ first :: second :: back).Perm
          (front ++ second :: first :: back) :=
        (List.Perm.swap ..).append_left front
      exact ⟨(swapped.map Prod.fst).nodup_iff.1 proper.1,
        fun entry member => proper.2 entry (swapped.mem_iff.2 member)⟩
  | inside front back name same induction =>
      rw [isProper_directory_iff] at proper ⊢
      rcases proper with ⟨distinct, inside⟩
      refine ⟨by simpa using distinct, fun entry member => ?_⟩
      rw [List.mem_append, List.mem_cons] at member
      rcases member with before | rfl | behind
      · exact inside entry (List.mem_append_left _ before)
      · have here := inside (name, _) (List.mem_append_right _ (.head _))
        exact ⟨here.1, induction here.2⟩
      · exact inside entry (List.mem_append_right _ (.tail _ behind))

theorem Reorders.symm (same : Reorders tree other) : Reorders other tree := by
  induction same with
  | refl tree => exact .refl tree
  | trans _ _ first second => exact second.trans first
  | swap front back first second => exact .swap front back second first
  | inside front back name _ induction =>
      exact .inside front back name induction

private theorem Reorders.exists_child? (same : Reorders tree other)
    (proper : tree.isProper) {name : String} {inner : FileTree}
    (found : tree.child? name = some inner) :
    ∃ inner', other.child? name = some inner' ∧ Reorders inner inner' := by
  induction same generalizing inner with
  | refl => exact ⟨inner, found, .refl inner⟩
  | trans left right leftInduction rightInduction =>
      rcases leftInduction proper found with ⟨middle, here, near⟩
      rcases rightInduction (left.isProper proper) here with
        ⟨inner', there, far⟩
      exact ⟨inner', there, near.trans far⟩
  | swap front back first second =>
      have swapped : (front ++ first :: second :: back).Perm
          (front ++ second :: first :: back) :=
        (List.Perm.swap ..).append_left front
      have distinct := (swapped.map Prod.fst).nodup_iff.1
          (isProper_directory_iff.1 proper).1
      exact ⟨inner, lookup_of_mem distinct
        (swapped.mem_iff.1 (mem_of_lookup found)), .refl inner⟩
  | @inside front back entered first second same _ =>
      simp only [FileTree.child?, entries, List.lookup_append,
        List.lookup_cons] at found ⊢
      cases before : front.lookup name with
      | some other =>
          rw [before] at found
          exact ⟨inner, found, .refl inner⟩
      | none =>
          rw [before] at found
          cases here : name == entered with
          | true =>
              rw [here] at found
              cases found
              exact ⟨second, rfl, same⟩
          | false =>
              rw [here] at found
              exact ⟨inner, found, .refl inner⟩

private theorem Reorders.exists_at? (same : Reorders tree other)
    (proper : tree.isProper) {names : List String} {found : FileTree}
    (stands : tree.at? names = some found) :
    ∃ found', other.at? names = some found' ∧ Reorders found found' := by
  induction names generalizing tree other with
  | nil =>
      cases stands
      exact ⟨other, rfl, same⟩
  | cons name rest induction =>
      rcases Option.bind_eq_some_iff.1 stands with ⟨inner, child, behind⟩
      rcases same.exists_child? proper child with ⟨inner', child', near⟩
      rcases induction near (isProper_of_child? proper child) behind with
        ⟨found', stands', far⟩
      exact ⟨found', Option.bind_eq_some_iff.2 ⟨inner', child', stands'⟩, far⟩

theorem Reorders.at?_eq_some_iff (same : Reorders tree other)
    (proper : tree.isProper) {found : FileTree}
    (plain : found.isDirectory = false) {names : List String} :
    tree.at? names = some found ↔ other.at? names = some found := by
  have kept {first second : FileTree} (same : Reorders first second)
      (proper : first.isProper) (stands : first.at? names = some found) :
      second.at? names = some found := by
    rcases same.exists_at? proper stands with ⟨found', stands', near⟩
    rcases near.eq_or_isDirectory with rfl | ⟨directory, -⟩
    · exact stands'
    · rw [plain] at directory
      cases directory
  exact ⟨kept same proper, kept same.symm (same.isProper proper)⟩

end FileTree

theorem Disk.IsUnlinked.of_reorders {disk : Disk} (unlinked : disk.IsUnlinked)
    (proper : disk.tree.isProper) {tree : FileTree}
    (same : disk.tree.Reorders tree) :
    Disk.IsUnlinked { disk with tree } :=
  fun names target stands => unlinked names target
    ((same.at?_eq_some_iff proper rfl).2 stands)

end FencedJson
