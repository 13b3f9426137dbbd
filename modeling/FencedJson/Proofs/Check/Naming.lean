import FencedJson.Proofs.Check.Recording
import FencedJson.Proofs.Files.Direct

/-! # Names that tell files apart

A file is recorded under its path as seen from the root. As long as the names on
the disk are those that files can have, two files of one name are the same file.
-/

namespace FencedJson

/-- A name of which a path can be made and read back. -/
def IsFileName (name : String) : Prop :=
  name ≠ "." ∧ name ≠ ".." ∧ '/' ∉ name.toList

instance (name : String) : Decidable (IsFileName name) :=
  inferInstanceAs (Decidable (name ≠ "." ∧ name ≠ ".." ∧ '/' ∉ name.toList))

/-- Whatever stands on the disk is reached by names of a kind. -/
def Disk.HasNames (disk : Disk) (kind : String → Prop) : Prop :=
  ∀ names found, disk.tree.at? names = some found → ∀ name ∈ names, kind name

theorem Disk.HasNames.of_tree {disk : Disk}
    {kind : String → Prop} [DecidablePred kind]
    (all : disk.tree.all fun name _ => kind name) : disk.HasNames kind := by
  intro names found stands name member
  rcases (FileTree.passed_of_at? all stands).2 name member with ⟨-, kept⟩
  exact of_decide_eq_true kept

namespace Path

theorem splitOn_joinNames {parts : List String} (some : parts ≠ [])
    (whole : ∀ name ∈ parts, '/' ∉ name.toList) :
    (joinNames parts).toList.splitOn '/' = parts.map String.toList := by
  rw [joinNames, String.toList_intercalate]
  exact List.splitOn_intercalate '/' (List.forall_mem_map.2 whole)
    (by simpa using some)

theorem joinNames_injective {first second : List String} (some : first ≠ [])
    (some' : second ≠ []) (whole : ∀ name ∈ first, '/' ∉ name.toList)
    (whole' : ∀ name ∈ second, '/' ∉ name.toList)
    (same : joinNames first = joinNames second) : first = second := by
  have names := splitOn_joinNames some whole
  rw [same, splitOn_joinNames some' whole'] at names
  exact (List.map_injective_iff.2 fun _ _ => String.toList_injective) names.symm

theorem toString_relative (parts : List String) :
    (Path.mk "" parts).toString = if parts =
      [] then "." else joinNames parts := by
  cases parts with
  | nil => rfl
  | cons name rest => exact String.empty_append

theorem toString_injective {first second : List String}
    (plain : ∀ name ∈ first, name ≠ "." ∧ '/' ∉ name.toList)
    (plain' : ∀ name ∈ second, name ≠ "." ∧ '/' ∉ name.toList)
    (same : (Path.mk "" first).toString = (Path.mk "" second).toString) :
    first = second := by
  have noDot {parts : List String} (plain : ∀ name ∈ parts, name ≠ "." ∧
      '/' ∉ name.toList) (some : parts ≠ []) :
      joinNames parts ≠ joinNames ["."] := by
    intro dot
    cases joinNames_injective some (List.cons_ne_nil _ _)
      (fun name member => (plain name member).2) (by decide) dot
    exact (plain "." (List.mem_singleton_self _)).1 rfl
  have single : joinNames ["."] = "." := rfl
  rw [toString_relative, toString_relative] at same
  by_cases none : first = [] <;> by_cases none' : second = []
  · rw [none, none']
  · rw [if_pos none, if_neg none', ← single] at same
    exact (noDot plain' none' same.symm).elim
  · rw [if_neg none, if_pos none', ← single] at same
    exact (noDot plain none same).elim
  · rw [if_neg none, if_neg none'] at same
    exact joinNames_injective none none'
      (fun name member => (plain name member).2)
      (fun name member => (plain' name member).2) same

theorem withoutCommon_spec (first second : List String) : ∃ common,
    first = common ++ (withoutCommon first second).1 ∧
      second = common ++ (withoutCommon first second).2 := by
  fun_induction withoutCommon first second with
  | case1 left name right induction =>
      rcases induction with ⟨common, upper, lower⟩
      exact ⟨name :: common, congrArg (name :: ·) upper,
        congrArg (name :: ·) lower⟩
  | case2 | case3 => exact ⟨[], rfl, rfl⟩

theorem eq_or_mem_of_mem_relative {target start : List String} {name : String}
    (member : name ∈ (relative target start).parts) : name = ".." ∨
    name ∈ target := by
  rcases withoutCommon_spec target start with ⟨common, upper, -⟩
  rcases List.mem_append.1 member with up | down
  · exact .inl (List.eq_of_mem_map_const up)
  · rw [upper]
    exact .inr (List.mem_append_right _ down)

theorem relative_injective {first second start : List String}
    (down : ".." ∉ first) (down' : ".." ∉ second)
    (same : (relative first start).parts = (relative second start).parts) :
    first = second := by
  rcases withoutCommon_spec first start with ⟨common, upper, lower⟩
  rcases withoutCommon_spec second start with ⟨common', upper', lower'⟩
  simp only [relative, List.map_const'] at same
  generalize withoutCommon first start = rest at *
  generalize withoutCommon second start = rest' at *
  have count : rest.2.length = rest'.2.length := by
    have ups := congrArg (List.count "..") same
    rw [upper, List.mem_append, not_or] at down
    rw [upper', List.mem_append, not_or] at down'
    simpa [List.count_eq_zero.2 down.2, List.count_eq_zero.2 down'.2] using ups
  have ends := (List.append_inj same (by simp [count])).2
  have front := (List.append_inj' (lower.symm.trans lower') count).1
  rw [upper, upper', ends, front]

end Path

namespace Check

variable {stack : Stack} {disk : Disk} {root : Path}

theorem names_of_read {path : Path} {content : List UInt8}
    (read : disk.read path = .ok content) :
    ∃ names, disk.resolve path = .ok names ∧
      disk.tree.at? names = some (.file content) := by
  unfold Disk.read Disk.find at read
  cases located : disk.locate (disk.fromRoot path) with
  | error problem =>
      rw [located] at read
      cases read
  | ok names =>
      rw [located] at read
      dsimp only at read
      cases stands : disk.tree.at? names with
      | none =>
          rw [stands] at read
          cases read
      | some found =>
          rw [stands] at read
          cases found with
          | file bytes =>
              cases read
              exact ⟨names, Disk.resolve_of_locate located, stands⟩
          | link | directory => cases read

/-- What is recorded of a path was found in a file, and the path leads to that
file. -/
theorem exists_file_of_recordOf? {path : Path}
    {record : String × List BlockError}
    (recorded : recordOf? stack disk root path = some record) :
    recordedName disk root path = .ok record.1 ∧
      ∃ found names content, checkFile stack disk path = .ok found ∧
        found.map Finding.error = record.2 ∧ disk.resolve path = .ok names ∧
        disk.tree.at? names = some (.file content) := by
  rcases recordOf?_eq_some_iff.1 recorded with ⟨under, found, checked, errors⟩
  rcases checkFile_eq_ok_iff.1 checked with ⟨content, text, read, -⟩
  rcases names_of_read read with ⟨names, resolved, stands⟩
  exact ⟨under, found, names, content, checked, errors, resolved, stands⟩

theorem names_eq_of_recordedName {path other : Path}
    {names names' : List String} {found found' : FileTree} {name : String}
    (named : disk.HasNames IsFileName)
    (resolved : disk.resolve path = .ok names)
    (stands : disk.tree.at? names = some found)
    (resolved' : disk.resolve other = .ok names')
    (stands' : disk.tree.at? names' = some found')
    (recorded : recordedName disk root path = .ok name)
    (recorded' : recordedName disk root other = .ok name) : names = names' := by
  have plain := named names _ stands
  have plain' := named names' _ stands'
  cases rooted : disk.resolve root with
  | error => simp [recordedName, resolved, rooted] at recorded
  | ok start =>
      simp only [recordedName, resolved, resolved', rooted, Except.ok.injEq]
        at recorded recorded'
      have parts {target : List String}
          (plain : ∀ name ∈ target, IsFileName name) :
          ∀ name ∈ (Path.relative target start).parts, name ≠ "." ∧
          '/' ∉ name.toList := by
        intro name member
        rcases Path.eq_or_mem_of_mem_relative member with rfl | member
        · decide
        · exact ⟨(plain name member).1, (plain name member).2.2⟩
      have same := Path.toString_injective (parts plain) (parts plain')
        (recorded.trans recorded'.symm)
      exact Path.relative_injective (fun member => (plain _ member).2.1 rfl)
        (fun member => (plain' _ member).2.1 rfl) same

private theorem content_eq_of_resolve {path other : Path}
    {content content' : List UInt8} (read : disk.read path = .ok content)
    (read' : disk.read other = .ok content')
    (same : disk.resolve path = disk.resolve other) : content = content' := by
  rcases names_of_read read with ⟨names, resolved, stands⟩
  rcases names_of_read read' with ⟨names', resolved', stands'⟩
  rw [resolved, resolved', Except.ok.injEq] at same
  rw [same, stands'] at stands
  cases stands
  rfl

theorem found_eq_of_resolve {path other : Path} {found found' : List Finding}
    (checked : checkFile stack disk path = .ok found)
    (checked' : checkFile stack disk other = .ok found')
    (same : disk.resolve path = disk.resolve other) : found = found' := by
  rcases checkFile_eq_ok_iff.1 checked with
    ⟨content, text, read, decoded, checked⟩
  rcases checkFile_eq_ok_iff.1 checked' with
    ⟨content', text', read', decoded', checked'⟩
  rw [content_eq_of_resolve read read' same, decoded',
    Except.ok.injEq] at decoded
  rw [← decoded, checked', Except.ok.injEq] at checked
  exact checked.symm

private theorem errors_eq_of_recordOf? {path other : Path} {name : String}
    {errors errors' : List BlockError} (named : disk.HasNames IsFileName)
    (recorded : recordOf? stack disk root path = some (name, errors))
    (recorded' : recordOf? stack disk root other = some (name, errors')) :
    errors = errors' := by
  rcases exists_file_of_recordOf? recorded with
    ⟨under, found, names, content, checked, rfl, resolved, stands⟩
  rcases exists_file_of_recordOf? recorded' with
    ⟨under', found', names', content', checked', rfl, resolved', stands'⟩
  have same := names_eq_of_recordedName named resolved stands resolved'
      stands' under under'
  rw [found_eq_of_resolve checked checked' (by rw [resolved, resolved', same])]

theorem errors_eq_of_records {files : List Path}
    {records : List (String × List BlockError)}
    (named : disk.HasNames IsFileName)
    (all : files.mapM (recordOf? stack disk root) = some records)
    {name : String} {errors errors' : List BlockError}
    (member : (name, errors) ∈ records) (member' : (name, errors') ∈ records) :
    errors = errors' := by
  rcases exists_path_of_mem all member with ⟨path, -, recorded⟩
  rcases exists_path_of_mem all member' with ⟨other, -, recorded'⟩
  exact errors_eq_of_recordOf? named recorded recorded'

end Check
end FencedJson
