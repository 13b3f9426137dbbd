import FencedJson.Proofs.Files.Discovery
import FencedJson.Setup.Config

/-! # What patterns leave out

A pattern is matched against the text of a whole path, where a star crosses
slashes. With two stars and a slash in front it is in effect matched against the
ends of the path, each from some name on.
-/

namespace FencedJson

namespace Pattern

theorem accepts_doubleStar (text : List Char) :
    (ofChars ['*', '*']).accepts text :=
  accepts_iff.2 (matches_doubleStar text)

theorem accepts_behind_slash_iff {rest text : List Char} :
    (ofChars ('*' :: '*' :: '/' :: rest)).accepts text ↔
      ∃ front back, text = front ++ '/' :: back ∧
      (ofChars rest).accepts back := by
  have slash : IsLiteral ['/'] := by decide
  have marked {back : List Char} : (ofChars ('/' :: rest)).accepts back ↔
      ∃ behind, back = '/' :: behind ∧ (ofChars rest).accepts behind :=
    accepts_literal_append_iff slash
  rw [ofChars_star, ofChars_star, accepts_star_iff]
  simp only [accepts_star_iff, marked]
  constructor
  · rintro ⟨first, _, rfl, second, _, rfl, back, rfl, accepted⟩
    exact ⟨first ++ second, back, (List.append_assoc ..).symm, accepted⟩
  · rintro ⟨front, back, rfl, accepted⟩
    exact ⟨front, _, rfl, [], _, rfl, back, rfl, accepted⟩

end Pattern

namespace Path

theorem joinNames_eq_append_slash_iff {names : List String}
    (whole : ∀ name ∈ names, '/' ∉ name.toList) {front back : List Char} :
    (joinNames names).toList = front ++ '/' :: back ↔
      ∃ before behind, before ≠ [] ∧ behind ≠ [] ∧ names = before ++ behind ∧
        front = (joinNames before).toList ∧
        back = (joinNames behind).toList := by
  constructor
  · intro same
    induction names generalizing front with
    | nil => simp [joinNames] at same
    | cons name rest induction =>
        rcases List.forall_mem_cons.1 whole with ⟨first, others⟩
        by_cases last : rest = []
        · rw [last, toList_joinNames_singleton] at same
          rw [same] at first
          exact absurd (List.mem_append_right _ (.head _)) first
        · rw [toList_joinNames_cons name last] at same
          have here : front = name.toList → back = (joinNames rest).toList →
              ∃ before behind, before ≠ [] ∧ behind ≠ [] ∧
              name :: rest = before ++ behind ∧
                front = (joinNames before).toList ∧
                back = (joinNames behind).toList :=
            fun ends follows => ⟨[name], rest, List.cons_ne_nil _ _, last, rfl,
              ends.trans (toList_joinNames_singleton name).symm, follows⟩
          -- The slash is the first one, or lies behind it; inside of the first
          -- name there is none.
          rcases List.append_eq_append_iff.1 same with
            ⟨gap, ends, follows⟩ | ⟨gap, ends, follows⟩
          · cases gap with
            | nil =>
                exact here (ends.trans (List.append_nil _))
                  (List.cons.inj follows).2.symm
            | cons slash gap =>
                rcases induction others (List.cons.inj follows).2 with
                  ⟨before, behind, some, more, rfl, rfl, later⟩
                refine ⟨name :: before, behind, List.cons_ne_nil _ _, more,
                  rfl, ?_, later⟩
                rw [ends, ← (List.cons.inj follows).1,
                  toList_joinNames_cons name some]
          · cases gap with
            | nil =>
                exact here (ends.trans (List.append_nil _)).symm
                  (List.cons.inj follows).2
            | cons slash gap =>
                rw [ends, ← (List.cons.inj follows).1] at first
                exact absurd (List.mem_append_right _ (.head _)) first
  · rintro ⟨before, behind, some, more, rfl, rfl, rfl⟩
    exact toList_joinNames_append some more

private theorem eq_singleton_of_joinNames {parts : List String} {name : String}
    (some : parts ≠ []) (whole : '/' ∉ name.toList)
    (same : name.toList = (joinNames parts).toList) :
    parts = [name] := by
  cases parts with
  | nil => exact absurd rfl some
  | cons first rest =>
      cases rest with
      | nil =>
          rw [toList_joinNames_singleton] at same
          rw [String.toList_injective same]
      | cons next rest =>
          rw [same, toList_joinNames_cons first (List.cons_ne_nil next rest)]
            at whole
          exact absurd (List.mem_append_right _ (.head _)) whole

end Path

/-! ## Names in front -/

section

variable {names : List String}

theorem accepts_name_iff (whole : ∀ name ∈ names, '/' ∉ name.toList)
    {name : String} (literal : Pattern.IsLiteral name.toList)
    (single : '/' ∉ name.toList) :
    (Pattern.ofChars (name.toList ++ "/**".toList)).accepts
      (Path.joinNames names).toList ↔ ∃ behind, behind ≠ [] ∧
      names = name :: behind := by
  have marked : Pattern.IsLiteral (name.toList ++ ['/']) := by
    intro c member
    rcases List.mem_append.1 member with inside | slash
    · exact literal c inside
    · rw [List.mem_singleton.1 slash]
      decide
  have written : name.toList ++ "/**".toList =
      (name.toList ++ ['/']) ++ ['*', '*'] :=
    List.append_cons ..
  rw [written, Pattern.accepts_literal_append_iff marked]
  constructor
  · rintro ⟨back, same, -⟩
    rw [List.append_assoc, List.singleton_append,
      Path.joinNames_eq_append_slash_iff whole] at same
    rcases same with ⟨before, behind, some, more, rfl, first, -⟩
    rw [Path.eq_singleton_of_joinNames some single first]
    exact ⟨behind, more, rfl⟩
  · rintro ⟨behind, more, rfl⟩
    refine ⟨(Path.joinNames behind).toList, ?_, Pattern.accepts_doubleStar _⟩
    rw [toList_joinNames_cons name more, List.append_assoc,
      List.singleton_append]

theorem patternExcludes_behind_iff (filled : names ≠ [])
    (whole : ∀ name ∈ names, '/' ∉ name.toList) (pattern : String) :
    patternExcludes ("**/" ++ pattern) (Path.joinNames names) ↔
      ∃ before behind, behind ≠ [] ∧ names = before ++ behind ∧
        (Pattern.ofString pattern).accepts (Path.joinNames behind).toList := by
  have written : ("**/" ++ pattern).toList = ['*', '*', '/'] ++
      pattern.toList :=
    String.toList_append
  rw [patternExcludes, Pattern.ofString, written, after?_eq_some_iff.2 rfl,
    Bool.or_eq_true]
  simp only [List.cons_append, List.nil_append,
    Pattern.accepts_behind_slash_iff, Path.joinNames_eq_append_slash_iff whole]
  constructor
  · rintro (⟨_, _, ⟨before, behind, -, more, same, -, rfl⟩,
      accepted⟩ | accepted)
    · exact ⟨before, behind, more, same, accepted⟩
    · exact ⟨[], names, filled, rfl, accepted⟩
  · rintro ⟨before, behind, more, same, accepted⟩
    by_cases none : before = []
    · rw [none, List.nil_append] at same
      exact .inr (same ▸ accepted)
    · exact .inl ⟨_, _, ⟨before, behind, none, more, same, rfl, rfl⟩, accepted⟩

theorem patternExcludes_between_iff (filled : names ≠ [])
    (whole : ∀ name ∈ names, '/' ∉ name.toList) {name : String}
    (literal : Pattern.IsLiteral name.toList) (single : '/' ∉ name.toList) :
    patternExcludes ("**/" ++ name ++ "/**") (Path.joinNames names) ↔
    name ∈ names.dropLast := by
  have written : (name ++ "/**").toList = name.toList ++ "/**".toList :=
    String.toList_append
  rw [String.append_assoc, patternExcludes_behind_iff filled whole,
    Pattern.ofString, written]
  constructor
  · rintro ⟨before, behind, -, rfl, accepted⟩
    have inside : ∀ other ∈ behind, '/' ∉ other.toList :=
      fun other member => whole other (List.mem_append_right _ member)
    rcases (accepts_name_iff inside literal single).1 accepted with
      ⟨more, ends, rfl⟩
    rw [List.dropLast_append_of_ne_nil (List.cons_ne_nil _ _),
      List.dropLast_cons_of_ne_nil ends]
    exact List.mem_append_right _ (.head _)
  · intro member
    rcases List.append_of_mem member with ⟨before, more, same⟩
    have split : names = before ++ name ::
        (more ++ [names.getLast filled]) := by
      rw [← List.cons_append, ← List.append_assoc, ← same,
        List.dropLast_concat_getLast]
    have inside : ∀ other ∈ name :: (more ++ [names.getLast filled]), '/' ∉
        other.toList :=
      fun other member => whole other (split ▸ List.mem_append_right _ member)
    exact ⟨before, _, List.cons_ne_nil _ _, split,
      (accepts_name_iff inside literal single).2 ⟨_, by simp, rfl⟩⟩

end

/-- Behind two stars and a slash a pattern leaves out the paths of which it
matches some end from a name on. With two stars on either side a literal name
leaves out the paths in which it is the name of a directory, and the standard
patterns leave out what is in a directory of packages anywhere, or of version
control at the root. -/
theorem isExcluded_by_names {names : List String} (filled : names ≠ [])
    (whole : ∀ name ∈ names, '/' ∉ name.toList) :
    (∀ pattern : String, isExcluded ["**/" ++ pattern] (Path.joinNames names) ↔
      ∃ before behind, behind ≠ [] ∧ names = before ++ behind ∧
        (Pattern.ofString pattern).accepts (Path.joinNames behind).toList) ∧
    (∀ name : String, Pattern.IsLiteral name.toList → '/' ∉ name.toList →
      (isExcluded ["**/" ++ name ++ "/**"] (Path.joinNames names) ↔
        name ∈ names.dropLast)) ∧
    (isExcluded (Config.standard.excludes.map normalizePattern)
      (Path.joinNames names) ↔ "node_modules" ∈ names.dropLast ∨
      names.head? = some ".git" ∧ 2 ≤ names.length) := by
  have alone (pattern : String) : isExcluded [pattern] (Path.joinNames names) =
      patternExcludes pattern (Path.joinNames names) := Bool.or_false _
  refine ⟨fun pattern => ?_, fun name literal single => ?_, ?_⟩
  · rw [alone]
    exact patternExcludes_behind_iff filled whole pattern
  · rw [alone]
    exact patternExcludes_between_iff filled whole literal single
  · have standard : Config.standard.excludes.map normalizePattern =
        ["**/" ++ "node_modules" ++ "/**", ".git/**"] := by decide +kernel
    have both : isExcluded ["**/" ++ "node_modules" ++ "/**", ".git/**"]
        (Path.joinNames names) =
          (patternExcludes ("**/" ++ "node_modules" ++ "/**")
            (Path.joinNames names) ||
              (patternExcludes ".git/**" (Path.joinNames names) || false)) :=
                rfl
    have atRoot : patternExcludes ".git/**" (Path.joinNames names) =
        ((Pattern.ofChars (".git".toList ++ "/**".toList)).accepts
          (Path.joinNames names).toList || false) := rfl
    rw [standard, both, atRoot, Bool.or_false, Bool.or_false, Bool.or_eq_true,
      patternExcludes_between_iff filled whole (by decide +kernel)
      (by decide +kernel), accepts_name_iff whole (by decide +kernel)
      (by decide +kernel)]
    refine or_congr_right ⟨?_, fun ⟨first, several⟩ => ?_⟩
    · rintro ⟨behind, more, rfl⟩
      exact ⟨rfl, Nat.succ_le_succ (List.length_pos_iff.2 more)⟩
    · rcases List.head?_eq_some_iff.1 first with ⟨behind, rfl⟩
      exact ⟨behind, List.length_pos_iff.1 (Nat.le_of_succ_le_succ several),
        rfl⟩

/-- Version control below another directory is kept, as are names that only
contain those of the standard patterns. -/
theorem isExcluded_by_names_nested :
    let names := ["my_node_modules", ".git", "a.md"]
    (names ≠ [] ∧ ∀ name ∈ names, '/' ∉ name.toList) ∧
      (Pattern.IsLiteral ".git".toList ∧ '/' ∉ ".git".toList) ∧
      isExcluded ["**/" ++ ".git" ++ "/**"] (Path.joinNames names) ∧
      ¬ isExcluded (Config.standard.excludes.map normalizePattern)
      (Path.joinNames names) := by
  intro names
  have whole : ∀ name ∈ names, '/' ∉ name.toList := by decide +kernel
  have literal : Pattern.IsLiteral ".git".toList := by decide +kernel
  have single : '/' ∉ ".git".toList := by decide +kernel
  rcases isExcluded_by_names (List.cons_ne_nil _ _) whole with
    ⟨-, named, standard⟩
  refine ⟨⟨List.cons_ne_nil _ _, whole⟩, ⟨literal, single⟩, ?_, ?_⟩
  · exact (named ".git" literal single).2 (by decide)
  · rw [standard]
    decide

end FencedJson
