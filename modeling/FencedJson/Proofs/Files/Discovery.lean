import FencedJson.Files.Discovery
import FencedJson.Proofs.Except
import FencedJson.Proofs.Files.Selection

/-! # Patterns that include and exclude

A pattern includes files name by name and excludes them by their text as a
whole. It means the same files both ways, except for those that it includes with
a part of two stars, other than the first, that stands for no directory.
-/

namespace FencedJson

open GlobPart

/-! ## From names to texts -/

private theorem not_mem_of_mem_pieces {text piece : List Char}
    (member : piece ∈ Path.pieces text) :
    '/' ∉ piece := by
  induction text generalizing piece with
  | nil =>
      rcases List.mem_singleton.1 member with rfl
      exact List.not_mem_nil
  | cons c rest induction =>
      rw [Path.pieces] at member
      split at member
      · rcases List.mem_cons.1 member with rfl | later
        · exact List.not_mem_nil
        · exact induction later
      · rename_i other
        split at member
        · rcases List.mem_singleton.1 member with rfl
          exact fun inside => other (List.mem_singleton.1 inside).symm
        · rename_i first others shape
          rw [shape] at induction
          rcases List.mem_cons.1 member with rfl | later
          · rw [List.mem_cons, not_or]
            exact ⟨Ne.symm other, induction (.head _)⟩
          · exact induction (.tail _ later)

theorem not_mem_of_mem_parts {text name : String}
    (member : name ∈ (Path.ofString text).parts) :
    '/' ∉ name.toList := by
  rcases List.mem_map.1 (List.mem_filter.1 member).1 with ⟨piece, found, rfl⟩
  rw [String.toList_ofList]
  exact not_mem_of_mem_pieces found

theorem toList_joinNames_append {front back : List String} (some : front ≠ [])
    (more : back ≠ []) : (Path.joinNames (front ++ back)).toList =
      (Path.joinNames front).toList ++ '/' :: (Path.joinNames back).toList := by
  rw [Path.joinNames, String.intercalate_append_of_ne_nil some more]
  simp [Path.joinNames]

theorem toList_joinNames_singleton (name : String) :
    (Path.joinNames [name]).toList = name.toList := by
  rw [Path.joinNames, String.intercalate_singleton]

theorem toList_joinNames_cons (name : String) {rest : List String}
    (more : rest ≠ []) :
    (Path.joinNames (name :: rest)).toList =
      name.toList ++ '/' :: (Path.joinNames rest).toList := by
  rw [← toList_joinNames_singleton name]
  exact toList_joinNames_append (List.cons_ne_nil name []) more

theorem matches_doubleStar (text : List Char) :
    (Pattern.ofChars "**".toList).Matches text := by
  have parsed : Pattern.ofChars "**".toList = [.star, .star] := by
    rw [show "**".toList = ['*', '*'] from rfl, Pattern.ofChars_star,
      Pattern.ofChars_star, Pattern.ofChars]
  have all : Pattern.Matches [.star, .star] ([] ++ (text ++ [])) :=
    .star [] (.star text .nil)
  rw [parsed]
  simpa using all

theorem ofName_spec {text : String} {part : GlobPart}
    (parsed : ofName text = .ok part) :
    part = .directories ∧ text = "**" ∨
    part ≠ .directories ∧ text ≠ "**" ∧
      ∀ name, part.fits name ↔ (Pattern.ofString text).accepts name.toList := by
  unfold ofName at parsed
  split at parsed
  · cases parsed
    exact .inl ⟨rfl, by assumption⟩
  · next other =>
      split at parsed
      · cases parsed
      · split at parsed
        · cases parsed
          exact .inr ⟨nofun, other, fun name => Iff.rfl⟩
        · next plain =>
            cases parsed
            have literal : Pattern.IsLiteral text.toList := by
              intro c member
              simp only [List.any_eq_true, not_exists,
                decide_eq_true_eq] at plain
              have := plain c
              tauto
            refine .inr ⟨nofun, other, fun name => ?_⟩
            rw [Pattern.ofString, Pattern.accepts_literal_iff literal,
              String.toList_inj]
            simp [fits]

theorem eq_nil_iff_of_align {parts : List GlobPart} {names texts : List String}
    (align : Align 1 parts names) (parsed : texts.mapM ofName = .ok parts) :
    texts = [] ↔ names = [] := by
  cases texts with
  | nil =>
      cases parsed
      cases align
      simp
  | cons text texts =>
      rcases mapM_cons_eq_ok_iff.1 parsed with ⟨part, rest, _, _, rfl⟩
      cases align with
      | single => simp
      | run front enough => simp [List.length_pos_iff.1 enough]

/-- A text that matches names up to a slash can be put in front of texts that
match those behind it. -/
theorem matches_joinNames_cons {text : String} {texts front back : List String}
    (matched : (Pattern.ofChars text.toList).Matches
      (Path.joinNames front).toList)
    (some : front ≠ []) (whole : '/' ∉ text.toList)
    (ends : texts = [] ↔ back = [])
    (apart : Pattern.SlashesApart (Path.joinNames (text :: texts)).toList)
    (behind : Pattern.SlashesApart (Path.joinNames texts).toList →
      (Pattern.ofChars (Path.joinNames texts).toList).Matches
        (Path.joinNames back).toList) :
    (Pattern.ofChars (Path.joinNames (text :: texts)).toList).Matches
      (Path.joinNames (front ++ back)).toList := by
  by_cases last : texts = []
  · rw [ends.1 last, last, List.append_nil, toList_joinNames_singleton]
    exact matched
  · have more : back ≠ [] := fun none => last (ends.2 none)
    rw [toList_joinNames_cons text last] at apart ⊢
    rcases Pattern.ofChars_append_slash whole apart with ⟨same, apartBehind⟩
    rw [same, toList_joinNames_append some more]
    exact matched.append (.one (by decide) (behind apartBehind))

/-- Where every run of directories takes in a name, the texts of the parts with
slashes between them match the names with slashes between them. -/
theorem matches_of_align {parts : List GlobPart} {names texts : List String}
    (align : Align 1 parts names) (parsed : texts.mapM ofName = .ok parts)
    (whole : ∀ text ∈ texts, '/' ∉ text.toList)
    (apart : Pattern.SlashesApart (Path.joinNames texts).toList) :
    (Pattern.ofChars (Path.joinNames texts).toList).Matches
      (Path.joinNames names).toList := by
  induction align generalizing texts with
  | nil =>
      have empty : (Path.joinNames []).toList = [] := rfl
      rw [(eq_nil_iff_of_align .nil parsed).2 rfl, empty, Pattern.ofChars]
      exact .nil
  | @single part rest name names fits behind induction =>
      rcases mapM_eq_ok_cons_iff.1 parsed with ⟨text, texts, rfl, first, later⟩
      have matched : (Pattern.ofChars text.toList).Matches
          (Path.joinNames [name]).toList := by
        rw [toList_joinNames_singleton]
        rcases ofName_spec first with ⟨rfl, _⟩ | ⟨_, _, matched⟩
        · cases fits
        · exact Pattern.accepts_iff.1 ((matched name).1 fits)
      exact matches_joinNames_cons matched (List.cons_ne_nil _ _)
        (whole text (.head _)) (eq_nil_iff_of_align behind later) apart
        (induction later fun other member => whole other (.tail _ member))
  | @run rest back front enough behind induction =>
      rcases mapM_eq_ok_cons_iff.1 parsed with ⟨text, texts, rfl, first, later⟩
      have matched : (Pattern.ofChars text.toList).Matches
          (Path.joinNames front).toList := by
        rcases ofName_spec first with ⟨_, rfl⟩ | ⟨other, _⟩
        · exact matches_doubleStar _
        · exact absurd rfl other
      exact matches_joinNames_cons matched (List.length_pos_iff.1 enough)
        (whole text (.head _)) (eq_nil_iff_of_align behind later) apart
        (induction later fun other member => whole other (.tail _ member))

/-! ## From inclusion to exclusion -/

/-- The names of a pattern have single slashes between them, with at most one
behind, and no class in brackets holds a slash. -/
structure IsTidy (pattern : String) : Prop where
  written : pattern = Path.joinNames (Path.ofString pattern).parts ∨
    pattern = Path.joinNames (Path.ofString pattern).parts ++ "/"
  apart : Pattern.SlashesApart pattern.toList

/-- The path fits the parts with at least one name for every part that stands
for directories, other than one in front. -/
def Glob.Reaches (parts : List GlobPart) (path : List String) : Prop :=
  Align 1 parts path ∨ ∃ rest, parts = .directories :: rest ∧ Align 1 rest path

theorem parts_of_ofString {pattern : String} {glob : Glob}
    (parsed : Glob.ofString pattern = .ok glob) :
    (Path.ofString pattern).parts.mapM ofName = .ok glob.parts ∧
      glob.trailing = (pattern.toList.getLast? == some '/') := by
  unfold Glob.ofString at parsed
  dsimp only at parsed
  split at parsed
  · cases parsed
  · split at parsed
    · cases parsed
    · cases read : (Path.ofString pattern).parts.mapM ofName with
      | error problem =>
          rw [read] at parsed
          cases parsed
      | ok parts =>
          rw [read] at parsed
          cases parts with
          | nil => cases parsed
          | cons part rest =>
              cases parsed
              exact ⟨rfl, rfl⟩

private theorem written_of_not_trailing {pattern : String} {glob : Glob}
    (tidy : IsTidy pattern) (parsed : Glob.ofString pattern = .ok glob)
    (plain : glob.trailing = false) :
    pattern = Path.joinNames (Path.ofString pattern).parts := by
  rcases tidy.written with written | written
  · exact written
  · have slash : glob.trailing = true := by
      rw [(parts_of_ofString parsed).2, written, String.toList_append]
      simp
    rw [plain] at slash
    cases slash

theorem excludes_of_reaches {pattern : String} {glob : Glob}
    {path : List String} (tidy : IsTidy pattern)
    (parsed : Glob.ofString pattern = .ok glob) (plain : glob.trailing = false)
    (reaches : Glob.Reaches glob.parts path) :
    patternExcludes pattern (Path.joinNames path) := by
  have written := written_of_not_trailing tidy parsed plain
  have apart := tidy.apart
  have whole : ∀ text ∈ (Path.ofString pattern).parts, '/' ∉ text.toList :=
    fun text => not_mem_of_mem_parts
  have named := (parts_of_ofString parsed).1
  generalize (Path.ofString pattern).parts = texts at written whole named
  rw [written] at apart
  rw [patternExcludes, Bool.or_eq_true]
  rcases reaches with align | ⟨rest, shape, align⟩
  · refine .inl (Pattern.accepts_iff.2 ?_)
    rw [written]
    exact matches_of_align align named whole apart
  · rw [shape] at named
    rcases mapM_eq_ok_cons_iff.1 named with ⟨text, texts, rfl, first, later⟩
    rcases ofName_spec first with ⟨_, rfl⟩ | ⟨other, _⟩
    · by_cases last : texts = []
      · subst last
        refine .inl (Pattern.accepts_iff.2 ?_)
        rw [written, Pattern.ofString, toList_joinNames_singleton]
        exact matches_doubleStar _
      · have parted := toList_joinNames_cons "**" last
        rw [parted] at apart
        have behind :=
          (Pattern.ofChars_append_slash (whole _ (.head _)) apart).2
        -- The stars in front may be left out, and what is left has to match all
        -- of the path.
        right
        rw [written, parted]
        exact Pattern.accepts_iff.2 (matches_of_align align later
          (fun other member => whole other (.tail _ member)) behind)
    · exact absurd rfl other

theorem reaches_of_mem_paths {disk : Disk}
    {base path : List String} {glob : Glob} (proper : disk.tree.isProper)
    (edges : .directories ∉ glob.parts.tail.dropLast)
    (selected : path ∈ glob.paths disk base)
    (file : disk.isFile (base ++ path)) :
    Glob.Reaches glob.parts path := by
  have other := Disk.not_isDirectory_of_isFile file
  unfold Glob.paths at selected
  rcases List.mem_ite_nil_right.1 selected with ⟨stands, selected⟩
  rcases glob with ⟨parts, trailing⟩
  dsimp only at selected edges ⊢
  rw [← List.append_nil base] at stands
  by_cases lead : ∃ rest, parts = .directories :: rest
  · rcases lead with ⟨rest, rfl⟩
    rcases Glob.mem_select_cons selected with
      ⟨name, fits, _⟩ | ⟨_, found, way, here, listed, behind⟩
    · cases fits
    · have there := Disk.isDirectory_of_listed proper here listed
      rw [List.append_assoc] at there
      rcases Glob.align_of_mem_select proper
        (.inr ⟨rfl, edges, other⟩) there behind with ⟨names, rfl, align⟩
      -- A run in front that takes in no name is what the second way of reaching
      -- is there for.
      by_cases none : way = []
      · rw [none]
        exact .inr ⟨rest, rfl, align⟩
      · exact .inl (.run way (List.length_pos_iff.2 none) align)
  -- Without a run in front no part but the last one may be a run.
  · have inner : .directories ∉ parts.dropLast := by
      intro inside
      cases parts with
      | nil => cases inside
      | cons part rest =>
          cases rest with
          | nil => cases inside
          | cons next rest =>
              rcases List.mem_cons.1 inside with rfl | later
              · exact lead ⟨_, rfl⟩
              · exact edges later
    rcases Glob.align_of_mem_select proper
      (.inr ⟨rfl, inner, other⟩) stands selected with ⟨names, rfl, align⟩
    exact .inl align

theorem findFiles_eq_ok_iff {disk : Disk} {root : Path}
    {includes excludes : List String} {files : List (List String)} :
    findFiles disk root includes excludes = .ok files ↔
      ∃ base globs, disk.resolve root = .ok base ∧
        (includes.mapM fun text => Glob.ofString (normalizePattern text)) =
          .ok globs ∧
        files = ((globs.flatMap (matchedFiles disk base
          (excludes.map normalizePattern))).eraseDups.mergeSort namesBefore).map
            (base ++ ·) := by
  unfold findFiles filesBelow
  cases disk.resolve root with
  | error names => simp
  | ok base =>
      cases includes.mapM fun text => Glob.ofString (normalizePattern text) with
      | error problem => simp [Except.map]
      | ok globs => simp [Except.map, eq_comm]

theorem findFiles_single_eq_ok_iff {disk : Disk} {root : Path}
    {pattern : String} {excludes : List String} {files : List (List String)} :
    findFiles disk root [pattern] excludes = .ok files ↔
      ∃ base glob, disk.resolve root = .ok base ∧
        Glob.ofString (normalizePattern pattern) = .ok glob ∧
        files =
          (((matchedFiles disk base
            (excludes.map normalizePattern) glob).eraseDups.mergeSort
              namesBefore).map (base ++ ·)) := by
  rw [findFiles_eq_ok_iff]
  cases read : Glob.ofString (normalizePattern pattern) with
  | error problem => simp [read]
  | ok glob => simp [read]

theorem mem_files_iff {disk : Disk} {base path excludes : List String}
    {glob : Glob} :
    base ++ path ∈ ((matchedFiles disk base excludes glob).eraseDups.mergeSort
        namesBefore).map (base ++ ·) ↔
      path ∈ glob.paths disk base ∧ disk.isFile (base ++ path) ∧
        ¬ isExcluded excludes (Path.joinNames path) := by
  simp [List.mem_mergeSort, List.mem_eraseDups, matchedFiles]

/-- A file that a tidy pattern includes and does not exclude is one for which a
part of two stars, other than the first, stands for no directory. -/
theorem reaches_of_excluded {disk : Disk} {base path : List String}
    {pattern : String} {glob : Glob} (proper : disk.tree.isProper)
    (tidy : IsTidy pattern) (parsed : Glob.ofString pattern = .ok glob)
    (selected : path ∈ glob.paths disk base) (file : disk.isFile (base ++ path))
    (kept : ¬ isExcluded [pattern] (Path.joinNames path)) :
    Align 0 glob.parts path ∧ ¬ Glob.Reaches glob.parts path := by
  have stands := (List.mem_ite_nil_right.1 selected).1
  have selected := (List.mem_ite_nil_right.1 selected).2
  rw [← List.append_nil base] at stands
  constructor
  · rcases Glob.align_of_mem_select proper (.inl rfl) stands selected with
      ⟨names, rfl, align⟩
    exact align
  · intro reaches
    cases slash : glob.trailing with
    | true =>
        rw [slash] at selected
        exact Disk.not_isDirectory_of_isFile file
          (Glob.isDirectory_of_mem_select proper (.inl rfl) stands selected)
    | false =>
        have excluded := excludes_of_reaches tidy parsed slash reaches
        exact kept (by simpa [isExcluded] using excluded)

/-- What a tidy pattern includes it also excludes, apart from files for which a
part of two stars, other than the first, stands for no directory. Nothing is
left when no such part stands between others. -/
theorem findFiles_included_excluded {disk : Disk} {root : Path}
    {pattern : String} {files : List (List String)}
    (proper : disk.tree.isProper) (tidy : IsTidy (normalizePattern pattern))
    (found : findFiles disk root [pattern] [] = .ok files) :
    ∃ base glob kept, disk.resolve root = .ok base ∧
      Glob.ofString (normalizePattern pattern) = .ok glob ∧
      findFiles disk root [pattern] [pattern] = .ok kept ∧ kept ⊆ files ∧
      (∀ file ∈ kept, ∃ path, file = base ++ path ∧ Align 0 glob.parts path ∧
        ¬ Glob.Reaches glob.parts path) ∧
      (.directories ∉ glob.parts.tail.dropLast → kept = []) := by
  rcases findFiles_single_eq_ok_iff.1 found with
    ⟨base, glob, resolved, parsed, rfl⟩
  refine ⟨base, glob, _, resolved, parsed,
    findFiles_single_eq_ok_iff.2 ⟨base, glob, resolved, parsed, rfl⟩, ?_,
    ?_, ?_⟩
  · intro file member
    rcases List.mem_map.1 member with ⟨path, _, rfl⟩
    rcases mem_files_iff.1 member with ⟨selected, file, _⟩
    exact mem_files_iff.2 ⟨selected, file, Bool.false_ne_true⟩
  · intro file member
    rcases List.mem_map.1 member with ⟨path, _, rfl⟩
    rcases mem_files_iff.1 member with ⟨selected, file, kept⟩
    exact ⟨path, rfl, reaches_of_excluded proper tidy parsed selected file kept⟩
  · intro edges
    apply List.eq_nil_iff_forall_not_mem.2
    intro file member
    rcases List.mem_map.1 member with ⟨path, _, rfl⟩
    rcases mem_files_iff.1 member with ⟨selected, file, kept⟩
    exact (reaches_of_excluded proper tidy parsed selected file kept).2
      (reaches_of_mem_paths proper edges selected file)

theorem findFiles_included_excluded_class :
    let disk : Disk :=
      ⟨.directory [("docs", .directory [("b.md", .file [])])], []⟩
    let pattern := "./**/[a-c].md"
    disk.tree.isProper ∧ IsTidy (normalizePattern pattern) ∧
      findFiles disk ⟨"", []⟩ [pattern] [] = .ok [["docs", "b.md"]] ∧
      findFiles disk ⟨"", []⟩ [pattern] [pattern] = .ok [] := by
  intro disk pattern
  have proper : disk.tree.isProper := by decide +kernel
  have plain : normalizePattern pattern = "**/[a-c].md" := by decide +kernel
  have apart : Pattern.SlashesApart "**/[a-c].md".toList := by
    have behind : Pattern.SlashesApart ".md".toList :=
      .other (by decide) (.other (by decide) (.other (by decide) .nil))
    have closed : CharClass.content? "a-c].md".toList =
        some ("a-c".toList, ".md".toList) := rfl
    have name : Pattern.SlashesApart "[a-c].md".toList :=
      .closed closed (by decide) behind
    exact .other (by decide) (.other (by decide) (.other (by decide) name))
  have tidy : IsTidy (normalizePattern pattern) := by
    rw [plain]
    exact ⟨.inl (by decide +kernel), apart⟩
  have parsed : Glob.ofString (normalizePattern pattern) =
      .ok ⟨[.directories, .wildcard (.ofString "[a-c].md")],
        false⟩ := by decide +kernel
  have resolved : disk.resolve ⟨"", []⟩ = .ok [] := by decide +kernel
  have found : findFiles disk ⟨"", []⟩ [pattern] [] =
      .ok [["docs", "b.md"]] := by
    refine findFiles_single_eq_ok_iff.2 ⟨_, _, resolved, parsed, ?_⟩
    decide +kernel
  rcases findFiles_included_excluded proper tidy found with
    ⟨_, glob, kept, _, read, excluded, _, _, none⟩
  rw [parsed] at read
  cases read
  rw [none (by decide)] at excluded
  exact ⟨proper, tidy, found, excluded⟩

/-- Between other parts, two stars that stand for no directory include a file
only. -/
theorem findFiles_included_excluded_inner :
    let disk : Disk := ⟨.directory [("a", .directory [("b.md", .file [])])], []⟩
    findFiles disk ⟨"", []⟩ ["a/**/b.md"] [] = .ok [["a", "b.md"]] ∧
      findFiles disk ⟨"", []⟩ ["a/**/b.md"] ["a/**/b.md"] =
        .ok [["a", "b.md"]] := by
  intro disk
  have resolved : disk.resolve ⟨"", []⟩ = .ok [] := by decide +kernel
  have parsed : Glob.ofString (normalizePattern "a/**/b.md") =
      .ok ⟨[.name "a", .directories, .name "b.md"], false⟩ := by decide +kernel
  constructor
  · refine findFiles_single_eq_ok_iff.2 ⟨_, _, resolved, parsed, ?_⟩
    decide +kernel
  · refine findFiles_single_eq_ok_iff.2 ⟨_, _, resolved, parsed, ?_⟩
    decide +kernel

end FencedJson
