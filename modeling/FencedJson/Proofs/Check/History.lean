import FencedJson.Proofs.Check.Recording
import FencedJson.Proofs.Entries

/-! # The history of a summary

Everything in a summary can be read off the records that were made in it. The
counts are numbers of records, each path stands at the place of its first record
with errors, and has the errors of its last one.
-/

namespace FencedJson.Check

namespace BlockError

def data (error : BlockError) : List (String × Datum) :=
  [("line", .integer error.line), ("column", .integer error.column),
    ("message", .text error.message)]

private theorem ofFields_data (error : BlockError) :
    ofFields error.data = .ok error :=
  ofParts_of_pos error.message (Int.ofNat_le.2 error.line_pos)
  (Int.ofNat_le.2 error.column_pos)

theorem mapM_ofFields_data (errors : List BlockError) :
    (errors.map data).mapM ofFields = .ok errors := by
  induction errors with
  | nil => rfl
  | cons error rest induction =>
      rw [List.map_cons, mapM_cons_except, ofFields_data, induction]
      rfl

/-- The line or the column of the data is a number below one. -/
def IsBelowOne (fields : List (String × Datum)) : Prop :=
  ∃ name ∈ ["line", "column"], ∃ datum number, fields.lookup name = some datum ∧
    datum.toInteger = .ok number ∧ number < 1

private theorem ordinal_of_lt {location : String} {datum : Datum} {number : Int}
    (read : datum.toInteger = .ok number) (low : number < 1) :
    ordinal location datum = .error [⟨location, .belowOne, datum⟩] := by
  have converted :
      Filled.convert location Datum.toInteger datum = .ok number := by
    rw [Filled.convert, read]
    rfl
  have none : ¬ 1 ≤ number.toNat := by omega
  simp only [ordinal, converted, none, dif_neg, not_false_eq_true]

private theorem exists_ordinal_of_ofFields {fields : List (String × Datum)}
    {error : BlockError} (made : ofFields fields = .ok error) {name : String}
    (named : name ∈ ["line", "column"]) :
    ∃ number, Filled.field fields name (Filled.missing fields name)
    (ordinal name) = .ok number := by
  unfold ofFields at made
  dsimp only at made
  split at made
  · next line column message filled =>
      rcases Filled.both_eq_ok_iff.1 filled with ⟨lineRead, others⟩
      rcases Filled.both_eq_ok_iff.1 others with ⟨columnRead, -⟩
      rcases List.mem_cons.1 named with rfl | named
      · exact ⟨_, lineRead⟩
      · rw [List.mem_singleton.1 named]
        exact ⟨_, columnRead⟩
  · cases made

theorem exists_refusal_of_isBelowOne {fields : List (String × Datum)}
    (low : IsBelowOne fields) :
    ∃ refusal, ofFields fields = .error refusal := by
  rcases low with ⟨name, named, datum, number, found, read, low⟩
  cases made : ofFields fields with
  | error refusal => exact ⟨refusal, rfl⟩
  | ok error =>
      rcases exists_ordinal_of_ofFields made named with ⟨ordinal, taken⟩
      rw [Filled.field, found] at taken
      cases (ordinal_of_lt read low).symm.trans taken

end BlockError

namespace Summary

/-! ## Records of errors -/

def failing (records : List (String × List BlockError)) :
    List (String × List BlockError) :=
  records.filter fun record => record.2 ≠ []

variable {records : List (String × List BlockError)}

theorem recordAll_spec (summary : Summary)
    (records : List (String × List BlockError)) :
    (summary.recordAll records).checked = summary.checked + records.length ∧
      (summary.recordAll records).valid =
        summary.valid + records.countP (fun record => record.2 = []) ∧
      (summary.recordAll records).invalid = summary.invalid +
        (failing records).length ∧
      (summary.recordAll records).errorsByPath =
        (failing records).foldl
          (fun entries record => putEntry record.1 record.2 entries)
          summary.errorsByPath := by
  induction records generalizing summary with
  | nil => exact ⟨rfl, rfl, rfl, rfl⟩
  | cons record rest induction =>
      rcases record with ⟨path, errors⟩
      rcases induction (summary.record path errors) with
        ⟨checked, valid, invalid, entries⟩
      rw [recordAll, List.foldl_cons, ← recordAll, checked, valid,
        invalid, entries]
      cases errors with
      | nil => simp [Summary.record, failing, Nat.add_assoc, Nat.add_comm 1]
      | cons error errors =>
          simp [Summary.record, failing, Nat.add_assoc, Nat.add_comm 1]

theorem errorsByPath_recordAll (records : List (String × List BlockError)) :
    (empty.recordAll records).errorsByPath = entriesOf (failing records) :=
  (recordAll_spec empty records).2.2.2

theorem keys_recordAll (records : List (String × List BlockError)) :
    (empty.recordAll records).errorsByPath.map Prod.fst =
      ((failing records).map Prod.fst).eraseDups := by
  rw [errorsByPath_recordAll, keys_entriesOf]

theorem passed_iff (records : List (String × List BlockError)) :
    (empty.recordAll records).passed ↔
    (empty.recordAll records).errorsByPath = [] := by
  rw [errorsByPath_recordAll, entriesOf_eq_nil_iff, passed,
    (recordAll_spec empty records).2.2.1]
  simp [empty]

/-- The errors are those of the last record of the path that has any. -/
def IsLast (records : List (String × List BlockError)) (path : String)
    (errors : List BlockError) : Prop :=
  errors ≠ [] ∧ ∃ before after, records = before ++ (path, errors) :: after ∧
    ∀ later ∈ after, later.1 = path → later.2 = []

theorem lookup_recordAll (records : List (String × List BlockError))
    (path : String) (errors : List BlockError) :
    (empty.recordAll records).errorsByPath.lookup path = some errors ↔
      IsLast records path errors := by
  rw [errorsByPath_recordAll, lookup_entriesOf, List.lookup_eq_some_iff]
  constructor
  · rintro ⟨back, front, split, absent⟩
    have whole : failing records = front.reverse ++ (path, errors) ::
        back.reverse := by
      rw [← List.reverse_reverse (failing records), split]
      simp
    rcases List.filter_eq_append_iff.1 whole with ⟨first, second, rfl, -, found⟩
    rcases List.filter_eq_cons_iff.1 found with
      ⟨skipped, after, rfl, -, some, later⟩
    refine ⟨by simpa using some, first ++ skipped,
      after, by simp, fun record member same => ?_⟩
    by_contra fails
    have among : record ∈ back := by
      rw [← List.mem_reverse, ← later]
      exact List.mem_filter.2 ⟨member, by simpa using fails⟩
    have other := absent record among
    simp [same] at other
  · rintro ⟨some, before, after, rfl, none⟩
    refine ⟨(failing after).reverse, (failing before).reverse, ?_,
      fun record member => ?_⟩
    · simp [failing, some]
    · rcases List.mem_filter.1 (List.mem_reverse.1 member) with ⟨member, fails⟩
      have other : path ≠ record.1 := by
        intro same
        exact (by simpa using fails : record.2 ≠ [])
          (none record member same.symm)
      simpa using other

theorem IsLast.mem {path : String} {errors : List BlockError}
    (last : IsLast records path errors) :
    (path, errors) ∈ records := by
  rcases last with ⟨-, before, after, rfl, -⟩
  exact List.mem_append_right _ (List.mem_cons_self ..)

theorem isLast_of_mem {group : String × List BlockError}
    (member : group ∈ entriesOf (failing records)) :
    IsLast records group.1 group.2 := by
  rw [← lookup_recordAll, errorsByPath_recordAll]
  exact lookup_of_mem (nodup_keys_entriesOf _) member

theorem isLast_iff_mem {path : String} {errors : List BlockError}
    (constant : ∀ errors', (path, errors') ∈ records →
      (path, errors) ∈ records → errors' = errors) :
      IsLast records path errors ↔ errors ≠ [] ∧ (path, errors) ∈ records := by
  refine ⟨fun last => ⟨last.1, last.mem⟩, ?_⟩
  rintro ⟨some, member⟩
  have fails : (path, errors) ∈ failing records :=
    List.mem_filter.2 ⟨member, by simpa using some⟩
  rcases List.mem_map.1 (mem_keys_entriesOf fails) with
    ⟨⟨name, kept⟩, entered, same⟩
  cases same
  have last : IsLast records path kept := isLast_of_mem entered
  rwa [constant kept last.mem member] at last

/-! ## Entries -/

theorem lookup_record_self (summary : Summary) (key : String)
    {errors : List BlockError} (some : errors ≠ []) :
    (summary.record key errors).errorsByPath.lookup key = .some errors := by
  cases errors with
  | nil => exact absurd rfl some
  | cons error rest =>
      exact lookup_putEntry_self key (error :: rest) summary.errorsByPath

private theorem lookup_record_of_ne (summary : Summary) {key other : String}
    (differs : other ≠ key) (errors : List BlockError) :
    (summary.record key errors).errorsByPath.lookup other =
      summary.errorsByPath.lookup other := by
  cases errors with
  | nil => rfl
  | cons error rest =>
      exact lookup_putEntry_of_ne differs (error :: rest) summary.errorsByPath

variable {key : String}

theorem lookup_recordAll_of_not_mem (summary : Summary)
    (absent : key ∉ records.map Prod.fst) :
    (summary.recordAll records).errorsByPath.lookup key =
      summary.errorsByPath.lookup key := by
  induction records generalizing summary with
  | nil => rfl
  | cons record rest induction =>
      rw [List.map_cons, List.mem_cons, not_or] at absent
      exact (induction (summary.record record.1 record.2) absent.2).trans
        (lookup_record_of_ne summary absent.1 record.2)

/-- What is recorded under a key again and again, always the same, is its entry
in the end. -/
theorem lookup_recordAll_of_mem (summary : Summary) {errors : List BlockError}
    (constant : ∀ errors', (key, errors') ∈ records → errors' = errors)
    (some : errors ≠ []) (member : (key, errors) ∈ records) :
    (summary.recordAll records).errorsByPath.lookup key = .some errors := by
  induction records generalizing summary with
  | nil => cases member
  | cons record rest induction =>
      have later := fun errors' member' =>
          constant errors' (List.mem_cons_of_mem record member')
      by_cases again : key ∈ rest.map Prod.fst
      · rcases List.mem_map.1 again with ⟨⟨_, errors'⟩, found, rfl⟩
        exact induction (summary.record record.1 record.2) later
          (later errors' found ▸ found)
      · have here : record = (key, errors) := by
          rcases List.mem_cons.1 member with here | found
          · exact here.symm
          · exact absurd (List.mem_map_of_mem found) again
        subst here
        exact (lookup_recordAll_of_not_mem
          (summary.record key errors) again).trans
            (lookup_record_self summary key some)

/-! ## Submissions -/

/-- A file that is to be recorded, with the data of its errors. -/
abbrev Submission := String × List (List (String × Datum))

def Submission.record? (submission : Submission) :
    Option (String × List BlockError) :=
  ((submission.2.mapM BlockError.ofFields).toOption).map (submission.1, ·)

def submitAll (summary : Summary) (submissions : List Submission) : Summary :=
  submissions.foldl (fun summary submission =>
    (summary.recordData submission.1 submission.2).1) summary

theorem submitAll_eq_recordAll (summary : Summary)
    (submissions : List Submission) :
    summary.submitAll submissions =
      summary.recordAll (submissions.filterMap Submission.record?) := by
  induction submissions generalizing summary with
  | nil => rfl
  | cons submission rest induction =>
      rw [submitAll, List.foldl_cons, ← submitAll, induction,
        List.filterMap_cons]
      unfold recordData Submission.record?
      cases submission.2.mapM BlockError.ofFields with
      | error refusal => rfl
      | ok errors => rfl

theorem recordData_of_isBelowOne (summary : Summary) (path : String)
    {errors : List (List (String × Datum))} {fields : List (String × Datum)}
    (member : fields ∈ errors) (low : BlockError.IsBelowOne fields) :
    ∃ refusal, summary.recordData path errors = (summary, .error refusal) := by
  have refused : ∃ refusal, errors.mapM BlockError.ofFields =
      .error refusal := by
    rcases BlockError.exists_refusal_of_isBelowOne low with ⟨refusal, refused⟩
    induction errors with
    | nil => cases member
    | cons first rest induction =>
        rw [mapM_cons_except]
        cases head : BlockError.ofFields first with
        | error other => exact ⟨other, rfl⟩
        | ok error =>
            rcases List.mem_cons.1 member with rfl | member
            · rw [head] at refused
              cases refused
            · rcases induction member with ⟨later, failed⟩
              exact ⟨later, by rw [failed]; rfl⟩
  rcases refused with ⟨refusal, refused⟩
  exact ⟨refusal, by rw [recordData, refused]⟩

end Summary

open Summary (Submission)

/-- What a new summary holds after any submissions can be read off the records
that they have made: how many there are of each kind, which paths had errors, in
the order of the first time, and for each the errors of the last time. A
submission with a line or a column below one makes no record; the data of errors
do. -/
theorem summary_history (submissions : List Submission) :
    let summary := Summary.empty.submitAll submissions
    let records := submissions.filterMap Submission.record?
    let paths := (records.filter fun record => record.2 ≠ []).map Prod.fst
    let keys := summary.errorsByPath.map Prod.fst
    summary.checked = records.length ∧
    summary.valid = records.countP (fun record => record.2 = []) ∧
    summary.invalid = records.countP (fun record => record.2 ≠ []) ∧
    (∀ path, path ∈ keys ↔ ∃ errors, (path, errors) ∈ records ∧ errors ≠ []) ∧
    (keys.Pairwise fun first second => paths.idxOf first < paths.idxOf second) ∧
    (∀ path errors, summary.errorsByPath.lookup path = some errors ↔
      errors ≠ [] ∧ ∃ before after, records = before ++
        (path, errors) :: after ∧ ∀ later ∈ after, later.1 = path →
        later.2 = []) ∧
    (summary.passed ↔ summary.errorsByPath = []) ∧
    keys.length ≤ summary.invalid ∧
    (keys.length = summary.invalid ↔ paths.Nodup) ∧
    (∀ path errors, Submission.record? (path, errors.map BlockError.data) =
      some (path, errors)) ∧ ∀ (state : Summary) (path : String)
      (errors : List (List (String × Datum))),
      ∀ fields ∈ errors, BlockError.IsBelowOne fields →
        ∃ refusal, state.recordData path errors = (state, .error refusal) := by
  intro summary records paths keys
  have made : summary = Summary.empty.recordAll records :=
    Summary.submitAll_eq_recordAll _ submissions
  rcases Summary.recordAll_spec .empty records with ⟨checked, valid, invalid, -⟩
  rw [← made, Summary.empty, Nat.zero_add] at checked valid invalid
  have erased : keys = paths.eraseDups := by
    have read := Summary.keys_recordAll records
    rwa [← made] at read
  have counted : summary.invalid = paths.length := by
    rw [invalid, List.length_map]
    rfl
  refine ⟨checked, valid, invalid.trans List.countP_eq_length_filter.symm,
    fun path => ?_, ?_, fun path errors => ?_, ?_, ?_, ?_, fun path errors =>
      ?_, fun state path errors fields => ?_⟩
  · rw [erased, List.mem_eraseDups]
    simp [paths]
  · rw [erased]
    exact pairwise_eraseDups paths
  · rw [made]
    exact Summary.lookup_recordAll records path errors
  · rw [made]
    exact Summary.passed_iff records
  · rw [erased, counted]
    exact (eraseDups_sublist paths).length_le
  · rw [erased, counted]
    exact length_eraseDups_eq_iff paths
  · rw [Submission.record?, BlockError.mapM_ofFields_data]
    rfl
  · exact Summary.recordData_of_isBelowOne state path

/-- The second file is recorded three times, the last time without errors, and
the data of a column zero are refused. -/
theorem summary_history_repeated :
    let error : BlockError := ⟨3, 1, "Extra data", by decide, by decide⟩
    let other : BlockError := ⟨9, 2, "Expecting value", by decide, by decide⟩
    let low :=
      [("line", Datum.integer 3), ("column", .integer 0),
        ("message", .text "x")]
    let submissions : List Submission :=
      [("a.md", [error.data]), ("b.md", [error.data]), ("a.md", []),
        ("b.md", [other.data]), ("b.md", []), ("c.md", [low])]
    let summary := Summary.empty.submitAll submissions
    summary.checked = 5 ∧ summary.errorsByPath.lookup "b.md" = some [other] ∧
      "c.md" ∉ summary.errorsByPath.map Prod.fst ∧
      (∃ refusal, summary.recordData "c.md" [low] = (summary, .error refusal)) ∧
      summary.passed = false := by
  intro error other low submissions summary
  have records : submissions.filterMap Submission.record? =
      [("a.md", [error]), ("b.md", [error]), ("a.md", []), ("b.md", [other]),
        ("b.md", [])] := by
    decide +kernel
  rcases summary_history submissions with
    ⟨checked, -, -, known, -, last, passed, -, -, -, refused⟩
  rw [records] at checked known last
  have kept : summary.errorsByPath.lookup "b.md" = some [other] := by
    refine (last "b.md" [other]).2 ⟨List.cons_ne_nil _ _,
      [("a.md", [error]), ("b.md", [error]), ("a.md", [])],
      [("b.md", [])], rfl, ?_⟩
    simp
  refine ⟨checked, kept, fun member => ?_, ?_, ?_⟩
  · rcases (known "c.md").1 member with ⟨errors, member, -⟩
    simp at member
  · refine refused summary "c.md" [low] low (List.mem_singleton_self _) ?_
    exact ⟨"column", by decide, .integer 0, 0, rfl, rfl, by decide⟩
  · rw [Bool.eq_false_iff]
    intro clean
    rw [passed.1 clean] at kept
    cases kept

end FencedJson.Check
