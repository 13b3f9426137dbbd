import FencedJson.Entries
import Mathlib.Data.List.Induction
import Mathlib.Data.List.Nodup

/-! # Pairs entered one after the other

Entering pairs keeps every key once, at the place where it first occurs, with
the value of its last pair.
-/

namespace FencedJson

variable {κ ν : Type} [DecidableEq κ]

def lastEntries (pairs : List (κ × ν)) : List (κ × ν) :=
  (pairs.map Prod.fst).eraseDups.filterMap fun key =>
    (pairs.reverse.lookup key).map (key, ·)

example : lastEntries [("a", 1), ("b", 2), ("a", 3)] =
    [("a", 3), ("b", 2)] := by decide

theorem lookup_of_mem {entries : List (κ × ν)} {key : κ} {value : ν}
    (unique : (entries.map Prod.fst).Nodup) (member : (key, value) ∈ entries) :
    entries.lookup key = some value := by
  induction entries with
  | nil => cases member
  | cons entry rest induction =>
      rcases List.nodup_cons.1 unique with ⟨new, restUnique⟩
      rcases List.mem_cons.1 member with rfl | later
      · exact List.lookup_cons_self
      · have differs : (key == entry.1) = false := by
          apply beq_false_of_ne
          rintro rfl
          exact new (List.mem_map.2 ⟨_, later, rfl⟩)
        rw [List.lookup_cons, differs]
        exact induction restUnique later

theorem lookup_putEntry_of_ne {key other : κ}
    (differs : other ≠ key) (value : ν) (entries : List (κ × ν)) :
    (putEntry key value entries).lookup other = entries.lookup other := by
  induction entries with
  | nil => simp [putEntry, differs]
  | cons entry rest induction =>
      rcases entry with ⟨first, old⟩
      by_cases same : first = key
      · have unlike : (other == key) = false := beq_eq_false_iff_ne.2 differs
        simp [putEntry, same, List.lookup_cons, unlike]
      · simp [putEntry, same, List.lookup_cons, induction]

theorem filterMap_lookup_keys {entries : List (κ × ν)}
    (unique : (entries.map Prod.fst).Nodup) :
    ((entries.map Prod.fst).filterMap fun key => (entries.lookup key).map
      (key, ·)) = entries := by
  induction entries with
  | nil => rfl
  | cons entry rest induction =>
      rcases entry with ⟨first, value⟩
      rw [List.map_cons, List.nodup_cons] at unique
      rw [List.map_cons, List.filterMap_cons, List.lookup_cons_self]
      refine congrArg _ (Eq.trans (List.filterMap_congr fun key member => ?_)
        (induction unique.2))
      have differs : (key == first) = false := by
        rw [beq_eq_false_iff_ne]
        rintro rfl
        exact unique.1 member
      rw [List.lookup_cons, differs]

theorem entriesOf_append_singleton (pairs : List (κ × ν)) (pair : κ × ν) :
    entriesOf (pairs ++ [pair]) = putEntry pair.1 pair.2 (entriesOf pairs) := by
  simp [entriesOf]

theorem eraseDups_append_singleton (keys : List κ) (key : κ) :
    (keys ++ [key]).eraseDups =
      if key ∈ keys then keys.eraseDups else keys.eraseDups ++ [key] := by
  rw [List.eraseDups_append]
  by_cases known : key ∈ keys
  · simp [List.removeAll, known]
  · simp [List.removeAll, known, List.eraseDups_cons]

theorem keys_entriesOf (pairs : List (κ × ν)) :
    (entriesOf pairs).map Prod.fst = (pairs.map Prod.fst).eraseDups := by
  induction pairs using List.reverseRecOn with
  | nil => rfl
  | append_singleton pairs pair induction =>
      rw [entriesOf_append_singleton, keys_putEntry, induction, List.map_append,
        List.map_singleton, eraseDups_append_singleton]
      simp only [List.mem_eraseDups]

theorem mem_keys_entriesOf {pairs : List (κ × ν)} {pair : κ × ν}
    (member : pair ∈ pairs) :
    pair.1 ∈ (entriesOf pairs).map Prod.fst := by
  rw [keys_entriesOf, List.mem_eraseDups]
  exact List.mem_map_of_mem member

theorem entriesOf_eq_nil_iff (pairs : List (κ × ν)) : entriesOf pairs = [] ↔
    pairs = [] := by
  constructor
  · intro none
    refine List.eq_nil_iff_forall_not_mem.2 fun pair member => ?_
    have key := mem_keys_entriesOf member
    rw [none] at key
    cases key
  · rintro rfl
    rfl

theorem lookup_entriesOf (pairs : List (κ × ν)) (key : κ) :
    (entriesOf pairs).lookup key = pairs.reverse.lookup key := by
  induction pairs using List.reverseRecOn with
  | nil => rfl
  | append_singleton pairs pair induction =>
      rcases pair with ⟨entered, value⟩
      rw [entriesOf_append_singleton, List.reverse_append]
      by_cases same : key = entered
      · subst same
        simp [lookup_putEntry_self]
      · have differs : (key == entered) = false := beq_eq_false_iff_ne.2 same
        simp [lookup_putEntry_of_ne same, List.lookup_cons, differs, induction]

theorem nodup_eraseDups {α : Type} [BEq α] [LawfulBEq α] (items : List α) :
    items.eraseDups.Nodup := by
  match items with
  | [] => exact .nil
  | item :: rest =>
      rw [List.eraseDups_cons, List.nodup_cons, List.mem_eraseDups]
      exact ⟨by simp, nodup_eraseDups _⟩
termination_by items.length
decreasing_by
  exact Nat.lt_succ_of_le (List.length_filter_le _ _)

theorem eraseDups_of_nodup {α : Type} [BEq α] [LawfulBEq α] {items : List α}
    (unique : items.Nodup) : items.eraseDups = items := by
  induction items with
  | nil => rfl
  | cons item rest induction =>
      rcases List.nodup_cons.1 unique with ⟨new, others⟩
      have kept : rest.filter (fun other => !other == item) = rest := by
        refine List.filter_eq_self.2 fun other member => ?_
        have differs : other ≠ item := fun same => new (same ▸ member)
        simpa using differs
      rw [List.eraseDups_cons, kept, induction others]

theorem pairwise_eraseDups (keys : List κ) :
    keys.eraseDups.Pairwise fun first second => keys.idxOf first <
      keys.idxOf second := by
  induction keys using List.reverseRecOn with
  | nil => exact .nil
  | append_singleton keys key induction =>
      have kept : keys.eraseDups.Pairwise fun first second =>
          (keys ++ [key]).idxOf first < (keys ++ [key]).idxOf second := by
        refine induction.imp_of_mem fun first second below => ?_
        rwa [List.idxOf_append_of_mem (List.mem_eraseDups.1 first),
          List.idxOf_append_of_mem (List.mem_eraseDups.1 second)]
      rw [eraseDups_append_singleton]
      split
      · exact kept
      · next new =>
          refine List.pairwise_append.2 ⟨kept, List.pairwise_singleton .., ?_⟩
          intro first member second last
          have among := List.mem_eraseDups.1 member
          rw [List.mem_singleton.1 last, List.idxOf_append_of_mem among,
            List.idxOf_append_of_notMem new]
          exact Nat.lt_add_right _ (List.idxOf_lt_length_of_mem among)

theorem eraseDups_sublist (keys : List κ) : keys.eraseDups.Sublist keys := by
  induction keys using List.reverseRecOn with
  | nil => exact .slnil
  | append_singleton keys key induction =>
      rw [eraseDups_append_singleton]
      split
      · exact induction.trans (List.sublist_append_left keys [key])
      · exact induction.append_right [key]

theorem length_eraseDups_eq_iff (keys : List κ) :
    keys.eraseDups.length = keys.length ↔ keys.Nodup := by
  constructor
  · intro same
    rw [← (eraseDups_sublist keys).eq_of_length same]
    exact nodup_eraseDups keys
  · intro unique
    rw [eraseDups_of_nodup unique]

theorem nodup_keys_entriesOf (pairs : List (κ × ν)) :
    ((entriesOf pairs).map Prod.fst).Nodup := by
  rw [keys_entriesOf]
  exact nodup_eraseDups _

theorem entriesOf_eq_lastEntries (pairs : List (κ × ν)) :
    entriesOf pairs = lastEntries pairs := by
  have unique := nodup_keys_entriesOf pairs
  calc entriesOf pairs
    _ = ((entriesOf pairs).map Prod.fst).filterMap fun key =>
          ((entriesOf pairs).lookup key).map (key, ·) :=
            (filterMap_lookup_keys unique).symm
    _ = lastEntries pairs := by
      rw [keys_entriesOf, lastEntries]
      simp only [lookup_entriesOf]

end FencedJson
