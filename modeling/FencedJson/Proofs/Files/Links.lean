import FencedJson.Files.Tree
import Mathlib.Data.List.Basic

/-! # Links that come to an end

A path at which something stands can be freed of its links: what a walk finds,
following the links until their budget is spent, is also where the path leads
when no link may be met again while it is being followed.
-/

namespace FencedJson

theorem FileTree.at?_append (tree : FileTree) (front back : List String) :
    tree.at? (front ++ back) = (tree.at? front).bind fun inner =>
      inner.at? back := by
  induction front generalizing tree with
  | nil => rfl
  | cons name rest induction =>
      change (tree.child? name).bind (fun inner => inner.at? (rest ++ back)) =
        ((tree.child? name).bind fun inner => inner.at? rest).bind fun inner =>
          inner.at? back
      cases tree.child? name with
      | none => rfl
      | some inner => exact induction inner

theorem FileTree.at?_append_singleton (tree : FileTree) (names : List String)
    (name : String) :
    tree.at? (names ++ [name]) = (tree.at? names).bind fun inner =>
      inner.child? name := by
  rw [at?_append]
  congr
  funext inner
  exact Option.bind_fun_some _

namespace Disk

variable {disk : Disk}

/-- The way along names from a directory leads to other names, over so many
links. -/
inductive Leads (disk : Disk) : List String → List String → Nat →
    List String → Prop
  | arrived (base : List String) : Leads disk base [] 0 base
  | up {base rest stop : List String} {links : Nat}
      {entries : List (String × FileTree)}
      (stands : disk.tree.at? base = some (.directory entries))
      (further : Leads disk base.dropLast rest links stop) :
      Leads disk base (".." :: rest) links stop
  | down {base rest stop : List String} {links : Nat}
      {entries : List (String × FileTree)} {name : String} {inner : FileTree}
      (stands : disk.tree.at? base = some (.directory entries))
      (named : name ≠ "..") (found : entries.lookup name = some inner)
      (plain : ∀ target, inner ≠ .link target)
      (further : Leads disk (base ++ [name]) rest links stop) :
      Leads disk base (name :: rest) links stop
  | link {base rest middle stop : List String} {inside outside : Nat}
      {entries : List (String × FileTree)} {name : String} {target : Path}
      (stands : disk.tree.at? base = some (.directory entries))
      (named : name ≠ "..") (found : entries.lookup name = some (.link target))
      (behind : Leads disk (linkStart base target) target.parts inside middle)
      (further : Leads disk middle rest outside stop) :
      Leads disk base (name :: rest) (inside + outside + 1) stop

namespace Leads

variable {base front back stop : List String} {links : Nat}

theorem split (leads : Leads disk base (front ++ back) links stop) :
    ∃ first second middle, Leads disk base front first middle ∧
      Leads disk middle back second stop ∧ links = first + second := by
  generalize whole : front ++ back = parts at leads
  induction leads generalizing front with
  | arrived base =>
      rcases List.append_eq_nil_iff.1 whole with ⟨rfl, rfl⟩
      exact ⟨0, 0, base, .arrived base, .arrived base, rfl⟩
  | up stands further induction =>
      cases front with
      | nil =>
          subst whole
          exact ⟨0, _, _, .arrived _, .up stands further, (Nat.zero_add _).symm⟩
      | cons name front =>
          cases whole
          rcases induction rfl with ⟨first, second, middle, near, far, sum⟩
          exact ⟨first, second, middle, .up stands near, far, sum⟩
  | down stands named found plain further induction =>
      cases front with
      | nil =>
          subst whole
          exact ⟨0, _, _, .arrived _, .down stands named found plain further,
            (Nat.zero_add _).symm⟩
      | cons name front =>
          cases whole
          rcases induction rfl with ⟨first, second, middle, near, far, sum⟩
          exact ⟨first, second, middle,
            .down stands named found plain near, far, sum⟩
  | link stands named found behind further _ induction =>
      cases front with
      | nil =>
          subst whole
          exact ⟨0, _, _, .arrived _, .link stands named found behind further,
            (Nat.zero_add _).symm⟩
      | cons name front =>
          cases whole
          rcases induction rfl with ⟨first, second, middle, near, far, rfl⟩
          exact ⟨_, second, middle, .link stands named found behind near,
            far, by omega⟩

theorem child_unique {names : List String}
    {entries entries' : List (String × FileTree)} {name : String}
    {inner inner' : FileTree}
    (stands : disk.tree.at? names = some (.directory entries))
    (found : entries.lookup name = some inner)
    (stands' : disk.tree.at? names = some (.directory entries'))
    (found' : entries'.lookup name = some inner') : inner' = inner := by
  rw [stands] at stands'
  cases stands'
  rw [found] at found'
  cases found'
  rfl

theorem unique {stop' : List String} {links' : Nat}
    (leads : Leads disk base front links stop)
    (again : Leads disk base front links' stop') : links' = links ∧
    stop' = stop := by
  induction leads generalizing links' stop' with
  | arrived base =>
      cases again
      exact ⟨rfl, rfl⟩
  | up stands further induction =>
      cases again with
      | up _ further' => exact induction further'
      | down _ named => exact absurd rfl named
      | link _ named => exact absurd rfl named
  | down stands named found plain further induction =>
      cases again with
      | up => exact absurd rfl named
      | down _ _ _ _ further' => exact induction further'
      | link stands' _ found' =>
          exact absurd (child_unique stands found stands' found').symm (plain _)
  | link stands named found behind further behindInduction induction =>
      cases again with
      | up => exact absurd rfl named
      | down stands' _ found' plain =>
          exact absurd (child_unique stands found stands' found') (plain _)
      | link stands' _ found' behind' further' =>
          cases child_unique stands found stands' found'
          rcases behindInduction behind' with ⟨rfl, rfl⟩
          rcases induction further' with ⟨rfl, rfl⟩
          exact ⟨rfl, rfl⟩

end Leads

theorem leads_of_walk {budget : Nat} {base parts stop : List String}
    (walked : disk.walk budget base parts = .ok stop) :
    ∃ links ≤ budget, Leads disk base parts links stop := by
  fun_induction walk disk budget base parts with
  | case1 =>
      cases walked
      exact ⟨0, Nat.zero_le _, .arrived _⟩
  | case2 budget base rest entries stands induction =>
      rcases induction walked with ⟨links, within, leads⟩
      exact ⟨links, within, .up stands leads⟩
  | case3 | case4 | case7 | case8 => cases walked
  | case5 base name rest entries stands named target found budget induction =>
      rcases induction walked with ⟨links, within, leads⟩
      rcases leads.split with ⟨inside, outside, middle, behind, further, rfl⟩
      exact ⟨inside + outside + 1, Nat.succ_le_succ within,
        .link stands named found behind further⟩
  | case6 budget base name rest entries stands named inner plain
      found induction =>
      rcases induction walked with ⟨links, within, leads⟩
      refine ⟨links, within, .down stands named found ?_ leads⟩
      intro target same
      exact plain target same

/-! ## One name of a walk -/

section

variable {base rest : List String} {entries : List (String × FileTree)}
  {name : String}

theorem walk_of_up (stands : disk.tree.at? base = some (.directory entries))
    (budget : Nat) :
    disk.walk budget base (".." :: rest) =
      disk.walk budget base.dropLast rest := by
  rw [walk]
  split
  · rw [if_pos rfl]
  · next noDirectory here =>
      exact (noDirectory entries
        (Option.some.inj (here.symm.trans stands))).elim
  · next nothing => cases nothing.symm.trans stands

theorem walk_of_plain {inner : FileTree}
    (stands : disk.tree.at? base = some (.directory entries))
    (named : name ≠ "..") (found : entries.lookup name = some inner)
    (plain : ∀ target, inner ≠ .link target) (budget : Nat) :
    disk.walk budget base (name :: rest) = disk.walk budget
      (base ++ [name]) rest := by
  rw [walk]
  split
  · next same =>
      cases stands.symm.trans same
      rw [if_neg named]
      split
      · next missing => cases found.symm.trans missing
      · next target link =>
            exact absurd (Option.some.inj (found.symm.trans link))
              (plain target)
      · rfl
  · next noDirectory here =>
      exact (noDirectory entries
        (Option.some.inj (here.symm.trans stands))).elim
  · next nothing => cases nothing.symm.trans stands

private theorem walk_of_link {target : Path}
    (stands : disk.tree.at? base = some (.directory entries))
    (named : name ≠ "..") (found : entries.lookup name = some (.link target))
    (budget : Nat) :
    disk.walk (budget + 1) base (name :: rest) =
      disk.walk budget (linkStart base target) (target.parts ++ rest) := by
  rw [walk]
  split
  · next same =>
      cases stands.symm.trans same
      rw [if_neg named]
      split
      · next missing => cases found.symm.trans missing
      · next link =>
          cases found.symm.trans link
          rfl
      · next noLink plain =>
          exact (noLink target (Option.some.inj (plain.symm.trans found))).elim
  · next noDirectory here =>
      exact (noDirectory entries
        (Option.some.inj (here.symm.trans stands))).elim
  · next nothing => cases nothing.symm.trans stands

end

/-- A walk along a way within the budget goes on from the end of the way, with
the budget that is left. -/
theorem walk_append_of_leads {base parts stop : List String} {links : Nat}
    (leads : Leads disk base parts links stop) {budget : Nat}
    (within : links ≤ budget) (more : List String) :
    disk.walk budget base (parts ++ more) =
      disk.walk (budget - links) stop more := by
  induction leads generalizing budget more with
  | arrived base => rfl
  | up stands _ induction =>
      rw [List.cons_append, walk_of_up stands]
      exact induction within more
  | down stands named found plain _ induction =>
      rw [List.cons_append, walk_of_plain stands named found plain]
      exact induction within more
  | @link base rest middle stop inside outside entries name target stands
      named found _ _ behindInduction induction =>
      rcases Nat.exists_eq_add_of_le' (Nat.one_le_of_lt within) with
        ⟨budget, rfl⟩
      have left : budget - inside - outside = budget +
          1 - (inside + outside + 1) := by omega
      rw [List.cons_append, walk_of_link stands named found,
        behindInduction (by omega),
        induction (by omega), left]

/-! ## Following -/

theorem follow_of_plain {active : List (List String)} {base rest : List String}
    {name : String} (named : name ≠ "..")
    (plain : ∀ target, disk.tree.at? (base ++ [name]) ≠ some (.link target)) :
    disk.follow active base (name :: rest) = disk.follow active
      (base ++ [name]) rest := by
  rw [follow, if_neg named]
  dsimp only
  split
  · next target link => exact absurd link (plain target)
  · rfl

theorem follow_of_link {active : List (List String)} {base rest : List String}
    {name : String} {target : Path} (named : name ≠ "..")
    (link : disk.tree.at? (base ++ [name]) = some (.link target))
    (idle : base ++ [name] ∉ active) :
    disk.follow active base (name :: rest) =
      let inner := disk.follow ((base ++ [name]) :: active)
          (linkStart base target) target.parts
      if inner.complete then disk.follow active inner.names rest
      else ⟨inner.names ++ rest, false⟩ := by
  rw [follow, if_neg named]
  dsimp only
  split
  · next target' link' =>
      cases link.symm.trans link'
      rw [dif_neg idle]
  · next other => exact absurd link (other target)

/-- Each of these links takes more links to follow than the given number. -/
def Outlast (disk : Disk) (active : List (List String)) (links : Nat) : Prop :=
  ∀ base name, base ++ [name] ∈ active →
    ∀ total stop, Leads disk base [name] total stop → links < total

theorem Outlast.mono {active : List (List String)} {links fewer : Nat}
    (outlast : Outlast disk active links) (less : fewer ≤ links) :
    Outlast disk active fewer := by
  intro base name member total stop leads
  exact Nat.lt_of_le_of_lt less (outlast base name member total stop leads)

/-- A way that comes to an end is followed to that end. The links that are being
followed outlast the rest of the way, so that none of them is met again on it.
-/
theorem follow_of_leads {base parts stop : List String} {links : Nat}
    (leads : Leads disk base parts links stop) (active : List (List String))
    (outlast : Outlast disk active links) : disk.follow active base parts =
      ⟨stop, true⟩ := by
  -- `outlast` carries the induction: whatever link is being followed needs more
  -- than what is left of the way, so no link is met while it is followed.
  induction leads generalizing active with
  | arrived base => simp only [follow]
  | up stands further induction =>
      rw [follow, if_pos rfl]
      exact induction active outlast
  | @down base rest stop links entries name inner stands named found plain
      further induction =>
      have here : disk.tree.at? (base ++ [name]) = some inner := by
        rw [FileTree.at?_append_singleton, stands]
        exact found
      have noLink : ∀ target, disk.tree.at? (base ++ [name]) ≠
          some (.link target) :=
        fun target same => plain target (Option.some.inj (here.symm.trans same))
      rw [follow_of_plain named noLink]
      exact induction active outlast
  | @link base rest middle stop inside outside entries name target stands
      named found behind further behindInduction induction =>
      have here : disk.tree.at? (base ++ [name]) = some (.link target) := by
        rw [FileTree.at?_append_singleton, stands]
        exact found
      have single : Leads disk base [name] (inside + 0 + 1) middle :=
        .link stands named found behind (.arrived middle)
      have unmet : base ++ [name] ∉ active := by
        intro met
        have := outlast base name met _ _ single
        omega
      have behindOutlast : Outlast disk
          ((base ++ [name]) :: active) inside := by
        intro base' name' member total stop' leads'
        rcases List.mem_cons.1 member with same | member
        · rcases List.append_inj' same rfl with ⟨rfl, last⟩
          cases last
          rw [(single.unique leads').1]
          omega
        · have := outlast base' name' member total stop' leads'
          omega
      rw [follow_of_link named here unmet, behindInduction _ behindOutlast]
      exact induction active (outlast.mono (by omega))

theorem resolve_of_locate {path : Path} {names : List String}
    (located : disk.locate (disk.fromRoot path) = .ok names) :
    disk.resolve path = .ok names := by
  rcases leads_of_walk located with ⟨links, -, leads⟩
  have none : Outlast disk [] links := by
    intro base name member
    cases member
  simp only [resolve, follow_of_leads leads [] none, if_true]

theorem exists_resolve_of_read {path : Path} {content : List UInt8}
    (read : disk.read path = .ok content) :
    ∃ names, disk.resolve path = .ok names := by
  unfold Disk.read find at read
  cases located : disk.locate (disk.fromRoot path) with
  | error problem =>
      rw [located] at read
      cases read
  | ok names => exact ⟨names, resolve_of_locate located⟩

end Disk
end FencedJson
