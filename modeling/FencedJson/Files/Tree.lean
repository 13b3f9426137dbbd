import FencedJson.Entries
import FencedJson.Files.Path
import FencedJson.Text.Quoted

/-! # File trees

A file tree is what a disk holds at one time: directories, files and symbolic
links. Paths are followed through it link by link.
-/

namespace FencedJson

inductive FileTree where
  | file (content : List UInt8)
  | link (target : Path)
  | directory (entries : List (String × FileTree))
  deriving Inhabited

inductive PathProblem where
  | notFound
  | notADirectory
  | isADirectory
  | exists
  | tooManyLinks
  deriving DecidableEq, Repr

def PathProblem.message : PathProblem → String
  | notFound => "No such file or directory"
  | notADirectory => "Not a directory"
  | isADirectory => "Is a directory"
  | .exists => "File exists"
  | tooManyLinks => "Too many levels of symbolic links"

namespace FileTree

def isDirectory : FileTree → Bool
  | directory _ => true
  | _ => false

def isFile : FileTree → Bool
  | file _ => true
  | _ => false

def entries : FileTree → List (String × FileTree)
  | directory entries => entries
  | _ => []

def child? (tree : FileTree) (name : String) : Option FileTree :=
  tree.entries.lookup name

/-- What stands at the end of names, none of which is a link. -/
def at? (tree : FileTree) : List String → Option FileTree
  | [] => some tree
  | name :: rest => (tree.child? name).bind fun inner => inner.at? rest

/-- Put a tree in the place of what stands at the end of names, if anything.
Missing directories are made. -/
def put (replacement : FileTree) : FileTree → List String → FileTree
  | _, [] => replacement
  | tree, name :: rest =>
      let inner := (tree.child? name).getD (directory [])
      directory (putEntry name (put replacement inner rest) tree.entries)

def erase : FileTree → List String → FileTree
  | tree, [] => tree
  | tree, [name] => directory (tree.entries.filter (·.1 ≠ name))
  | tree, name :: rest =>
      match tree.child? name with
      | none => tree
      | some inner => directory (putEntry name (inner.erase rest) tree.entries)

mutual

def directories : FileTree → List (List String)
  | file _ => []
  | link _ => []
  | directory entries => [] :: directoriesOf entries

def directoriesOf : List (String × FileTree) → List (List String)
  | [] => []
  | (name, inner) :: rest =>
      inner.directories.map (name :: ·) ++ directoriesOf rest

end

mutual

def links : FileTree → List (List String)
  | file _ => []
  | link _ => [[]]
  | directory entries => linksOf entries

def linksOf : List (String × FileTree) → List (List String)
  | [] => []
  | (name, inner) :: rest => inner.links.map (name :: ·) ++ linksOf rest

end

theorem mem_linksOf {entries : List (String × FileTree)} {name : String}
    {inner : FileTree} {way : List String} (member : (name, inner) ∈ entries)
    (below : way ∈ inner.links) :
    name :: way ∈ linksOf entries := by
  induction entries with
  | nil => cases member
  | cons entry rest induction =>
      rcases entry with ⟨other, tree⟩
      rw [linksOf, List.mem_append]
      rcases List.mem_cons.1 member with same | later
      · cases same
        exact .inl (List.mem_map_of_mem below)
      · exact .inr (induction later)

mutual

def reach : FileTree → Nat
  | file _ => 0
  | link target => target.parts.length
  | directory entries => reachOf entries

def reachOf : List (String × FileTree) → Nat
  | [] => 0
  | (_, inner) :: rest => max inner.reach (reachOf rest)

end

theorem reach_le_reachOf {entries : List (String × FileTree)} {name : String}
    {inner : FileTree} (member : (name, inner) ∈ entries) :
    inner.reach ≤ reachOf entries := by
  induction entries with
  | nil => cases member
  | cons entry rest induction =>
      rcases entry with ⟨other, tree⟩
      rw [reachOf]
      rcases List.mem_cons.1 member with same | later
      · cases same
        exact Nat.le_max_left ..
      · exact Nat.le_trans (induction later) (Nat.le_max_right ..)

theorem mem_links_of_at? {tree : FileTree} {way : List String} {target : Path}
    (stands : tree.at? way = some (.link target)) : way ∈ tree.links := by
  induction way generalizing tree with
  | nil =>
      cases stands
      exact List.mem_singleton_self []
  | cons name rest induction =>
      rcases Option.bind_eq_some_iff.1 stands with ⟨inner, child, behind⟩
      cases tree with
      | file | link => cases child
      | directory entries =>
          exact mem_linksOf (mem_of_lookup child) (induction behind)

theorem reach_le_of_at? {tree found : FileTree} {way : List String}
    (stands : tree.at? way = some found) : found.reach ≤ tree.reach := by
  induction way generalizing tree with
  | nil =>
      cases stands
      exact Nat.le_refl _
  | cons name rest induction =>
      rcases Option.bind_eq_some_iff.1 stands with ⟨inner, child, behind⟩
      cases tree with
      | file | link => cases child
      | directory entries =>
          exact Nat.le_trans (induction behind)
            (reach_le_reachOf (mem_of_lookup child))

end FileTree

/-- A file tree from the root of the file system on, with a working directory.
-/
structure Disk where
  tree : FileTree
  /-- The names on the way to the working directory, none of which is a link. -/
  working : List String

namespace Disk

def linkLimit : Nat := 40

def fromRoot (disk : Disk) (path : Path) : List String :=
  if path.isAbsolute then path.parts else disk.working ++ path.parts

def linkStart (base : List String) (target : Path) : List String :=
  if target.isAbsolute then [] else base

theorem measure_lt {fewer more target reach : Nat} (less : fewer < more)
    (short : target ≤ reach) (rest : Nat) :
    fewer * (reach + 1) + (target + rest) < more * (reach + 1) +
      (rest + 1) := by
  have room := Nat.mul_le_mul_right (reach + 1) less
  rw [Nat.succ_mul] at room
  omega

/-- The names, free of links and double dots, of what stands at the end of a
path. Every name before the last must belong to a directory. -/
def walk (disk : Disk) (links : Nat) (base parts : List String) :
    Except PathProblem (List String) :=
  match parts with
  | [] => .ok base
  | name :: rest =>
      match _ : disk.tree.at? base with
      | some (.directory entries) =>
          if name = ".." then walk disk links base.dropLast rest
          else
            match _ : entries.lookup name with
            | none => .error .notFound
            | some (.link target) =>
                match links with
                | 0 => .error .tooManyLinks
                | links + 1 =>
                    walk disk links (linkStart base target)
                    (target.parts ++ rest)
            | some _ => walk disk links (base ++ [name]) rest
      | some _ => .error .notADirectory
      | none => .error .notFound
-- A single number, unlike a pair, is a measure by which walks can be evaluated.
termination_by links * (disk.tree.reach + 1) + parts.length
decreasing_by
  · exact Nat.lt_succ_self _
  · have short := Nat.le_trans (FileTree.reach_le_reachOf (mem_of_lookup ‹_›))
      (FileTree.reach_le_of_at? ‹disk.tree.at? base = _›)
    rw [List.length_append]
    exact measure_lt (Nat.lt_succ_self links) short rest.length
  · exact Nat.lt_succ_self _

def locate (disk : Disk) (parts : List String) :
    Except PathProblem (List String) :=
  disk.walk linkLimit [] parts

def find (disk : Disk) (parts : List String) : Except PathProblem FileTree :=
  match disk.locate parts with
  | .error problem => .error problem
  | .ok names =>
      match disk.tree.at? names with
      | some found => .ok found
      | none => .error .notFound

def find? (disk : Disk) (parts : List String) : Option FileTree :=
  (disk.find parts).toOption

def isDirectory (disk : Disk) (parts : List String) : Bool :=
  ((disk.find? parts).map FileTree.isDirectory).getD false

def isFile (disk : Disk) (parts : List String) : Bool :=
  ((disk.find? parts).map FileTree.isFile).getD false

def holds (disk : Disk) (parts : List String) : Bool :=
  (disk.find? parts).isSome

def read (disk : Disk) (path : Path) : Except PathProblem (List UInt8) :=
  match disk.find (disk.fromRoot path) with
  | .error problem => .error problem
  | .ok (.file content) => .ok content
  | .ok _ => .error .isADirectory

/-! ## Resolution -/

structure Resolved where
  names : List String
  complete : Bool
  deriving DecidableEq, Repr

def idle (disk : Disk) (active : List (List String)) : List (List String) :=
  disk.tree.links.filter (· ∉ active)

theorem length_idle_lt {disk : Disk} {active : List (List String)}
    {link : List String} {target : Path}
    (stands : disk.tree.at? link = some (.link target)) (new : link ∉ active) :
    (disk.idle (link :: active)).length < (disk.idle active).length := by
  have fewer : disk.idle (link :: active) = (disk.idle active).filter
      (· ≠ link) := by
    rw [idle, idle, List.filter_filter]
    exact List.filter_congr fun other _ => by simp
  rw [fewer, List.length_filter_lt_length_iff_exists]
  exact ⟨link, List.mem_filter.2
    ⟨FileTree.mem_links_of_at? stands, by simpa using new⟩, by simp⟩

/-- Follow the links on a path. Unlike in a walk, names need not exist, and
double dots go back by one name whatever stands there. The links that are being
followed are `active`; one that is met again stays as it is, with all that is
behind it. -/
def follow (disk : Disk) (active : List (List String))
    (base parts : List String) :
    Resolved :=
  match parts with
  | [] => ⟨base, true⟩
  | name :: rest =>
      if name = ".." then follow disk active base.dropLast rest
      else
        let here := base ++ [name]
        match _ : disk.tree.at? here with
        | some (.link target) =>
            if _ : here ∈ active then ⟨here ++ rest, false⟩
            else
              let inner := follow disk (here :: active)
                  (linkStart base target) target.parts
              if inner.complete then follow disk active inner.names rest
              else ⟨inner.names ++ rest, false⟩
        | _ => follow disk active here rest
termination_by (disk.idle active).length * (disk.tree.reach + 1) + parts.length
decreasing_by
  · exact Nat.lt_succ_self _
  · have fewer := length_idle_lt ‹_› ‹here ∉ active›
    exact Nat.lt_of_le_of_lt
      (Nat.add_le_add_left (Nat.le_add_right _ rest.length) _)
      (measure_lt fewer (FileTree.reach_le_of_at? ‹_›) rest.length)
  · exact Nat.lt_succ_self _
  · exact Nat.lt_succ_self _

/-- The names of a path without double dots, and without links where all of them
could be followed. There are none where a walk along these names meets too many
links. -/
def resolve (disk : Disk) (path : Path) : Except (List String) (List String) :=
  let resolved := disk.follow [] [] (disk.fromRoot path)
  if resolved.complete then .ok resolved.names
  else
    let names := Path.descend [] resolved.names
    match disk.locate names with
    | .error .tooManyLinks => .error names
    | _ => .ok names

def loopMessage (names : List String) : String :=
  "Symlink loop from " ++ Quoted.ofString (Path.mk "/" names).toString

/-! ## Changes -/

/-- Where a file at a path is or would be, with the directories on the way made
where they are missing. -/
def place (disk : Disk) (parts : List String) :
    Except PathProblem (List String) :=
  match disk.follow [] [] parts with
  | ⟨_, false⟩ => .error .tooManyLinks
  | ⟨names, true⟩ => .ok names

def write (disk : Disk) (path : Path) (content : List UInt8) :
    Except PathProblem Disk :=
  match disk.place (disk.fromRoot path) with
  | .error problem => .error problem
  | .ok names =>
      match disk.tree.at? names with
      | some (.directory _) => .error .isADirectory
      | _ => .ok { disk with tree := .put (.file content) disk.tree names }

def makeDirectory (disk : Disk) (path : Path) : Except PathProblem Disk :=
  match disk.place (disk.fromRoot path) with
  | .error problem => .error problem
  | .ok names =>
      match disk.tree.at? names with
      | some (.directory _) => .ok disk
      | some _ => .error .exists
      | none => .ok { disk with tree := .put (.directory []) disk.tree names }

def parent (disk : Disk) (path : Path) :
    Except PathProblem (List String × String) :=
  let parts := disk.fromRoot path
  match parts.getLast? with
  | none => .error .exists
  | some name => (disk.place parts.dropLast).map fun names => (names, name)

def makeLink (disk : Disk) (path target : Path) : Except PathProblem Disk :=
  match disk.parent path with
  | .error problem => .error problem
  | .ok (names, name) =>
      match disk.tree.at? (names ++ [name]) with
      | some _ => .error .exists
      | none =>
          .ok { disk with
            tree := .put (.link target) disk.tree (names ++ [name]) }

def remove (disk : Disk) (path : Path) : Except PathProblem Disk :=
  match disk.parent path with
  | .error problem => .error problem
  | .ok (names, name) =>
      match disk.tree.at? (names ++ [name]) with
      | none => .error .notFound
      | some (.directory _) => .error .isADirectory
      | some _ => .ok { disk with tree := disk.tree.erase (names ++ [name]) }

end Disk
end FencedJson
