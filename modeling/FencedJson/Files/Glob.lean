import FencedJson.Files.Tree
import FencedJson.Files.Wildcard

/-! # Globs

A glob is a relative path whose names may be wildcard patterns. A name of two
stars stands for any number of directories, none included.
-/

namespace FencedJson

inductive GlobPart where
  | name (text : String)
  | wildcard (pattern : Pattern)
  | directories
  deriving DecidableEq, Repr

structure Glob where
  parts : List GlobPart
  trailing : Bool
  deriving DecidableEq, Repr

inductive GlobError where
  | empty
  | absolute
  | doubleStar
  | nameless
  /-- The text has no names but ends in a slash. -/
  | onlySlash
  deriving DecidableEq, Repr

def GlobError.message : GlobError → String
  | empty => "Unacceptable pattern: ''"
  | absolute => "Non-relative patterns are unsupported"
  | doubleStar => "Invalid pattern: '**' can only be an entire path component"
  | nameless | onlySlash => "A pattern needs a name"

namespace GlobPart

def ofName (text : String) : Except GlobError GlobPart :=
  if text = "**" then .ok directories
  else if occursIn ['*', '*'] text.toList then .error .doubleStar
  else if text.toList.any fun c => c = '*' ∨ c = '?' ∨ c = '[' then
    .ok (wildcard (.ofString text))
  else .ok (name text)

end GlobPart

namespace Glob

def ofString (text : String) : Except GlobError Glob :=
  let path := Path.ofString text
  let trailing := text.toList.getLast? == some '/'
  if text = "" then .error .empty
  else if path.isAbsolute then .error .absolute
  else
    match path.parts.mapM GlobPart.ofName with
    | .error problem => .error problem
    | .ok [] => .error (if trailing then .onlySlash else .nameless)
    | .ok parts => .ok ⟨parts, trailing⟩

/-- The paths below `base` that match. All but the last of a path's names have
to be directories, and the last one too when `trailing` asks for it. Links are
followed, except by the part that stands for directories. -/
def select (disk : Disk) (base : List String) (trailing : Bool) :
    List GlobPart → (below : List String) → List (List String)
  | [], below => [below]
  | part :: rest, below =>
      let last := rest.isEmpty && !trailing
      let fits (path : List String) : Bool :=
        if last then disk.holds (base ++ path) else disk.isDirectory
          (base ++ path)
      match part with
      | .name text =>
          let path := below ++ [text]
          if fits path then select disk base trailing rest path else []
      | .wildcard pattern =>
          let names := (disk.find? (base ++ below)).elim [] fun found =>
            (found.entries.map (·.1)).filter fun name =>
              pattern.accepts name.toList
          (names.filter fun name => last || fits (below ++ [name])).flatMap
            fun name =>
            select disk base trailing rest (below ++ [name])
      | .directories =>
          let inner := (disk.find? (base ++ below)).elim [] FileTree.directories
          inner.flatMap fun path => select disk base trailing rest
            (below ++ path)

def paths (glob : Glob) (disk : Disk) (base : List String) :
    List (List String) :=
  if disk.isDirectory base then select disk base glob.trailing
    glob.parts [] else []

end Glob
end FencedJson
