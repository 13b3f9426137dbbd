import FencedJson.Files.Glob

/-! # Discovery of files

The files to check are those below a root directory that some glob includes and
that no pattern excludes.
-/

namespace FencedJson

def normalizePattern (pattern : String) : String :=
  match after? ['.', '/'] pattern.toList with
  | some rest => String.ofList rest
  | none => pattern

/-- Does a pattern match a path as a whole? Behind a leading `**/` it may also
match the path on its own. -/
def patternExcludes (pattern relative : String) : Bool :=
  (Pattern.ofString pattern).accepts relative.toList ||
    match after? ['*', '*', '/'] pattern.toList with
    | some rest => (Pattern.ofChars rest).accepts relative.toList
    | none => false

def isExcluded (excludes : List String) (relative : String) : Bool :=
  excludes.any fun pattern => patternExcludes pattern relative

def namesBefore : List String → List String → Bool
  | [], _ => true
  | _ :: _, [] => false
  | first :: left, second :: right =>
      if first = second then namesBefore left right else first < second

inductive DiscoveryError where
  | glob (error : GlobError)
  /-- A link on the way to the root leads back to itself. -/
  | loop (names : List String)
  deriving DecidableEq, Repr

def DiscoveryError.message : DiscoveryError → String
  | glob problem => problem.message
  | loop names => Disk.loopMessage names

def matchedFiles (disk : Disk) (base : List String) (excludes : List String)
    (glob : Glob) : List (List String) :=
  (glob.paths disk base).filter fun path =>
    disk.isFile (base ++ path) && !isExcluded excludes (Path.joinNames path)

def filesBelow (disk : Disk) (base : List String)
    (includes excludes : List String) :
    Except GlobError (List (List String)) :=
  (includes.mapM fun text => Glob.ofString (normalizePattern text)).map
    fun globs =>
    let found := globs.flatMap
        (matchedFiles disk base (excludes.map normalizePattern))
    found.eraseDups.mergeSort namesBefore

def findFiles (disk : Disk) (root : Path) (includes excludes : List String) :
    Except DiscoveryError (List (List String)) :=
  match disk.resolve root with
  | .error names => .error (.loop names)
  | .ok base =>
      match filesBelow disk base includes excludes with
      | .error problem => .error (.glob problem)
      | .ok files => .ok (files.map (base ++ ·))

end FencedJson
