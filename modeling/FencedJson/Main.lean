import FencedJson.Command.Run

/-! # The program

The program takes a picture of the files that a run may need, runs the command
on it, and prints the report.
-/

namespace FencedJson.Command

abbrev Spot := IO.FS.DirEntry

partial def treeAt (spot : Spot) : IO FileTree := do
  match (← spot.path.symlinkMetadata).type with
  | .dir =>
      let entries ← (← spot.path.readDir).toList.mapM fun entry =>
        return (entry.fileName, ← treeAt entry)
      return .directory entries
  | .symlink =>
      let target ← try IO.FS.realPath spot.path catch _ => pure spot.path
      return .link (.ofString target.toString)
  | _ => return .file (← IO.FS.readBinFile spot.path).toList

mutual

def targets : FileTree → List Path
  | .file _ => []
  | .link target => [target]
  | .directory entries => targetsOf entries

def targetsOf : List (String × FileTree) → List Path
  | [] => []
  | (_, inner) :: rest => targets inner ++ targetsOf rest

end

/-- A picture with what stands at a path, if anything does, and with all that
links there lead to. -/
partial def withPath (disk : Disk) (path : String) : IO Disk := do
  let spot : Spot := ⟨← IO.currentDir, path⟩
  if ← spot.path.pathExists then
    let target ← IO.FS.realPath spot.path
    let names := (Path.ofString target.toString).parts
    let tree ← treeAt ⟨← IO.currentDir, target.toString⟩
    let disk := { disk with tree := .put tree disk.tree names }
    (targets tree).foldlM (fun disk target => do
      if disk.holds (disk.fromRoot target) then return disk
      else withPath disk target.toString) disk
  else return disk

def variablesOf (listing : List Char) : Environment :=
  ((listing.splitOn '\x00').filter fun entry => entry.contains '=').map
    fun entry =>
    (String.ofList (entry.takeWhile (· ≠ '=')),
      String.ofList ((entry.dropWhile (· ≠ '=')).drop 1))

def readEnvironment : IO Environment := do
  match Utf8.decode (← IO.FS.readBinFile "/proc/self/environ").toList with
  | .ok listing => return variablesOf listing
  | .error _ => return []

def pathsOf (disk : Disk) (environment : Environment) (words : List String) :
    List String :=
  match Settings.load disk environment with
  | .error _ => []
  | .ok settings =>
      match request (standardArguments settings) words with
      | .ok (.run arguments) =>
          [arguments.root, (configPath arguments).toString]
      | _ => []

def pictureFor (environment : Environment) (words : List String) : IO Disk := do
  let working := (Path.ofString (← IO.currentDir).toString).parts
  let bare : Disk := ⟨.put (.directory []) (.directory []) working, working⟩
  let disk ← withPath bare Settings.fileName
  (pathsOf disk environment words).foldlM withPath disk

end FencedJson.Command

open FencedJson FencedJson.Command in
def main (words : List String) : IO UInt32 := do
  let environment ← readEnvironment
  match run (Yaml.load 480) .standard
    (← pictureFor environment words) environment words with
  | .error failure =>
      IO.eprintln s!"{name}: {failure.message}"
      return 1
  | .ok report =>
      IO.print report.outputText
      IO.eprint report.errorText
      return UInt32.ofNat report.status.code
