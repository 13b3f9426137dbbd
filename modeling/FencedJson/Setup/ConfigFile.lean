import FencedJson.Files.Tree
import FencedJson.Setup.Config
import FencedJson.Text.Newline
import FencedJson.Yaml.Load

/-! # Configuration files

A configuration is a YAML mapping. Its options stand at the top or under the
name of the program.
-/

namespace FencedJson

inductive ConfigFault where
  | yaml (problem : Yaml.Problem)
  | notAMapping (kind : String)
  | refused (refusal : Refusal)

inductive ConfigFailure where
  | fault (path : Path) (fault : ConfigFault)
  | path (problem : PathProblem)
  | encoding (fault : Utf8.Fault)
  /-- A scalar that cannot be converted as its tag asks for. -/
  | conversion (failure : Yaml.Failure)

def ConfigFault.message (path : Path) : ConfigFault → String
  | yaml problem => s!"Invalid YAML in {path}: {problem.message}"
  | notAMapping kind => s!"Expected a mapping in {path}, got {kind}"
  | refused refusal => s!"Invalid configuration in {path}: {refusal.message}"

def ConfigFailure.message : ConfigFailure → String
  | fault file cause => cause.message file
  | path problem => problem.message
  | encoding cause => cause.message
  | conversion failure => failure.message

namespace ConfigFile

def sectionName : String := "mdjsonlint"

def namedFields (entries : List (Datum × Datum)) : List (String × Datum) :=
  entries.filterMap fun
    | (.text name, value) => some (name, value)
    | _ => none

def fields (entries : List (Datum × Datum)) : List (String × Datum) :=
  match (namedFields entries).lookup sectionName with
  | some (.mapping inner) | some (.orderedMapping inner) => namedFields inner
  | _ => namedFields entries

def ofDatum : Datum → Except ConfigFault Config
  | .null => .ok .standard
  | .mapping entries | .orderedMapping entries =>
      (Config.ofFields (fields entries)).mapError .refused
  | datum => .error (.notAMapping datum.kind)

/-- The text of a file. It is read piece by piece, so that a character that the
end cuts off is located from its own start on. -/
def decode (content : List UInt8) : Except Utf8.Fault (List Char) :=
  ((Utf8.decode content).map unifyNewlines).mapError fun fault =>
    if fault.problem = .cutOff then { fault with position := 0 } else fault

def load (reader : Yaml.Reader) (disk : Disk) (path : Path) :
    Except ConfigFailure Config :=
  if disk.holds (disk.fromRoot path) then
    match disk.read path with
    | .error problem => .error (.path problem)
    | .ok content =>
        match decode content with
        | .error fault => .error (.encoding fault)
        | .ok text =>
            match reader text with
            | .error (.problem problem) => .error (.fault path (.yaml problem))
            | .error failure => .error (.conversion failure)
            | .ok datum => (ofDatum datum).mapError (.fault path)
  else .ok .standard

end ConfigFile
end FencedJson
