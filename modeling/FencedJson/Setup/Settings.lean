import FencedJson.Field.Conversion
import FencedJson.Files.Tree
import FencedJson.Setup.Assignments
import FencedJson.Text.Newline

/-! # Settings

Settings come from the environment, and where it has none from a file of
assignments in the working directory.
-/

namespace FencedJson

abbrev Environment := List (String × String)

structure Settings where
  logLevel : String
  rootPath : String
  configFile : String
  maxWorkers : Int
  deriving DecidableEq, Repr

inductive SettingsFailure where
  | encoding (fault : Utf8.Fault)
  | refused (refusal : Refusal)

def SettingsFailure.message : SettingsFailure → String
  | encoding fault => fault.message
  | refused refusal => refusal.message

namespace Settings

def standard : Settings := ⟨"INFO", ".", ".mdjsonlint.yaml", 1⟩

def fileName : String := ".env"

def frontOfNames : String := "mdjsonlint_"

def lowered (name : String) : String :=
  name.map fun c =>
    if 'A' ≤ c ∧ c ≤ 'Z' then Char.ofNat (c.toNat + 32)
    else if c = '\u212a' then 'k'
    else c

/-- The value of a setting. The case of names is of no account, and the last one
counts. -/
def valueOf? (table : Assignments.Table) (setting : String) : Option String :=
  match table.reverse.find? fun (name, _) => lowered name =
    frontOfNames ++ setting with
  | some (_, value) => value
  | none => none

def fileTable (disk : Disk) (environment : Environment) :
    Except Utf8.Fault Assignments.Table :=
  match disk.find? (disk.fromRoot (.ofString fileName)) with
  | some (.file content) =>
      (Utf8.decode content).map fun text => Assignments.read environment
        (unifyNewlines text)
  | _ => .ok []

def ofTables (environment file : Assignments.Table) : Except Refusal Settings :=
  let value? (setting : String) : Option String :=
    (valueOf? environment setting).or (valueOf? file setting)
  let workers := match value? "max_workers" with
    | some text => Filled.convert "max_workers" Datum.toInteger (.text text)
    | none => .ok standard.maxWorkers
  match workers with
  | .ok maxWorkers =>
      .ok ⟨(value? "log_level").getD standard.logLevel,
        (value? "root_path").getD standard.rootPath,
        (value? "config_file").getD standard.configFile, maxWorkers⟩
  | .error faults => .error ⟨"Settings", faults⟩

def load (disk : Disk) (environment : Environment) :
    Except SettingsFailure Settings :=
  match fileTable disk environment with
  | .error fault => .error (.encoding fault)
  | .ok file =>
      (ofTables (environment.map fun (name, value) => (name, some value))
        file).mapError .refused

end Settings
end FencedJson
