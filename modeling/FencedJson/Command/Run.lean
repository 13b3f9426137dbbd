import FencedJson.Check.Checker
import FencedJson.Command.Arguments
import FencedJson.Setup.ConfigFile
import FencedJson.Setup.Settings
import FencedJson.Text.Caseless

/-! # Runs of the command

A run reads settings, arguments and configuration in this order, checks the
files, and prints what is wrong with them. Its exit status tells how it went.
-/

namespace FencedJson.Command

def name : String := "mdjsonlint"

def versionNumber : String := "0.1.0"

/-! ## Exit status -/

inductive Status where
  | clean
  | invalid
  | unusable
  deriving DecidableEq, Repr

def Status.code : Status → Nat
  | clean => 0
  | invalid => 1
  | unusable => 2

/-! ## Help -/

def usage : List String := [
  "usage: mdjsonlint [-h] [--config CONFIG] [--include INCLUDE]",
  "                  [--exclude EXCLUDE] [--workers WORKERS] [--check CHECKS]",
  "                  [--version]",
  "                  [root]"]

def help : List String := usage ++ [
  "",
  "Check the syntax of JSON and JSON5 code blocks in Markdown files.",
  "",
  "positional arguments:",
  "  root               directory to scan",
  "",
  "options:",
  "  -h, --help         show this help message and exit",
  "  --config CONFIG    YAML config file",
  "  --include INCLUDE  glob of files to scan (repeatable)",
  "  --exclude EXCLUDE  glob of files to skip (repeatable)",
  "  --workers WORKERS",
  "  --check CHECKS     run only the named checks, even if disabled in the config",
  "  --version          show program's version number and exit"]

/-! ## Reports -/

inductive Complaint where
  | arguments (error : ArgumentError)
  | config (path : Path) (fault : ConfigFault)

def Complaint.lines : Complaint → List String
  | arguments error => usage ++ [s!"{name}: error: {error.message}"]
  | config path fault => [s!"{name}: {fault.message path}"]

structure Report where
  status : Status
  output : List String
  events : List Event
  complaint : Option Complaint

namespace Report

def textOf (lines : List String) : String := String.join (lines.map (· ++ "\n"))

def outputText (report : Report) : String := textOf report.output

def eventText (report : Report) : String :=
  textOf (report.events.map Event.line)

def errorText (report : Report) : String :=
  report.eventText ++ textOf (report.complaint.elim [] Complaint.lines)

def told (lines : List String) : Report := ⟨.clean, lines, [], none⟩

end Report

inductive RunError where
  | settings (failure : SettingsFailure)
  | unknownLevel (name : String)
  | config (failure : ConfigFailure)
  | checker (failure : Check.CheckerFailure)

def levelMessage (name : String) : String :=
  s!"Unknown level: {Quoted.ofString name}"

def RunError.message : RunError → String
  | settings failure => failure.message
  | unknownLevel name => levelMessage name
  | config failure => failure.message
  | checker failure => failure.message

/-! ## Runs -/

def standardArguments (settings : Settings) : Arguments where
  root := settings.rootPath
  config := settings.configFile
  includes := []
  excludes := []
  workers := settings.maxWorkers
  checks := []

def adjusted (config : Config) (arguments : Arguments) : Config :=
  { config with
    includes := if arguments.includes.isEmpty then config.includes
      else arguments.includes
    excludes := if arguments.excludes.isEmpty then config.excludes
      else arguments.excludes }

def selectionOf (arguments : Arguments) : Option Check.Selection :=
  if arguments.checks.isEmpty then none else some (.names arguments.checks)

def configPath (arguments : Arguments) : Path :=
  (Path.ofString arguments.root).join (.ofString arguments.config)

def startEvent (arguments : Arguments) : Event :=
  ⟨.debug, "mdjsonlint.cli",
    s!"{name} v{versionNumber} (root={arguments.root})"⟩

def check (stack : Stack) (disk : Disk) (level : Level) (arguments : Arguments)
    (config : Config) : Except RunError Report :=
  let (checker, summaries) := Check.Checker.start (.ofString arguments.root)
    (adjusted config arguments) arguments.workers .empty
  match checker.run (stack.call 1) disk .inTurn
    (selectionOf arguments) summaries with
  | (_, .error failure) => .error (.checker failure)
  | (summaries, .ok (id, events)) =>
      let summary := summaries.get id
      .ok
        { status := if summary.passed then .clean else .invalid
          output := summary.lines
          events := eventsFrom level (startEvent arguments :: events)
          complaint := none }

def runWith (reader : Yaml.Reader) (stack : Stack) (disk : Disk) (level : Level)
    (arguments : Arguments) : Except RunError Report :=
  match ConfigFile.load reader disk (configPath arguments) with
  | .ok config => check stack disk level arguments config
  | .error (.fault path fault) =>
      .ok ⟨.unusable, [], eventsFrom level [startEvent arguments],
        some (.config path fault)⟩
  | .error failure => .error (.config failure)

def run (reader : Yaml.Reader) (stack : Stack) (disk : Disk)
    (environment : Environment) (words : List String) :
    Except RunError Report :=
  match Settings.load disk environment with
  | .error failure => .error (.settings failure)
  | .ok settings =>
      match request (standardArguments settings) words with
      | .error error => .ok ⟨.unusable, [], [], some (.arguments error)⟩
      | .ok .help => .ok (.told help)
      | .ok .version => .ok (.told [s!"{name} {versionNumber}"])
      | .ok (.run arguments) =>
          let levelName :=
              String.ofList (Caseless.upper settings.logLevel.toList)
          match Level.ofName? levelName with
          | none => .error (.unknownLevel levelName)
          | some level => runWith reader stack disk level arguments

end FencedJson.Command
