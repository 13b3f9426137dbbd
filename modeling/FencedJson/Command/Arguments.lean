import FencedJson.Text.Integer
import FencedJson.Text.Quoted
import FencedJson.Text.Reading

/-! # Arguments

The words of a command line are options, values of options, and the directory to
check. Options may be cut short as long as only one is meant, and may have their
value attached behind an equals sign.
-/

namespace FencedJson.Command

inductive Switch where
  | help
  | config
  | includes
  | excludes
  | workers
  | checks
  | version
  deriving DecidableEq, Repr

namespace Switch

def names : List (String × Switch) := [
  ("-h", help), ("--help", help), ("--config", config), ("--include", includes),
  ("--exclude", excludes), ("--workers", workers), ("--check", checks),
  ("--version", version)]

def label (switch : Switch) : String :=
  "/".intercalate ((names.filter fun entry => entry.2 = switch).map (·.1))

example : help.label = "-h/--help" := by decide +kernel

def takesValue : Switch → Bool
  | help | version => false
  | _ => true

end Switch

inductive ArgumentError where
  | ambiguous (word : String) (names : List String)
  | valueMissing (switch : Switch)
  | valueIgnored (switch : Switch) (value : String)
  | badInteger (value : String)
  | unrecognized (words : List String)
  deriving DecidableEq, Repr

namespace ArgumentError

def message : ArgumentError → String
  | ambiguous word names =>
      s!"ambiguous option: {word} could match " ++ ", ".intercalate names
  | valueMissing switch => s!"argument {switch.label}: expected one argument"
  | valueIgnored switch value =>
      s!"argument {switch.label}: ignored explicit argument {Quoted.ofString value}"
  | badInteger value =>
      s!"argument {Switch.workers.label}: invalid int value: {Quoted.ofString value}"
  | unrecognized words => "unrecognized arguments: " ++ " ".intercalate words

end ArgumentError

/-! ## Words -/

structure Attached where
  joined : Bool
  value : List Char
  deriving DecidableEq, Repr

inductive Word where
  | positional (text : String)
  | separator
  | option (name : String) (switch : Switch) (attached : Option Attached)
  | unknown (text : String)
  deriving DecidableEq, Repr

namespace Word

def separatorText : String := "--"

def isNegativeNumber (text : List Char) : Bool :=
  let isDigit (c : Char) : Bool := (Integer.digit? c).isSome
  match text with
  | '-' :: digits =>
      match digits.dropWhile isDigit with
      | [] => !digits.isEmpty
      | '.' :: rest => !rest.isEmpty && rest.all isDigit
      | _ => false
  | _ => false

def splitValue (text : List Char) : List Char × Option Attached :=
  match text.dropWhile (· ≠ '=') with
  | _ :: value => (text.takeWhile (· ≠ '='), some ⟨true, value⟩)
  | [] => (text, none)

/-- The options that a word may be short for. A single letter may have a value
attached without an equals sign. -/
def candidates (text : List Char) : List (String × Switch × Option Attached) :=
  match text with
  | '-' :: '-' :: _ =>
      let (front, attached) := splitValue text
      (Switch.names.filter fun entry =>
        (after? front entry.1.toList).isSome).map fun (name, switch) =>
          (name, switch, attached)
  | dash :: letter :: value =>
      (Switch.names.filter fun entry => entry.1.toList = [dash, letter]).map
        fun (name, switch) => (name, switch, some ⟨false, value⟩)
  | _ => []

def ofText (text : String) : Except ArgumentError Word :=
  let characters := text.toList
  let (front, attached) := splitValue characters
  if characters.head? ≠ some '-' then .ok (positional text)
  else if let some switch :=
    Switch.names.lookup text then .ok (option text switch none)
  else if characters.length = 1 then .ok (positional text)
  else
    match attached, Switch.names.lookup (String.ofList front) with
    | some attached, some switch =>
        .ok (option (String.ofList front) switch (some attached))
    | _, _ =>
        match candidates characters with
        | [(name, switch, attached)] => .ok (option name switch attached)
        | [] =>
            if isNegativeNumber characters || characters.contains ' ' then .ok
              (positional text)
            else .ok (unknown text)
        | several => .error (.ambiguous text (several.map (·.1)))

def ofTexts : List String → Except ArgumentError (List Word)
  | [] => .ok []
  | text :: rest =>
      if text = separatorText then .ok (separator :: rest.map positional)
      else
        match ofText text with
        | .error error => .error error
        | .ok word => (ofTexts rest).map (word :: ·)

end Word

/-! ## Meaning -/

structure Arguments where
  root : String
  config : String
  includes : List String
  excludes : List String
  workers : Int
  checks : List String
  deriving DecidableEq, Repr

inductive Request where
  | help
  | version
  | run (arguments : Arguments)
  deriving DecidableEq, Repr

structure Progress where
  arguments : Arguments
  /-- The directory was given, or may no longer be given. -/
  rootTaken : Bool
  extras : List String

namespace Progress

def withExtra (progress : Progress) (text : String) : Progress :=
  { progress with extras := progress.extras ++ [text] }

def withRoot (progress : Progress) (text : String) : Progress :=
  { progress with
    arguments := { progress.arguments with root := text }
    rootTaken := true }

def withValue (progress : Progress) (switch : Switch) (value : String) :
    Except ArgumentError Progress :=
  let before := progress.arguments
  let after (arguments : Arguments) : Except ArgumentError Progress :=
    .ok { progress with arguments }
  match switch with
  | .config => after { before with config := value }
  | .includes => after { before with includes := before.includes ++ [value] }
  | .excludes => after { before with excludes := before.excludes ++ [value] }
  | .checks => after { before with checks := before.checks ++ [value] }
  | .workers =>
      match Integer.read? 10 value.toList with
      | some workers => after { before with workers }
      | none => .error (.badInteger value)
  | .help | .version => .ok progress

/-- A value attached to the letter for help. More letters may follow it, of
which those after the first other one are of no account. -/
def attachedToHelp (joined : Bool) : List Char → Except ArgumentError Request
  | [] => .error (.valueIgnored .help "")
  | c :: rest =>
      if joined ∨ c = '-' then .error
        (.valueIgnored .help (String.ofList (c :: rest)))
      else if c ≠ 'h' then .ok .help
      else
        match rest with
        | [] => .ok .help
        | '=' :: value => attachedToHelp true value
        | next :: others => attachedToHelp false (next :: others)

def ending (name : String) (switch : Switch) (attached : Option Attached) :
    Except ArgumentError Request :=
  match attached with
  | none => .ok (if switch = .help then .help else .version)
  | some attached =>
      if name = "-h" then attachedToHelp attached.joined attached.value
      else .error (.valueIgnored switch (String.ofList attached.value))

def read (progress : Progress) : List Word → Except ArgumentError Request
  | [] =>
      match progress.extras with
      | [] => .ok (.run progress.arguments)
      | extras => .error (.unrecognized extras)
  | .unknown text :: rest => read (progress.withExtra text) rest
  | .separator :: rest =>
      if progress.rootTaken then read
        (progress.withExtra Word.separatorText) rest
      else
        match rest with
        | .positional text :: others => read (progress.withRoot text) others
        | rest => read { progress with rootTaken := true } rest
  | .positional text :: rest =>
      if progress.rootTaken then read (progress.withExtra text) rest
      else
        match rest with
        | .separator :: others => read (progress.withRoot text) others
        | rest => read (progress.withRoot text) rest
  | .option name switch attached :: rest =>
      if switch.takesValue then
        match attached, rest with
        | some attached, rest =>
            match progress.withValue switch (String.ofList attached.value) with
            | .error error => .error error
            | .ok progress => read progress rest
        | none, .positional value :: others =>
            match progress.withValue switch value with
            | .error error => .error error
            | .ok progress => read progress others
        | none, _ => .error (.valueMissing switch)
      else ending name switch attached

end Progress

def request (standard : Arguments) (texts : List String) :
    Except ArgumentError Request :=
  match Word.ofTexts texts with
  | .error error => .error error
  | .ok words => Progress.read ⟨standard, false, []⟩ words

end FencedJson.Command
