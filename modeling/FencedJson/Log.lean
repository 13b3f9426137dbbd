/-! # Log events

What a run reports beside its results. Events below a chosen level are not
shown.
-/

namespace FencedJson

inductive Level where
  | all
  | debug
  | info
  | warning
  | error
  | critical
  deriving DecidableEq, Repr

namespace Level

def rank : Level → Nat
  | all => 0
  | debug => 10
  | info => 20
  | warning => 30
  | error => 40
  | critical => 50

def name : Level → String
  | all => "NOTSET"
  | debug => "DEBUG"
  | info => "INFO"
  | warning => "WARNING"
  | error => "ERROR"
  | critical => "CRITICAL"

def ofName? (text : String) : Option Level :=
  if text = "WARN" then some warning
  else if text = "FATAL" then some critical
  else [all, debug, info, warning, error, critical].find? fun level =>
    level.name = text

end Level

structure Event where
  level : Level
  source : String
  message : String
  deriving DecidableEq, Repr

def Event.line (event : Event) : String :=
  s!"{event.level.name}:{event.source}:{event.message}"

def eventsFrom (level : Level) (events : List Event) : List Event :=
  events.filter fun event => level.rank ≤ event.level.rank

end FencedJson
