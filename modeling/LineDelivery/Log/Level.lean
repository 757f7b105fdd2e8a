/-!
# Levels

How much an event matters, from the finest detail to a failure.
-/

namespace LineDelivery.Log

inductive Level where
  | trace
  | debug
  | info
  | warn
  | error
  deriving DecidableEq, Repr

namespace Level

/-- All levels, the finest detail first. -/
def all : List Level := [trace, debug, info, warn, error]

def name : Level → String
  | trace => "TRACE"
  | debug => "DEBUG"
  | info => "INFO"
  | warn => "WARN"
  | error => "ERROR"

def lowerName : Level → String
  | trace => "trace"
  | debug => "debug"
  | info => "info"
  | warn => "warn"
  | error => "error"

/-- How much has to be wanted for an event of this level to be shown: one for failures, five for
all. -/
def detail : Level → Nat
  | trace => 5
  | debug => 4
  | info => 3
  | warn => 2
  | error => 1

def ofName? (name : String) : Option Level :=
  all.find? fun level ↦ level.name == name

end Level

end LineDelivery.Log
