import LineDelivery.Log.Filter

/-!
# Log set-up

A set-up names the levels wanted of an application and of the writer, or a filter text that stands
for both, and says how entries are formatted. A filter text from outside takes the place of the
whole filter if it is a filter. The filter that was set up shows at least failures when it is empty;
an empty one from outside shows nothing. Logging is set up once.
-/

namespace LineDelivery.Log

structure Setup where
  level : Level := .info
  writerLevel : Level := .info
  json : Bool := false
  filter? : Option String := none
  deriving DecidableEq, Repr

namespace Setup

def standard : Setup := {}

def production : Setup :=
  { level := .warn, writerLevel := .warn, json := true }

def development : Setup :=
  { level := .debug, writerLevel := .debug }

/-- The target of the writer's own events. -/
def writerTarget : String := "tsdb_writer"

def filterText (setup : Setup) : String :=
  setup.filter?.getD
    (setup.level.lowerName ++ "," ++ writerTarget ++ "=" ++ setup.writerLevel.lowerName)

/-- The filter as set up; pieces that are no directives do not count. -/
def ownFilter (setup : Setup) : Filter :=
  match Filter.ofPieces setup.filterText with
  | [] => [{ target? := none, detail := Level.error.detail }]
  | filter => filter

/-- The filter in force, given the text from outside if there is one. -/
def filter (setup : Setup) (outside? : Option String) : Filter :=
  (outside?.bind Filter.ofText?).getD setup.ownFilter

end Setup

/-- Logging as it was set up. -/
structure Installed where
  filter : Filter
  json : Bool
  deriving DecidableEq, Repr

inductive InstallFault where
  | alreadyInstalled
  deriving DecidableEq, Repr

/-- Sets logging up, which succeeds only the first time. -/
def install (installed? : Option Installed) (setup : Setup) (outside? : Option String) :
    Except InstallFault Installed :=
  match installed? with
  | some _ => .error .alreadyInstalled
  | none => .ok { filter := setup.filter outside?, json := setup.json }

end LineDelivery.Log
