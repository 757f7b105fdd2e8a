import LineDelivery.Json.Token

/-!
# Skipping a value

A value of any kind is passed over token by token. What has to be remembered is which arrays and
objects are open and what may come next.
-/

namespace LineDelivery.Json

inductive Frame where
  | array
  | object
  deriving DecidableEq, Repr

inductive Expected where
  | value
  /-- A value, or the end of an array that was just opened. -/
  | firstElement
  /-- A key, or the end of an object that was just opened. -/
  | firstKey
  | key
  | colon
  /-- A comma, or the end of what is open. -/
  | separator
  deriving DecidableEq, Repr

structure Skip where
  expected : Expected
  /-- What is open, the innermost first. -/
  frames : List Frame
  deriving DecidableEq, Repr

namespace Skip

/-- Before a value that stands by itself. -/
def start : Skip :=
  { expected := .value, frames := [] }

inductive Outcome where
  | malformed
  | complete
  | more (skip : Skip)
  deriving DecidableEq, Repr

/-- A value ended inside these frames. -/
def afterValue (frames : List Frame) : Outcome :=
  if frames.isEmpty then .complete else .more { expected := .separator, frames }

def valueStep (frames : List Frame) : Token → Outcome
  | .openBrace => .more { expected := .firstKey, frames := .object :: frames }
  | .openBracket => .more { expected := .firstElement, frames := .array :: frames }
  | .null => afterValue frames
  | .boolean => afterValue frames
  | .number _ => afterValue frames
  | .text _ => afterValue frames
  | _ => .malformed

def keyStep (frames : List Frame) : Token → Outcome
  | .text _ => .more { expected := .colon, frames }
  | _ => .malformed

def separatorStep : List Frame → Token → Outcome
  | .array :: frames, .comma => .more { expected := .value, frames := .array :: frames }
  | .object :: frames, .comma => .more { expected := .key, frames := .object :: frames }
  | .array :: frames, .closeBracket => afterValue frames
  | .object :: frames, .closeBrace => afterValue frames
  | _, _ => .malformed

def step (skip : Skip) (token : Token) : Outcome :=
  match skip.expected with
  | .value => valueStep skip.frames token
  | .firstElement =>
    if token = .closeBracket then afterValue skip.frames.tail else valueStep skip.frames token
  | .firstKey =>
    if token = .closeBrace then afterValue skip.frames.tail else keyStep skip.frames token
  | .key => keyStep skip.frames token
  | .colon => if token = .colon then .more { skip with expected := .value } else .malformed
  | .separator => separatorStep skip.frames token

end Skip

end LineDelivery.Json
