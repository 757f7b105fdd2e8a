import LineDelivery.Log.Level

/-!
# Log filters

A filter is a list of directives, written with commas between them. A directive says how much detail
is wanted, of everything or of the events whose target begins with a given text; the directive with
the longest such text decides, and an event that none is about is not shown.
-/

namespace LineDelivery.Log

/-- How much detail a directive wants: nothing at zero, failures at one, everything at five. -/
structure Directive where
  target? : Option String
  detail : Nat
  deriving DecidableEq, Repr

namespace Directive

/-- The detail that is wanted when none is named. -/
def fullDetail : Nat := Level.trace.detail

def detailNames : List (String × Nat) :=
  ("off", 0) :: Level.all.map fun level ↦ (level.lowerName, level.detail)

/-- A number between nothing and everything, perhaps with a plus. -/
def detailOfDigits? (text : List Char) : Option Nat :=
  let digits := if text.head? = some '+' then text.tail else text
  if digits.isEmpty || !digits.all Char.isDigit then none
  else
    let value := Nat.ofDigitChars 10 digits 0
    if value ≤ fullDetail then some value else none

/-- A level by its name, in any case, or by its number. -/
def detail? (text : List Char) : Option Nat :=
  match detailOfDigits? text with
  | some detail => some detail
  | none => detailNames.lookup (String.ofList (text.map Char.toLower))

/-- What a directive may begin with; letters beyond ASCII are taken as they come. -/
def isOpening (c : Char) : Bool :=
  c.isAlphanum || c = '-' || c = ':' || c = '_' || 128 ≤ c.toNat

/-- A directive for the events of a target, by what stands behind its equals sign. -/
def ofTarget? (target level : List Char) : Option Directive :=
  if level.isEmpty then some { target? := some (String.ofList target), detail := fullDetail }
  else (detail? level).map fun detail ↦ { target? := some (String.ofList target), detail }

/-- A directive without an equals sign: a level, or else a target of which everything is wanted. -/
def ofWord (word : List Char) : Directive :=
  match detail? word with
  | some detail => { target? := none, detail }
  | none => { target? := some (String.ofList word), detail := fullDetail }

/-- A directive from its text, if it is one. A target holds no opening bracket. -/
def ofText? (text : List Char) : Option Directive :=
  let target := text.takeWhile (· != '=')
  if !(text.head?.any isOpening) || target.contains '[' then none
  else
    match text.dropWhile (· != '=') with
    | [] => some (ofWord text)
    | _ :: level => ofTarget? target level

def isAbout (directive : Directive) (target : String) : Bool :=
  match directive.target? with
  | none => true
  | some beginning => beginning.toList.isPrefixOf target.toList

/-- The longer the text that targets must begin with, the more specific; one about everything is
least specific. -/
def specificity (directive : Directive) : Nat :=
  match directive.target? with
  | none => 0
  | some beginning => beginning.utf8ByteSize + 1

end Directive

abbrev Filter := List Directive

namespace Filter

/-- The texts between the commas, without empty ones. -/
def pieces (text : String) : List (List Char) :=
  (text.toList.splitOn ',').filter fun piece ↦ !piece.isEmpty

/-- A filter from a text of which every piece has to be a directive. -/
def ofText? (text : String) : Option Filter :=
  (pieces text).mapM Directive.ofText?

/-- A filter from the pieces of a text that are directives. -/
def ofPieces (text : String) : Filter :=
  (pieces text).filterMap Directive.ofText?

/-- The more specific of two directives, the later one if they are about the same. -/
def prefer (best? : Option Directive) (next : Directive) : Option Directive :=
  match best? with
  | none => some next
  | some best => if best.specificity ≤ next.specificity then some next else some best

/-- The directive that decides about a target. -/
def deciding? (filter : Filter) (target : String) : Option Directive :=
  (filter.filter fun directive ↦ directive.isAbout target).foldl prefer none

def shows (filter : Filter) (target : String) (level : Level) : Bool :=
  (filter.deciding? target).any fun directive ↦ level.detail ≤ directive.detail

end Filter

end LineDelivery.Log
