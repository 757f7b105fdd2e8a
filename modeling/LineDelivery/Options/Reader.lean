import LineDelivery.Json.Skip
import LineDelivery.Options

/-!
# Reading options

Options are read from a JSON text: an object whose members are fields by name, the others being
passed over, or an array that begins with the fields in order. What is missing keeps its default.
The reader is a machine over tokens and stops at the first fault. A text is unfit if it is
well-formed up to there and something does not fit: a value that is no natural number within its
field's range, a field given twice, or neither an object nor an array. Any other fault makes it
malformed.
-/

namespace LineDelivery.Options

open LineDelivery.Json

inductive ReadFault where
  | unfit
  | malformed
  deriving DecidableEq, Repr

/-- The options read so far and the fields they were given for. -/
structure Draft where
  options : Options := {}
  given : List Field := []
  deriving DecidableEq, Repr

inductive Reader where
  | start
  | firstKey (draft : Draft)
  | key (draft : Draft)
  | colon (draft : Draft) (field? : Option Field)
  | value (draft : Draft) (field : Field)
  | skipping (draft : Draft) (skip : Skip)
  | nextMember (draft : Draft)
  | firstElement (draft : Draft) (fields : List Field)
  | element (draft : Draft) (fields : List Field)
  | nextElement (draft : Draft) (fields : List Field)
  | finished (options : Options)
  deriving DecidableEq, Repr

namespace Reader

/-- What is wrong with a token where a natural number is wanted. A string that denotes no text and a
number beyond all doubles are malformed, and so is what begins no value. -/
def misfit : Token → ReadFault
  | .number numeral => if numeral.isFinite then .unfit else .malformed
  | .text content? => if content?.isSome then .unfit else .malformed
  | .null => .unfit
  | .boolean => .unfit
  | .openBrace => .unfit
  | .openBracket => .unfit
  | _ => .malformed

def natural? : Token → Option Nat
  | .number numeral => numeral.natural?
  | _ => none

/-- The draft with the value of a field, if the token is one. -/
def takeValue (draft : Draft) (field : Field) (token : Token) : Except ReadFault Draft :=
  match natural? token with
  | some number =>
    if number < field.range then
      .ok { options := draft.options.set field number, given := field :: draft.given }
    else .error (misfit token)
  | none => .error (misfit token)

def takeKey (draft : Draft) : Token → Except ReadFault Reader
  | .text (some name) =>
    match Field.ofName? name with
    | none => .ok (.colon draft none)
    | some field =>
      if draft.given.contains field then .error .unfit else .ok (.colon draft (some field))
  | _ => .error .malformed

def takeElement (draft : Draft) (fields : List Field) (token : Token) : Except ReadFault Reader :=
  match fields with
  | [] => .error .malformed
  | field :: rest => (takeValue draft field token).map (.nextElement · rest)

def takeSkipped (draft : Draft) (skip : Skip) (token : Token) : Except ReadFault Reader :=
  match skip.step token with
  | .malformed => .error .malformed
  | .complete => .ok (.nextMember draft)
  | .more skip => .ok (.skipping draft skip)

def step : Reader → Token → Except ReadFault Reader
  | start, .openBrace => .ok (.firstKey {})
  | start, .openBracket => .ok (.firstElement {} Field.all)
  | start, token => .error (misfit token)
  | firstKey draft, token =>
    if token = .closeBrace then .ok (.finished draft.options) else takeKey draft token
  | key draft, token => takeKey draft token
  | colon draft (some field), .colon => .ok (.value draft field)
  | colon draft none, .colon => .ok (.skipping draft .start)
  | colon _ _, _ => .error .malformed
  | value draft field, token => (takeValue draft field token).map .nextMember
  | skipping draft skip, token => takeSkipped draft skip token
  | nextMember draft, .comma => .ok (.key draft)
  | nextMember draft, .closeBrace => .ok (.finished draft.options)
  | nextMember _, _ => .error .malformed
  | firstElement draft fields, token =>
    if token = .closeBracket then .ok (.finished draft.options) else takeElement draft fields token
  | element draft fields, token => takeElement draft fields token
  | nextElement draft fields, .comma => .ok (.element draft fields)
  | nextElement draft _, .closeBracket => .ok (.finished draft.options)
  | nextElement _ _, _ => .error .malformed
  | finished _, _ => .error .malformed

/-- A text may end only where the options are complete. -/
def finish : Reader → Except ReadFault Options
  | finished options => .ok options
  | _ => .error .malformed

def run (reader : Reader) (tokens : List Token) : Except ReadFault Reader :=
  tokens.foldlM step reader

end Reader

def ofTokens (tokens : List Token) : Except ReadFault Options :=
  (Reader.start.run tokens).bind Reader.finish

/-- Options from their JSON text. -/
def ofText (text : String) : Except ReadFault Options :=
  ofTokens (Token.ofText text.toList)

end LineDelivery.Options
