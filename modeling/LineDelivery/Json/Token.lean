import LineDelivery.Json.Numeral
import LineDelivery.Json.Quoted

/-!
# Tokens

A JSON text is a sequence of tokens with blanks between them. Where no token can be read the
sequence ends with a token that says so, since what follows cannot be told apart any more.
-/

namespace LineDelivery.Json

inductive Token where
  | openBrace
  | closeBrace
  | openBracket
  | closeBracket
  | colon
  | comma
  | null
  | boolean
  | number (numeral : Numeral)
  /-- A string, with the text that it denotes if it denotes one. -/
  | text (content? : Option String)
  | unreadable
  deriving DecidableEq, Repr

namespace Token

def isBlank (c : Char) : Bool :=
  c = ' ' || c = '\n' || c = '\t' || c = '\r'

/-- The tokens of a text. -/
def ofText (text : List Char) : List Token :=
  match text with
  | [] => []
  | '\x7b' :: rest => openBrace :: ofText rest
  | '\x7d' :: rest => closeBrace :: ofText rest
  | '[' :: rest => openBracket :: ofText rest
  | ']' :: rest => closeBracket :: ofText rest
  | ':' :: rest => colon :: ofText rest
  | ',' :: rest => comma :: ofText rest
  | 'n' :: 'u' :: 'l' :: 'l' :: rest => null :: ofText rest
  | 't' :: 'r' :: 'u' :: 'e' :: rest => boolean :: ofText rest
  | 'f' :: 'a' :: 'l' :: 's' :: 'e' :: rest => boolean :: ofText rest
  | '"' :: rest =>
    match _ : Quoted.take? rest with
    | none => [unreadable]
    | some (pieces, tail) => Token.text (Quoted.text? pieces) :: ofText tail
  | c :: rest =>
    if isBlank c then ofText rest
    else
      match _ : Numeral.take? (c :: rest) with
      | none => [unreadable]
      | some (numeral, tail) => number numeral :: ofText tail
termination_by text.length
decreasing_by
  all_goals grind [→ Quoted.length_take, → Numeral.length_take]

end Token

end LineDelivery.Json
