/-!
# Lines

Text is bytes, and a newline ends a line. A chunk is whatever a caller writes at once: it may hold
several lines, blank ones too, and its last line may lack its newline. Lines are counted so that the
unterminated last line counts, hence terminating a chunk never changes its count.
-/

namespace LineDelivery

abbrev Bytes := List UInt8

namespace Line

def newline : UInt8 := 10

def endsInNewline (text : Bytes) : Bool :=
  text.getLast? == some newline

/-- The newlines of a text, and one more for a last line that lacks its own. -/
def count (text : Bytes) : Nat :=
  text.count newline + if text.isEmpty || endsInNewline text then 0 else 1

/-- A text with the newline of its last line added where it is missing. -/
def terminate (text : Bytes) : Bytes :=
  if text.isEmpty || endsInNewline text then text else text ++ [newline]

/-- Appends a record to the output written so far. -/
def append (output record : Bytes) : Bytes :=
  output ++ terminate record

@[simp]
theorem count_nil : count [] = 0 := rfl

@[simp]
theorem terminate_nil : terminate [] = [] := rfl

end Line

end LineDelivery
