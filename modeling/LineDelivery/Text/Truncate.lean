/-!
# Truncation

A text that is too long for a log field is cut after its last whole character that fits, and marked
as cut. Lengths are UTF-8 bytes, and the mark is not counted.
-/

namespace LineDelivery.Text

/-- The longest beginning that is at most so many bytes long. -/
def takeBytes : Nat → List Char → List Char
  | _, [] => []
  | room, c :: rest => if c.utf8Size ≤ room then c :: takeBytes (room - c.utf8Size) rest else []

def truncationMark : String := "...(truncated)"

def truncate (value : String) (maxBytes : Nat) : String :=
  if value.utf8ByteSize ≤ maxBytes then value
  else String.ofList (takeBytes maxBytes value.toList) ++ truncationMark

@[simp]
theorem takeBytes_nil (room : Nat) : takeBytes room [] = [] := by
  unfold takeBytes
  rfl

end LineDelivery.Text
