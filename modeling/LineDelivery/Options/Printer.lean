import LineDelivery.Options

/-!
# Writing options

Options are written as a JSON object without blanks that names every field, in order, with its
value.
-/

namespace LineDelivery.Options

def member (options : Options) (field : Field) : List Char :=
  '"' :: field.name.toList ++ '"' :: ':' :: Nat.toDigits 10 (options.get field)

def toChars (options : Options) : List Char :=
  '\x7b' :: [','].intercalate (Field.all.map options.member) ++ ['\x7d']

def toText (options : Options) : String :=
  String.ofList options.toChars

end LineDelivery.Options
