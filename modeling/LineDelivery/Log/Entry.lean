import LineDelivery.Log.Level

/-!
# Log entries

An event as a log shows it: a level, a message, and named values.
-/

namespace LineDelivery.Log

structure Entry where
  level : Level
  message : String
  fields : List (String × String) := []
  deriving DecidableEq, Repr

namespace Entry

def render (entry : Entry) : String :=
  entry.fields.foldl (fun line field ↦ line ++ " | " ++ field.1 ++ "=" ++ field.2)
    (entry.level.name ++ " " ++ entry.message)

end Entry

end LineDelivery.Log
