/-!
# Delivery errors

Why a batch was not delivered. Only a server's refusal says, by its status, whether a second attempt
is worth making, and only a server can say how long to wait before it.
-/

namespace LineDelivery

inductive DeliveryError where
  | server (status : Nat) (message : String) (pauseSeconds? : Option Nat)
  | network (message : String)
  | encoding (message : String)
  | maxRetryTimeExceeded
  | configuration (message : String)
  deriving DecidableEq, Repr

namespace DeliveryError

/-- The least status that asks a client to come back later. -/
def leastRetryableStatus : Nat := 429

def deservesRetry : DeliveryError → Bool
  | server status _ _ => leastRetryableStatus ≤ status
  | _ => false

/-- Seconds the server asked to wait. -/
def pause? : DeliveryError → Option Nat
  | server _ _ pauseSeconds? => pauseSeconds?
  | _ => none

def text : DeliveryError → String
  | server status message _ => "Server error (" ++ toString status ++ "): " ++ message
  | network message => "Network error: " ++ message
  | encoding message => "Encoding error: " ++ message
  | maxRetryTimeExceeded => "max retry time exceeded"
  | configuration message => "Configuration error: " ++ message

end DeliveryError

end LineDelivery
