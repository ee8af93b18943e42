namespace MessageBroker

/-- Bytes that are shared, never changed. Payloads handed out under one serial
number are the same payload, and whoever has one of them is a holder of it. -/
structure Payload where
  bytes : List UInt8
  serial : Nat
  deriving DecidableEq

namespace Payload

/-- The serial number of payloads that nobody keeps count of. -/
def uncounted : Nat := 0

def size (payload : Payload) : Nat :=
  payload.bytes.length

end Payload

end MessageBroker
