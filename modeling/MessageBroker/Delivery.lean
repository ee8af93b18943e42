import MessageBroker.Identifier
import MessageBroker.Payload
import MessageBroker.Tag

namespace MessageBroker

inductive Delivery where
  /-- A queue message passed straight on to a subscriber. -/
  | message (queue : String) (tag : Tag) (payload : Payload)
  | notice (queue : String)
  | topic (channel topic : String) (payload : Payload)
  /-- A channel message whose topic matches a pattern. -/
  | pattern (channel topic pattern : String) (payload : Payload)
  deriving DecidableEq

def Delivery.payload? : Delivery → Option Payload
  | .message _ _ payload => some payload
  | .notice _ => none
  | .topic _ _ payload => some payload
  | .pattern _ _ _ payload => some payload

/-- What the broker tells the layer that talks to the clients. -/
inductive Signal where
  | deliver (client : ClientId) (delivery : Delivery)
  | disconnect (client : ClientId)
  deriving DecidableEq

def Signal.delivery? : Signal → Option (ClientId × Delivery)
  | .deliver client delivery => some (client, delivery)
  | .disconnect _ => none

def Signal.deliveries (signals : List Signal) : List (ClientId × Delivery) :=
  signals.filterMap Signal.delivery?

end MessageBroker
