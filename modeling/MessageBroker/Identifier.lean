/-! Identifiers of queues, routes, channels and clients, and their texts. Their
numbers have no limit. Numbers of 64 bits are the same as long as fewer than 2^64
have been given out. -/

namespace MessageBroker

structure QueueId where
  number : Nat
  deriving DecidableEq

structure RouteId where
  number : Nat
  deriving DecidableEq

structure ChannelId where
  number : Nat
  deriving DecidableEq

/-- A connected session. The numbers are given out by whoever accepts the
connections. -/
structure ClientId where
  number : Nat
  deriving DecidableEq

def QueueId.label (id : QueueId) : String :=
  "queue#" ++ toString id.number

def RouteId.label (id : RouteId) : String :=
  "route#" ++ toString id.number

def ChannelId.label (id : ChannelId) : String :=
  "channel#" ++ toString id.number

def ClientId.label (id : ClientId) : String :=
  toString id.number

end MessageBroker
