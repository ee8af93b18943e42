import MessageBroker.Settings
import MessageBroker.Time

/-! Copies of what a broker keeps: durable queues and routes, and channels. -/

namespace MessageBroker

structure MessageSnapshot where
  payload : List UInt8
  expiresAt : Option Timestamp
  deriving DecidableEq

structure QueueSnapshot where
  name : String
  settings : QueueSettings
  /-- The oldest first. -/
  messages : List MessageSnapshot
  deriving DecidableEq

/-- The names of the queues bound under one key. -/
structure BindingSnapshot where
  key : String
  queues : List String
  deriving DecidableEq

structure RouteSnapshot where
  name : String
  flags : RouteFlags
  bindings : List BindingSnapshot
  deriving DecidableEq

structure ChannelSnapshot where
  name : String
  flags : ChannelFlags
  deriving DecidableEq

structure Snapshot where
  takenAt : Timestamp
  queues : List QueueSnapshot
  routes : List RouteSnapshot
  channels : List ChannelSnapshot
  deriving DecidableEq

def Snapshot.messageCount (snapshot : Snapshot) : Nat :=
  (snapshot.queues.flatMap QueueSnapshot.messages).length

end MessageBroker
