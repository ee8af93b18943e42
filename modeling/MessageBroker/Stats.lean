import MessageBroker.Settings

namespace MessageBroker

structure QueueStats where
  name : String
  settings : QueueSettings
  size : Nat
  unconfirmed : Nat
  declaredClients : Nat
  subscribedClients : Nat
  deriving DecidableEq

structure RouteStats where
  name : String
  flags : RouteFlags
  keys : Nat
  queues : Nat
  deriving DecidableEq

structure ChannelStats where
  name : String
  flags : ChannelFlags
  topics : Nat
  patterns : Nat
  subscribers : Nat
  deriving DecidableEq

structure BrokerStats where
  queues : Nat
  routes : Nat
  channels : Nat
  clients : Nat
  buffered : Nat
  unconfirmed : Nat
  deriving DecidableEq

structure SweepStats where
  expired : Nat
  /-- Held messages put back into their queue. -/
  redelivered : Nat
  /-- Held messages that expired before they could be put back. -/
  dropped : Nat
  deriving DecidableEq

namespace SweepStats

def zero : SweepStats := ⟨0, 0, 0⟩

def add (first second : SweepStats) : SweepStats where
  expired := first.expired + second.expired
  redelivered := first.redelivered + second.redelivered
  dropped := first.dropped + second.dropped

instance : Add SweepStats := ⟨add⟩

def isEmpty (stats : SweepStats) : Bool :=
  stats.expired == 0 && stats.redelivered == 0 && stats.dropped == 0

end SweepStats

end MessageBroker
