/-! Switches and limits that an entity is created with. -/

namespace MessageBroker

structure QueueFlags where
  autoDelete : Bool
  /-- Evict the oldest message to make room for a new one. -/
  forcePush : Bool
  /-- Pass a message on to one subscriber in turn instead of to all. -/
  roundRobin : Bool
  durable : Bool
  deriving DecidableEq

structure RouteFlags where
  autoDelete : Bool
  roundRobin : Bool
  durable : Bool
  deriving DecidableEq

structure ChannelFlags where
  autoDelete : Bool
  /-- Concerns subscribers of the exact topic only. -/
  roundRobin : Bool
  deriving DecidableEq

structure QueueSettings where
  maxMessages : UInt32
  maxMessageSize : UInt32
  flags : QueueFlags
  deriving DecidableEq

end MessageBroker
