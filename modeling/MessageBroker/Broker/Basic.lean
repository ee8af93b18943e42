import MessageBroker.Channel
import MessageBroker.ClientLinks
import MessageBroker.Collection.Registry
import MessageBroker.Config
import MessageBroker.Name
import MessageBroker.Queue.Sweep
import MessageBroker.Route

/-! The broker: every queue, route, channel and client. A membership is kept on
both sides, by the entity and in the links of the client. -/

namespace MessageBroker

instance : Named QueueId Queue where
  id := Queue.id
  name := Queue.name
  rename := Queue.rename

instance : Named RouteId Route where
  id := Route.id
  name := Route.name
  rename := Route.rename

instance : Named ChannelId Channel where
  id := Channel.id
  name := Channel.name
  rename := Channel.rename

structure Broker where
  config : Config
  clock : TagClock
  queues : Registry QueueId Queue
  routes : Registry RouteId Route
  channels : Registry ChannelId Channel
  clients : AssocList ClientId ClientLinks
  /-- The number of the last entity of any kind. A counter of 64 bits has the same
  value as long as fewer than 2^64 entities have been created. -/
  lastNumber : Nat
  /-- Where the buffer of each queue puts its messages. -/
  slots : QueueId → SlotPolicy

namespace Broker

abbrev Result (α : Type) := Outcome Broker Failure α

def start (config : Config) (now : Timestamp)
    (slots : QueueId → SlotPolicy := fun _ => .lowest) :
    Except Failure Broker :=
  config.validate.map fun config => {
    config := config
    clock := .start now
    queues := .empty
    routes := .empty
    channels := .empty
    clients := .empty
    lastNumber := 0
    slots := slots
  }

def now (broker : Broker) : Timestamp :=
  broker.clock.now

def putQueue (broker : Broker) (queue : Queue) : Broker :=
  { broker with queues := broker.queues.put queue }

def putRoute (broker : Broker) (route : Route) : Broker :=
  { broker with routes := broker.routes.put route }

def putChannel (broker : Broker) (channel : Channel) : Broker :=
  { broker with channels := broker.channels.put channel }

def modifyLinks (broker : Broker) (client : ClientId)
    (change : ClientLinks → ClientLinks) : Broker :=
  { broker with clients := broker.clients.modify client change }

/-! Removal, with everything that hangs on it. -/

def removeRoute (broker : Broker) (route : Route) : Broker := {
  broker with
  routes := broker.routes.erase route
  queues := route.bindings.pairs.foldl
    (fun queues (key, queue) =>
      queues.update queue fun entry => entry.unlinkRoute route.id key)
    broker.queues
}

def autoDeleteRoute (broker : Broker) (id : RouteId) : Broker :=
  match broker.routes.find? id with
  | none => broker
  | some route =>
      if route.flags.autoDelete && route.isEmpty then broker.removeRoute route
      else broker

/-- Undo one binding of a queue that is gone, and note the route if it had
it. -/
def unbindRemoved (queue : QueueId)
    (state : Registry RouteId Route × List RouteId)
    (binding : String × RouteId) : Registry RouteId Route × List RouteId :=
  let (routes, touched) := state
  let (key, id) := binding
  match routes.find? id with
  | none => (routes, touched)
  | some route =>
      match route.unbind queue key with
      | .ok route => (routes.put route, touched ++ [id])
      | .error _ => (routes, touched)

/-- Remove a queue, its members' links to it and its bindings. Routes that lose
their last binding by this may go too. -/
def removeQueue (broker : Broker) (queue : Queue) : Broker :=
  let clients := (queue.declared.items ++ queue.subscribers).foldl
    (fun clients client =>
      clients.modify client fun links => links.forgetQueue queue.id)
    broker.clients
  let (routes, touched) :=
    queue.bindings.pairs.foldl (unbindRemoved queue.id) (broker.routes, [])
  touched.foldl autoDeleteRoute {
    broker with
    queues := broker.queues.erase queue
    routes := routes
    clients := clients
  }

def autoDeleteQueue (broker : Broker) (id : QueueId) : Broker :=
  match broker.queues.find? id with
  | none => broker
  | some queue =>
      if queue.settings.flags.autoDelete && queue.declared.isEmpty then
        broker.removeQueue queue
      else broker

def removeChannel (broker : Broker) (channel : Channel) : Broker := {
  broker with
  channels := broker.channels.erase channel
  clients := (channel.topics.pairs ++ channel.patterns.pairs).foldl
    (fun clients (_, client) =>
      clients.modify client fun links => links.forgetChannel channel.id)
    broker.clients
}

def autoDeleteChannel (broker : Broker) (id : ChannelId) : Broker :=
  match broker.channels.find? id with
  | none => broker
  | some channel =>
      if channel.flags.autoDelete && channel.isUnused then
        broker.removeChannel channel
      else broker

def total (broker : Broker) (number : Queue → Nat) : Nat :=
  broker.queues.toList.foldl (fun sum queue => sum + number queue) 0

def stats (broker : Broker) : BrokerStats where
  queues := broker.queues.size
  routes := broker.routes.size
  channels := broker.channels.size
  clients := broker.clients.size
  buffered := broker.total Queue.size
  unconfirmed := broker.total fun queue => queue.held.size

def messages (broker : Broker) : List Message :=
  broker.queues.toList.flatMap fun queue =>
    queue.messages ++ queue.heldMessages

/-- How many of the broker's messages carry a payload of this serial number. -/
def holders (broker : Broker) (serial : Nat) : Nat :=
  broker.messages.countP fun message => message.payload.serial == serial

end Broker

end MessageBroker
