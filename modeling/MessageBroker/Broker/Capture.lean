import MessageBroker.Broker.Basic
import MessageBroker.Snapshot

namespace MessageBroker

def Message.capture (message : Message) : MessageSnapshot where
  payload := message.payload.bytes
  expiresAt := message.expiresAt

def Queue.capture (queue : Queue) : QueueSnapshot where
  name := queue.name
  settings := queue.settings
  messages := queue.messages.map Message.capture

def Channel.capture (channel : Channel) : ChannelSnapshot where
  name := channel.name
  flags := channel.flags

namespace Broker

def durableName? (broker : Broker) (id : QueueId) : Option String :=
  ((broker.queues.find? id).filter fun queue =>
    queue.settings.flags.durable).map Queue.name

/-- Keys without a durable queue are left out. -/
def captureRoute (broker : Broker) (route : Route) : RouteSnapshot where
  name := route.name
  flags := route.flags
  bindings := (route.bindings.toLists.map fun (key, queues) =>
      ⟨key, queues.filterMap broker.durableName?⟩).filter
    fun (binding : BindingSnapshot) => !binding.queues.isEmpty

def snapshot (broker : Broker) : Snapshot where
  takenAt := broker.now
  queues := (broker.queues.toList.filter fun queue =>
    queue.settings.flags.durable).map Queue.capture
  routes := (broker.routes.toList.filter fun route =>
    route.flags.durable).map broker.captureRoute
  channels := broker.channels.toList.map Channel.capture

end Broker

end MessageBroker
