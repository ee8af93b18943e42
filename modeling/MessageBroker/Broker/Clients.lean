import MessageBroker.Broker.Channels
import MessageBroker.Broker.Queues

/-! Clients come and go. -/

namespace MessageBroker.Broker

/-- Connect a client. The result says whether it is new. -/
def connect (broker : Broker) (client : ClientId) : Result Bool :=
  if broker.clients.contains client then .done broker false
  else
    .done { broker with clients := broker.clients.insert client .empty } true

/-- Take back every membership of a client: subscriptions to queues first, then
declarations, topics and patterns. Entities may go with their last member. -/
def leaveAll (broker : Broker) (client : ClientId) (links : ClientLinks) :
    Broker :=
  let broker := links.subscribedQueues.items.foldl
    (fun broker queue => (broker.unsubscribeQueue client queue).state) broker
  let broker := links.declaredQueues.items.foldl
    (fun broker queue =>
      (broker.undeclareQueue client queue).state.autoDeleteQueue queue) broker
  let broker := links.topics.pairs.foldl
    (fun broker (channel, topic) =>
      (broker.unsubscribeTopic client channel topic).state) broker
  links.patterns.pairs.foldl
    (fun broker (channel, pattern) =>
      (broker.unsubscribePattern client channel pattern).state) broker

/-- Disconnect a client. The result says whether it was there. -/
def eject (broker : Broker) (client : ClientId) : Result Bool :=
  match broker.clients.get? client with
  | none => .done broker false
  | some links =>
      let left := broker.leaveAll client links
      {
        state := { left with clients := left.clients.erase client }
        result := .ok true
        signals := [.disconnect client]
      }

end MessageBroker.Broker
