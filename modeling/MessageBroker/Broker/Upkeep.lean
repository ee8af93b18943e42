import MessageBroker.Broker.Basic

/-! What happens to a broker as a whole. -/

namespace MessageBroker.Broker

def tick (broker : Broker) (now : Timestamp) : Result SweepStats :=
  let swept := broker.queues.toList.map fun queue => (queue.sweep now).2
  .done {
    broker with
    clock := broker.clock.advance now
    queues := broker.queues.mapEntities fun queue => (queue.sweep now).1
  } (swept.foldl SweepStats.add .zero)

/-- Delete every queue, route and channel. Clients stay, without
memberships. -/
def flush (broker : Broker) : Broker := {
  broker with
  queues := .empty
  routes := .empty
  channels := .empty
  clients := broker.clients.mapValues fun _ => .empty
}

end MessageBroker.Broker
