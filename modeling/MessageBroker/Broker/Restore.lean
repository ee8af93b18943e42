import MessageBroker.Broker.Channels
import MessageBroker.Broker.Routes
import MessageBroker.Snapshot

/-! Rebuilding a broker from a snapshot. Whatever a snapshot names is created
again, with new identifiers and new tags. -/

namespace MessageBroker.Broker

def Result.require (result : Result α) : Except Failure (α × Broker) :=
  result.result.map fun value => (value, result.state)

/-- Give a saved message a new tag and put it into its queue, if it fits. -/
def restoreMessage (id : QueueId) (broker : Broker) (saved : MessageSnapshot) :
    Broker :=
  let message : Message := {
    payload := ⟨saved.payload, Payload.uncounted⟩
    tag := broker.clock.nextTag
    expiresAt := saved.expiresAt
    heldUntil := none
  }
  {
    broker with
    clock := broker.clock.stamped
    queues := broker.queues.update id fun queue => queue.refill message
  }

def restoreQueue (broker : Broker) (saved : QueueSnapshot) :
    Except Failure Broker :=
  (broker.createQueue saved.name saved.settings).require.map
    fun (id, broker) => saved.messages.foldl (restoreMessage id) broker

/-- Bind a saved queue name, unless no queue has it. -/
def restoreBinding (route : RouteId) (broker : Broker)
    (binding : String × String) : Except Failure Broker :=
  let (key, name) := binding
  match broker.queues.idOf? name with
  | none => .ok broker
  | some queue => (broker.bind route queue key).require.map Prod.snd

def restoreRoute (broker : Broker) (saved : RouteSnapshot) :
    Except Failure Broker :=
  (broker.createRoute saved.name saved.flags).require.bind
    fun (id, broker) =>
      (saved.bindings.flatMap fun binding =>
        binding.queues.map fun name => (binding.key, name)).foldlM
          (restoreBinding id) broker

def restoreChannel (broker : Broker) (saved : ChannelSnapshot) :
    Except Failure Broker :=
  (broker.createChannel saved.name saved.flags).require.map Prod.snd

/-- A broker with what a snapshot holds. Its clock starts at the wall clock's
time, or at the time of the snapshot if that is later. -/
def restore (config : Config) (wallClock : Timestamp) (snapshot : Snapshot)
    (slots : QueueId → SlotPolicy := fun _ => .lowest) :
    Except Failure Broker :=
  (start config (wallClock.latest snapshot.takenAt) slots).bind fun broker =>
    (snapshot.queues.foldlM restoreQueue broker).bind fun broker =>
      (snapshot.routes.foldlM restoreRoute broker).bind fun broker =>
        snapshot.channels.foldlM restoreChannel broker

end MessageBroker.Broker
