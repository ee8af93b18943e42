import Mathlib.Logic.Relation
import MessageBroker.Broker.Command
import MessageBroker.Proofs.Collection.Registry
import MessageBroker.Proofs.Queue.Turn

/-! The edits that every operation of a broker is made of. An edit changes both
sides of a membership or a binding at once, and removes an entity together with
all that names it. -/

namespace MessageBroker

namespace Route

def unlink (route : Route) (queue : QueueId) (key : String) : Route :=
  { route with bindings := route.bindings.unlink key queue }

def rotate (route : Route) (key : String) : Route :=
  { route with bindings := route.bindings.rotate key }

end Route

namespace Broker

/-- The broker without a queue, before any route goes because of it. -/
def detachQueue (broker : Broker) (queue : Queue) : Broker := {
  broker with
  queues := broker.queues.erase queue
  routes := queue.bindings.pairs.foldl
    (fun routes binding => routes.update binding.2 fun route =>
      route.unlink queue.id binding.1)
    broker.routes
  clients := (queue.declared.items ++ queue.subscribers).foldl
    (fun clients client =>
      clients.modify client fun links => links.forgetQueue queue.id)
    broker.clients
}

/-- Something new: a client, an entity, a membership or a binding. -/
inductive Enrolment (broker : Broker) : Broker → Prop
  | connect {client : ClientId} (fresh : broker.clients.get? client = none) :
      Enrolment broker {
        broker with
        clients := broker.clients.insert client .empty
      }
  | addQueue {name : String} {settings : QueueSettings}
      (valid : Name.isValid name = true)
      (fresh : broker.queues.hasName name = false)
      (sound : queueFault? broker.config settings = none) :
      Enrolment broker {
        broker with
        queues := broker.queues.add
          (.create ⟨broker.lastNumber + 1⟩ name settings
            (broker.slots ⟨broker.lastNumber + 1⟩))
        lastNumber := broker.lastNumber + 1
      }
  | addRoute {name : String} {flags : RouteFlags}
      (valid : Name.isValid name = true)
      (fresh : broker.routes.hasName name = false) :
      Enrolment broker {
        broker with
        routes := broker.routes.add (.create ⟨broker.lastNumber + 1⟩ name flags)
        lastNumber := broker.lastNumber + 1
      }
  | addChannel {name : String} {flags : ChannelFlags}
      (valid : Name.isValid name = true)
      (fresh : broker.channels.hasName name = false) :
      Enrolment broker {
        broker with
        channels := broker.channels.add
          (.create ⟨broker.lastNumber + 1⟩ name flags
            broker.config.channelMaxMessageSize)
        lastNumber := broker.lastNumber + 1
      }
  | declare {client : ClientId} {id : QueueId} {queue : Queue}
      (connected : broker.clients.contains client = true)
      (found : broker.queues.find? id = some queue) :
      Enrolment broker {
        broker with
        queues := broker.queues.update id fun queue => queue.declare client
        clients := broker.clients.modify client fun links =>
          links.addDeclared id
      }
  | subscribe {client : ClientId} {id : QueueId} {queue : Queue}
      (noticesOnly : Bool)
      (connected : broker.clients.contains client = true)
      (found : broker.queues.find? id = some queue) :
      Enrolment broker {
        broker with
        queues := broker.queues.update id fun queue =>
          queue.subscribe client noticesOnly
        clients := broker.clients.modify client fun links =>
          links.addSubscribed id
      }
  | bind {id : RouteId} {queue : QueueId} {route : Route} {target : Queue}
      (key : String) (foundRoute : broker.routes.find? id = some route)
      (foundQueue : broker.queues.find? queue = some target) :
      Enrolment broker {
        broker with
        routes := broker.routes.update id fun route => route.bind queue key
        queues := broker.queues.update queue fun target =>
          target.linkRoute id key
      }
  | subscribeTopic {client : ClientId} {id : ChannelId} {channel : Channel}
      (topic : String) (connected : broker.clients.contains client = true)
      (found : broker.channels.find? id = some channel) :
      Enrolment broker {
        broker with
        channels := broker.channels.update id fun channel =>
          channel.subscribeTopic client topic
        clients := broker.clients.modify client fun links =>
          links.addTopic id topic
      }
  | subscribePattern {client : ClientId} {id : ChannelId} {channel : Channel}
      (pattern : String) (connected : broker.clients.contains client = true)
      (found : broker.channels.find? id = some channel) :
      Enrolment broker {
        broker with
        channels := broker.channels.update id fun channel =>
          channel.subscribePattern client pattern
        clients := broker.clients.modify client fun links =>
          links.addPattern id pattern
      }

/-- Something that goes. A client goes only after its last membership. -/
inductive Withdrawal (broker : Broker) : Broker → Prop
  | leave {client : ClientId}
      (unlinked : ∀ links, broker.clients.get? client = some links →
        links.isEmpty = true) :
      Withdrawal broker {
        broker with
        clients := broker.clients.erase client
      }
  | dropQueue {id : QueueId} {queue : Queue}
      (found : broker.queues.find? id = some queue) :
      Withdrawal broker (broker.detachQueue queue)
  | dropRoute {id : RouteId} {route : Route}
      (found : broker.routes.find? id = some route) :
      Withdrawal broker (broker.removeRoute route)
  | dropChannel {id : ChannelId} {channel : Channel}
      (found : broker.channels.find? id = some channel) :
      Withdrawal broker (broker.removeChannel channel)
  | undeclare (client : ClientId) {id : QueueId} {queue : Queue}
      (found : broker.queues.find? id = some queue) :
      Withdrawal broker {
        broker with
        queues := broker.queues.update id fun queue => queue.undeclare client
        clients := broker.clients.modify client fun links =>
          links.removeDeclared id
      }
  | unsubscribe (client : ClientId) {id : QueueId} {queue : Queue}
      (found : broker.queues.find? id = some queue) :
      Withdrawal broker {
        broker with
        queues := broker.queues.update id fun queue => queue.unsubscribe client
        clients := broker.clients.modify client fun links =>
          links.removeSubscribed id
      }
  | unbind {id : RouteId} {route : Route} (queue : QueueId) (key : String)
      (found : broker.routes.find? id = some route) :
      Withdrawal broker {
        broker with
        routes := broker.routes.update id fun route => route.unlink queue key
        queues := broker.queues.update queue fun target =>
          target.unlinkRoute id key
      }
  | unsubscribeTopic (client : ClientId) {id : ChannelId} {channel : Channel}
      (topic : String) (found : broker.channels.find? id = some channel) :
      Withdrawal broker {
        broker with
        channels := broker.channels.update id fun channel =>
          { channel with topics := channel.topics.unlink topic client }
        clients := broker.clients.modify client fun links =>
          links.removeTopic id topic
      }
  | unsubscribePattern (client : ClientId) {id : ChannelId} {channel : Channel}
      (pattern : String) (found : broker.channels.find? id = some channel) :
      Withdrawal broker {
        broker with
        channels := broker.channels.update id fun channel =>
          { channel with patterns := channel.patterns.unlink pattern client }
        clients := broker.clients.modify client fun links =>
          links.removePattern id pattern
      }
  | flush : Withdrawal broker broker.flush

/-- What leaves every membership and binding as it is. -/
inductive Upkeep (broker : Broker) : Broker → Prop
  | renameQueue {id : QueueId} {queue : Queue} {name : String}
      (found : broker.queues.find? id = some queue)
      (valid : Name.isValid name = true)
      (fresh : broker.queues.hasName name = false) :
      Upkeep broker {
        broker with
        queues := broker.queues.rename queue name
      }
  | renameRoute {id : RouteId} {route : Route} {name : String}
      (found : broker.routes.find? id = some route)
      (valid : Name.isValid name = true)
      (fresh : broker.routes.hasName name = false) :
      Upkeep broker {
        broker with
        routes := broker.routes.rename route name
      }
  | renameChannel {id : ChannelId} {channel : Channel} {name : String}
      (found : broker.channels.find? id = some channel)
      (valid : Name.isValid name = true)
      (fresh : broker.channels.hasName name = false) :
      Upkeep broker {
        broker with
        channels := broker.channels.rename channel name
      }
  | rotateRoute (id : RouteId) (key : String) :
      Upkeep broker {
        broker with
        routes := broker.routes.update id fun route => route.rotate key
      }
  | rotateChannel (id : ChannelId) (topic : String) :
      Upkeep broker {
        broker with
        channels := broker.channels.update id fun channel =>
          channel.advanced topic
      }

/-- What takes nothing away. -/
inductive Gain (broker : Broker) : Broker → Prop
  | enrol {after : Broker} (enrolment : Enrolment broker after) :
      Gain broker after
  | keepUp {after : Broker} (upkeep : Upkeep broker after) : Gain broker after

/-- What adds one thing, gives one thing another name, or does neither. -/
inductive Extension (broker : Broker) : Broker → Prop
  | refl : Extension broker broker
  | enrol {after : Broker} (enrolment : Enrolment broker after) :
      Extension broker after
  | renameQueue {id : QueueId} {queue : Queue} {name : String}
      (found : broker.queues.find? id = some queue)
      (valid : Name.isValid name = true)
      (fresh : broker.queues.hasName name = false) :
      Extension broker {
        broker with
        queues := broker.queues.rename queue name
      }
  | renameRoute {id : RouteId} {route : Route} {name : String}
      (found : broker.routes.find? id = some route)
      (valid : Name.isValid name = true)
      (fresh : broker.routes.hasName name = false) :
      Extension broker {
        broker with
        routes := broker.routes.rename route name
      }
  | renameChannel {id : ChannelId} {channel : Channel} {name : String}
      (found : broker.channels.find? id = some channel)
      (valid : Name.isValid name = true)
      (fresh : broker.channels.hasName name = false) :
      Extension broker {
        broker with
        channels := broker.channels.rename channel name
      }

/-- What leaves every message in its place, as long as its queue is there. -/
inductive Arrangement (broker : Broker) : Broker → Prop
  | enrol {after : Broker} (enrolment : Enrolment broker after) :
      Arrangement broker after
  | withdraw {after : Broker} (withdrawal : Withdrawal broker after) :
      Arrangement broker after
  | keepUp {after : Broker} (upkeep : Upkeep broker after) :
      Arrangement broker after

/-- What moves messages, with the number of tags that it stamps. -/
inductive Traffic (broker : Broker) : Nat → Broker → Prop
  | turnQueue {id : QueueId} {queue next : Queue} {stamps : Nat}
      (found : broker.queues.find? id = some queue)
      (turn : queue.Turn broker.clock stamps next) :
      Traffic broker stamps {
        broker with
        queues := broker.queues.update id fun _ => next
        clock := (broker.clock.nextTags stamps).2
      }
  | tick (now : Timestamp) : Traffic broker 0 (broker.tick now).state

inductive Edit (broker : Broker) : Nat → Broker → Prop
  | arrange {after : Broker} (arrangement : Arrangement broker after) :
      Edit broker 0 after
  | move {stamps : Nat} {after : Broker}
      (traffic : Traffic broker stamps after) : Edit broker stamps after

abbrev Gains (broker after : Broker) : Prop :=
  Relation.ReflTransGen Gain broker after

abbrev Arrangements (broker after : Broker) : Prop :=
  Relation.ReflTransGen Arrangement broker after

/-- One edit after the other, with the number of tags stamped in all. -/
inductive Edits (broker : Broker) : Nat → Broker → Prop
  | refl : Edits broker 0 broker
  | tail {stamps more : Nat} {middle after : Broker}
      (edits : Edits broker stamps middle) (edit : Edit middle more after) :
      Edits broker (stamps + more) after

variable {first middle last : Broker} {stamps more : Nat}

namespace Arrangements

theorem withdraw (withdrawal : Withdrawal first last) :
    Arrangements first last :=
  .single (.withdraw withdrawal)

theorem edits (h : Arrangements first last) : Edits first 0 last := by
  induction h with
  | refl => exact .refl
  | tail _ arrangement ih => exact ih.tail (.arrange arrangement)

end Arrangements

namespace Gains

theorem enrol (enrolment : Enrolment first last) : Gains first last :=
  .single (.enrol enrolment)

theorem keepUp (upkeep : Upkeep first last) : Gains first last :=
  .single (.keepUp upkeep)

theorem arrangements (h : Gains first last) : Arrangements first last := by
  induction h with
  | refl => exact .refl
  | tail _ gain ih =>
      cases gain with
      | enrol enrolment => exact ih.tail (.enrol enrolment)
      | keepUp upkeep => exact ih.tail (.keepUp upkeep)

end Gains

namespace Extension

theorem gains (h : Extension first last) : Gains first last := by
  cases h with
  | refl => exact .refl
  | enrol enrolment => exact .enrol enrolment
  | renameQueue found valid fresh =>
      exact .keepUp (.renameQueue found valid fresh)
  | renameRoute found valid fresh =>
      exact .keepUp (.renameRoute found valid fresh)
  | renameChannel found valid fresh =>
      exact .keepUp (.renameChannel found valid fresh)

theorem arrangements (h : Extension first last) : Arrangements first last :=
  Gains.arrangements h.gains

end Extension

namespace Edits

theorem trans (hfirst : Edits first stamps middle)
    (hsecond : Edits middle more last) : Edits first (stamps + more) last := by
  induction hsecond with
  | refl => exact hfirst
  | tail _ edit ih =>
      rw [← Nat.add_assoc]
      exact ih.tail edit

theorem move (traffic : Traffic first stamps last) :
    Edits first stamps last := by
  rw [← Nat.zero_add stamps]
  exact refl.tail (.move traffic)

end Edits

end Broker

end MessageBroker
