import MessageBroker.Collection.DeadlineIndex
import MessageBroker.Collection.MemberIndex
import MessageBroker.Collection.Sequence
import MessageBroker.Identifier
import MessageBroker.Message
import MessageBroker.Stats

namespace MessageBroker

structure Queue where
  id : QueueId
  name : String
  settings : QueueSettings
  buffer : Sequence Message
  /-- Buffered messages that can expire. -/
  expiring : DeadlineIndex Handle
  /-- Messages taken on hold and not yet confirmed. -/
  held : AssocList Tag Message
  holdDeadlines : DeadlineIndex Tag
  declared : MemberSet ClientId
  messageSubscribers : MemberSet ClientId
  notifySubscribers : MemberSet ClientId
  /-- Routes the queue is bound to, under their keys. -/
  bindings : MemberIndex String RouteId

namespace Queue

def create (id : QueueId) (name : String) (settings : QueueSettings)
    (slots : SlotPolicy := .lowest) : Queue where
  id := id
  name := name
  settings := settings
  buffer := .empty slots
  expiring := .empty
  held := .empty
  holdDeadlines := .empty
  declared := .empty
  messageSubscribers := .empty
  notifySubscribers := .empty
  bindings := .empty

def rename (queue : Queue) (name : String) : Queue :=
  { queue with name := name }

def size (queue : Queue) : Nat :=
  queue.buffer.size

def isEmpty (queue : Queue) : Bool :=
  queue.buffer.isEmpty

def capacity (queue : Queue) : Nat :=
  queue.settings.maxMessages.toNat

def isFull (queue : Queue) : Bool :=
  queue.capacity ≤ queue.size

/-- Buffered messages, the oldest first. -/
def messages (queue : Queue) : List Message :=
  queue.buffer.toList

def heldMessages (queue : Queue) : List Message :=
  queue.held.values

def declare (queue : Queue) (client : ClientId) : Queue :=
  { queue with declared := queue.declared.insert client }

def undeclare (queue : Queue) (client : ClientId) : Queue :=
  { queue with declared := queue.declared.erase client }

def isDeclared (queue : Queue) (client : ClientId) : Bool :=
  queue.declared.contains client

/-- Subscribe to messages, or to notices only. A client has one of the two
roles. -/
def subscribe (queue : Queue) (client : ClientId) (noticesOnly : Bool) :
    Queue :=
  if noticesOnly then {
    queue with
    messageSubscribers := queue.messageSubscribers.erase client
    notifySubscribers := queue.notifySubscribers.insert client
  }
  else {
    queue with
    messageSubscribers := queue.messageSubscribers.insert client
    notifySubscribers := queue.notifySubscribers.erase client
  }

def unsubscribe (queue : Queue) (client : ClientId) : Queue := {
  queue with
  messageSubscribers := queue.messageSubscribers.erase client
  notifySubscribers := queue.notifySubscribers.erase client
}

def isSubscribedAs (queue : Queue) (client : ClientId) (noticesOnly : Bool) :
    Bool :=
  if noticesOnly then queue.notifySubscribers.contains client
  else queue.messageSubscribers.contains client

def isSubscribed (queue : Queue) (client : ClientId) : Bool :=
  queue.messageSubscribers.contains client ||
    queue.notifySubscribers.contains client

def subscribers (queue : Queue) : List ClientId :=
  queue.messageSubscribers.items ++ queue.notifySubscribers.items

def linkRoute (queue : Queue) (route : RouteId) (key : String) : Queue :=
  { queue with bindings := queue.bindings.link key route }

def unlinkRoute (queue : Queue) (route : RouteId) (key : String) : Queue :=
  { queue with bindings := queue.bindings.unlink key route }

def stats (queue : Queue) : QueueStats where
  name := queue.name
  settings := queue.settings
  size := queue.size
  unconfirmed := queue.held.size
  declaredClients := queue.declared.size
  subscribedClients :=
    queue.messageSubscribers.size + queue.notifySubscribers.size

end Queue

end MessageBroker
