import MessageBroker.Collection.MemberIndex
import MessageBroker.Failure
import MessageBroker.Stats

/-! Routes: queues bound under keys. -/

namespace MessageBroker

structure Route where
  id : RouteId
  name : String
  flags : RouteFlags
  bindings : MemberIndex String QueueId

namespace Route

def create (id : RouteId) (name : String) (flags : RouteFlags) : Route where
  id := id
  name := name
  flags := flags
  bindings := .empty

def rename (route : Route) (name : String) : Route :=
  { route with name := name }

def isBound (route : Route) (queue : QueueId) (key : String) : Bool :=
  route.bindings.contains key queue

def bind (route : Route) (queue : QueueId) (key : String) : Route :=
  { route with bindings := route.bindings.link key queue }

def unbind (route : Route) (queue : QueueId) (key : String) :
    Except Failure Route :=
  if route.isBound queue key then
    .ok { route with bindings := route.bindings.unlink key queue }
  else .error (.bindingNotFound route.name key)

/-- The queues that a publish under a key goes to: the one whose turn it is, or
all of them. -/
def targets (route : Route) (key : String) :
    Except Failure (List QueueId × Route) :=
  match route.bindings.group? key with
  | none => .error (.bindingNotFound route.name key)
  | some queues =>
      if route.flags.roundRobin then
        .ok (queues.rotate.first?.toList,
          { route with bindings := route.bindings.rotate key })
      else .ok (queues.items, route)

def isEmpty (route : Route) : Bool :=
  route.bindings.isEmpty

def keyCount (route : Route) : Nat :=
  route.bindings.size

def queueCount (route : Route) : Nat :=
  route.bindings.pairs.length

def stats (route : Route) : RouteStats where
  name := route.name
  flags := route.flags
  keys := route.keyCount
  queues := route.queueCount

end Route

end MessageBroker
