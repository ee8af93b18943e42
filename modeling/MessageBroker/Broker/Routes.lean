import MessageBroker.Broker.Queues

namespace MessageBroker.Broker

def createRoute (broker : Broker) (name : String) (flags : RouteFlags) :
    Result RouteId :=
  if !Name.isValid name then .refused broker (.invalidName name)
  else if broker.routes.hasName name then .refused broker (.routeExists name)
  else
    let id : RouteId := ⟨broker.lastNumber + 1⟩
    .done {
      broker with
      routes := broker.routes.add (.create id name flags)
      lastNumber := broker.lastNumber + 1
    } id

def deleteRoute (broker : Broker) (id : RouteId) : Result Unit :=
  match broker.routes.find? id with
  | none => .refused broker (.routeNotFound id)
  | some route => .done (broker.removeRoute route) ()

def renameRoute (broker : Broker) (id : RouteId) (name : String) :
    Result Unit :=
  if !Name.isValid name then .refused broker (.invalidName name)
  else if broker.routes.hasName name then .refused broker (.routeExists name)
  else
    match broker.routes.find? id with
    | none => .refused broker (.routeNotFound id)
    | some route =>
        .done { broker with routes := broker.routes.rename route name } ()

/-- Bind a queue to a route under a key, unless it is. -/
def bind (broker : Broker) (id : RouteId) (queue : QueueId) (key : String) :
    Result Unit :=
  match broker.routes.find? id with
  | none => .refused broker (.routeNotFound id)
  | some route =>
      match broker.queues.find? queue with
      | none => .refused broker (.queueNotFound queue)
      | some target =>
          if route.isBound queue key then .done broker ()
          else .done {
            broker with
            routes := broker.routes.put (route.bind queue key)
            queues := broker.queues.put (target.linkRoute id key)
          } ()

/-- Undo a binding. The route may go with its last one. -/
def unbind (broker : Broker) (id : RouteId) (queue : QueueId) (key : String) :
    Result Unit :=
  match broker.routes.find? id with
  | none => .refused broker (.routeNotFound id)
  | some route =>
      match route.unbind queue key with
      | .error failure => .refused broker failure
      | .ok route =>
          let left := {
            broker with
            routes := broker.routes.put route
            queues := broker.queues.update queue fun target =>
              target.unlinkRoute id key
          }
          .done (left.autoDeleteRoute id) ()

/-- The state of a publish between two of its targets. -/
structure Fanout where
  broker : Broker
  failed : Nat
  signals : List Signal

/-- Push into one more target. A target that refuses is counted and changes
nothing for the others. -/
def Fanout.next (payload : Payload) (timeToLive : UInt32) (fanout : Fanout)
    (target : QueueId) : Fanout :=
  let outcome := fanout.broker.push target payload timeToLive
  {
    broker := outcome.state
    failed :=
      match outcome.result with
      | .ok _ => fanout.failed
      | .error _ => fanout.failed + 1
    signals := fanout.signals ++ outcome.signals
  }

/-- Push a payload into every target queue of a key. All of them are tried. -/
def publishRoute (broker : Broker) (id : RouteId) (key : String)
    (payload : Payload) (timeToLive : UInt32) : Result Unit :=
  match broker.routes.find? id with
  | none => .refused broker (.routeNotFound id)
  | some route =>
      match route.targets key with
      | .error failure => .refused broker failure
      | .ok (targets, route) =>
          let fanout := targets.foldl (Fanout.next payload timeToLive) {
            broker := broker.putRoute route
            failed := 0
            signals := []
          }
          {
            state := fanout.broker
            result :=
              if fanout.failed = 0 then .ok ()
              else .error (.deliveryFailed route.name fanout.failed)
            signals := fanout.signals
          }

end MessageBroker.Broker
