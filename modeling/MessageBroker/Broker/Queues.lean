import MessageBroker.Broker.Basic

namespace MessageBroker.Broker

def queueFault? (config : Config) (settings : QueueSettings) :
    Option SettingsFault :=
  if settings.maxMessages = 0 ∨
      config.maxQueueMessages < settings.maxMessages then
    some (.maxMessagesOutOfRange config.maxQueueMessages)
  else if settings.maxMessageSize = 0 ∨
      config.maxMessageSize < settings.maxMessageSize then
    some (.maxMessageSizeOutOfRange config.maxMessageSize)
  else none

def createQueue (broker : Broker) (name : String) (settings : QueueSettings) :
    Result QueueId :=
  if !Name.isValid name then .refused broker (.invalidName name)
  else if broker.queues.hasName name then .refused broker (.queueExists name)
  else
    match queueFault? broker.config settings with
    | some fault => .refused broker (.invalidSettings fault)
    | none =>
        let id : QueueId := ⟨broker.lastNumber + 1⟩
        .done {
          broker with
          queues := broker.queues.add
            (.create id name settings (broker.slots id))
          lastNumber := broker.lastNumber + 1
        } id

def deleteQueue (broker : Broker) (id : QueueId) : Result Unit :=
  match broker.queues.find? id with
  | none => .refused broker (.queueNotFound id)
  | some queue => .done (broker.removeQueue queue) ()

def renameQueue (broker : Broker) (id : QueueId) (name : String) :
    Result Unit :=
  if !Name.isValid name then .refused broker (.invalidName name)
  else if broker.queues.hasName name then .refused broker (.queueExists name)
  else
    match broker.queues.find? id with
    | none => .refused broker (.queueNotFound id)
    | some queue =>
        .done { broker with queues := broker.queues.rename queue name } ()

/-! Members. The client is looked up before the queue. -/

def declareQueue (broker : Broker) (client : ClientId) (id : QueueId) :
    Result Unit :=
  if !broker.clients.contains client then
    .refused broker (.clientNotFound client)
  else
    match broker.queues.find? id with
    | none => .refused broker (.queueNotFound id)
    | some queue =>
        if queue.isDeclared client then .done broker ()
        else
          .done ((broker.putQueue (queue.declare client)).modifyLinks client
            fun links => links.addDeclared id) ()

/-- Undo a declaration. The queue may go with its last one. -/
def undeclareQueue (broker : Broker) (client : ClientId) (id : QueueId) :
    Result Unit :=
  if !broker.clients.contains client then
    .refused broker (.clientNotFound client)
  else
    match broker.queues.find? id with
    | none => .refused broker (.queueNotFound id)
    | some queue =>
        if !queue.isDeclared client then
          .refused broker (.notMember client queue.name)
        else
          let left := (broker.putQueue (queue.undeclare client)).modifyLinks
            client fun links => links.removeDeclared id
          .done (left.autoDeleteQueue id) ()

def subscribeQueue (broker : Broker) (client : ClientId) (id : QueueId)
    (noticesOnly : Bool) : Result Unit :=
  if !broker.clients.contains client then
    .refused broker (.clientNotFound client)
  else
    match broker.queues.find? id with
    | none => .refused broker (.queueNotFound id)
    | some queue =>
        .done ((broker.putQueue (queue.subscribe client noticesOnly)).modifyLinks
          client fun links => links.addSubscribed id) ()

def unsubscribeQueue (broker : Broker) (client : ClientId) (id : QueueId) :
    Result Unit :=
  if !broker.clients.contains client then
    .refused broker (.clientNotFound client)
  else
    match broker.queues.find? id with
    | none => .refused broker (.queueNotFound id)
    | some queue =>
        if !queue.isSubscribed client then
          .refused broker (.notMember client queue.name)
        else
          .done ((broker.putQueue (queue.unsubscribe client)).modifyLinks client
            fun links => links.removeSubscribed id) ()

def push (broker : Broker) (id : QueueId) (payload : Payload)
    (timeToLive : UInt32) : Result Unit :=
  match broker.queues.find? id with
  | none => .refused broker (.queueNotFound id)
  | some queue =>
      (queue.push broker.clock payload timeToLive).lift
        (fun (queue, clock) => { broker.putQueue queue with clock := clock })
        Failure.rejected fun _ => ()

def peek (broker : Broker) (id : QueueId) : Except Failure (Option Message) :=
  match broker.queues.find? id with
  | none => .error (.queueNotFound id)
  | some queue => .ok queue.peek?

def pop (broker : Broker) (id : QueueId) (holdTime : UInt32) :
    Result (Option Message) :=
  match broker.queues.find? id with
  | none => .refused broker (.queueNotFound id)
  | some queue =>
      let (message?, rest) := queue.pop holdTime broker.now
      .done (broker.putQueue rest) message?

def confirm (broker : Broker) (id : QueueId) (tag : Tag) : Result Unit :=
  match broker.queues.find? id with
  | none => .refused broker (.queueNotFound id)
  | some queue =>
      match queue.confirm tag with
      | .error failure => .refused broker failure
      | .ok queue => .done (broker.putQueue queue) ()

/-- Drop what a queue buffers. The result is the number of messages. -/
def purge (broker : Broker) (id : QueueId) : Result Nat :=
  match broker.queues.find? id with
  | none => .refused broker (.queueNotFound id)
  | some queue =>
      let (purged, count) := queue.purge
      .done (broker.putQueue purged) count

end MessageBroker.Broker
