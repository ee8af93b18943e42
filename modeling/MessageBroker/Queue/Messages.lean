import MessageBroker.Failure
import MessageBroker.Outcome
import MessageBroker.Queue.Basic

/-! How messages enter and leave a queue. -/

namespace MessageBroker.Queue

/-! Buffering. The index of messages that can expire follows every move. -/

def enterNewest (queue : Queue) (message : Message) : Queue := {
  queue with
  buffer := queue.buffer.pushNewest message
  expiring :=
    match message.expiresAt with
    | some deadline => queue.expiring.insert deadline queue.buffer.freshHandle
    | none => queue.expiring
}

def enterOldest (queue : Queue) (message : Message) : Queue := {
  queue with
  buffer := queue.buffer.pushOldest message
  expiring :=
    match message.expiresAt with
    | some deadline => queue.expiring.insert deadline queue.buffer.freshHandle
    | none => queue.expiring
}

def takeOldest? (queue : Queue) : Option (Message × Queue) :=
  queue.buffer.popOldest?.map fun (handle, message, rest) => (message, {
    queue with
    buffer := rest
    expiring :=
      match message.expiresAt with
      | some deadline => queue.expiring.erase deadline handle
      | none => queue.expiring
  })

/-- Drop the oldest messages until one more fits, so many at most. The answer
says whether one more fits. -/
def evictOldest : Nat → Queue → Queue × Bool
  | 0, queue => (queue, !queue.isFull)
  | most + 1, queue =>
      if queue.isFull then
        match queue.takeOldest? with
        | some (_, rest) => evictOldest most rest
        | none => (queue, false)
      else (queue, true)

/-- Make sure that one more message fits, by eviction where the queue allows
it. -/
def ensureRoom (queue : Queue) : Queue × Bool :=
  if queue.isFull then
    if queue.settings.flags.forcePush then evictOldest queue.size queue
    else (queue, false)
  else (queue, true)

def isTooLarge (queue : Queue) (payload : Payload) : Bool :=
  queue.settings.maxMessageSize.toNat < payload.size

/-- The subscribers that a message is passed on to: the one whose turn it is,
or all of them. -/
def receivers (queue : Queue) : List ClientId :=
  if queue.settings.flags.roundRobin then
    queue.messageSubscribers.rotate.first?.toList
  else queue.messageSubscribers.items

def dispatched (queue : Queue) : Queue :=
  if queue.settings.flags.roundRobin then
    { queue with messageSubscribers := queue.messageSubscribers.rotate }
  else queue

def dispatchSignals (queue : Queue) (message : Message) : List Signal :=
  queue.receivers.map fun client =>
    .deliver client (.message queue.name message.tag message.payload)

/-- A notice for everyone who wants to hear of pushes. -/
def noticeSignals (queue : Queue) : List Signal :=
  queue.notifySubscribers.items.map fun client =>
    .deliver client (.notice queue.name)

/-- Push a payload. Message subscribers get it at once and it is not buffered;
without any it is buffered at the newest end. -/
def push (queue : Queue) (clock : TagClock) (payload : Payload)
    (timeToLive : UInt32) : Outcome (Queue × TagClock) Rejection Unit :=
  let message := Message.stamp clock payload timeToLive
  if queue.isTooLarge payload then
    .refused (queue, clock)
      (.tooLarge payload.size queue.settings.maxMessageSize)
  else if !queue.messageSubscribers.isEmpty then {
    state := (queue.dispatched, clock.stamped)
    result := .ok ()
    signals := queue.dispatchSignals message ++ queue.noticeSignals
  }
  else
    let (roomy, hasRoom) := queue.ensureRoom
    if hasRoom then {
      state := (roomy.enterNewest message, clock.stamped)
      result := .ok ()
      signals := queue.noticeSignals
    }
    else .refused (roomy, clock) (.full queue.name)

/-- Buffer a message that comes back from a snapshot, unless it does not fit. -/
def refill (queue : Queue) (message : Message) : Queue :=
  if queue.isTooLarge message.payload then queue
  else
    let (roomy, hasRoom) := queue.ensureRoom
    if hasRoom then roomy.enterNewest message else roomy

def peek? (queue : Queue) : Option Message :=
  queue.buffer.oldest?.map Prod.snd

/-- Remember a message that a consumer holds until it confirms it. -/
def hold (queue : Queue) (message : Message) (deadline : Timestamp) : Queue := {
  queue with
  held := queue.held.insert message.tag { message with heldUntil := deadline }
  holdDeadlines := queue.holdDeadlines.insert deadline message.tag
}

def forgetHold (queue : Queue) (deadline : Timestamp) (tag : Tag) : Queue := {
  queue with
  held := queue.held.erase tag
  holdDeadlines := queue.holdDeadlines.erase deadline tag
}

/-- Take the oldest buffered message, on hold if the time to hold it is not
zero. -/
def pop (queue : Queue) (holdTime : UInt32) (now : Timestamp) :
    Option Message × Queue :=
  match queue.takeOldest? with
  | none => (none, queue)
  | some (message, rest) =>
      match Message.deadline? now holdTime with
      | none => (some message, rest)
      | some deadline =>
          (some { message with heldUntil := deadline },
            rest.hold message deadline)

def confirm (queue : Queue) (tag : Tag) : Except Failure Queue :=
  match queue.held.get? tag with
  | none => .error (.messageNotFound queue.name tag)
  | some message => .ok {
      queue with
      held := queue.held.erase tag
      holdDeadlines :=
        match message.heldUntil with
        | some deadline => queue.holdDeadlines.erase deadline tag
        | none => queue.holdDeadlines
    }

/-- Drop every buffered message, and count them. Messages on hold stay. -/
def purge (queue : Queue) : Queue × Nat :=
  let (buffer, count) := queue.buffer.clear
  ({ queue with buffer := buffer, expiring := .empty }, count)

end MessageBroker.Queue
