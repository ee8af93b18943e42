import MessageBroker.Queue.Messages

/-! What time does to a queue: messages expire, and holds run out. -/

namespace MessageBroker.Queue

def removeHandles (buffer : Sequence Message) :
    List Handle → Sequence Message × Nat
  | [] => (buffer, 0)
  | handle :: rest =>
      match buffer.remove? handle with
      | some (_, remaining) =>
          let (final, count) := removeHandles remaining rest
          (final, count + 1)
      | none => removeHandles buffer rest

def sweepExpired (queue : Queue) (now : Timestamp) : Queue × Nat :=
  let (buffer, count) :=
    removeHandles queue.buffer ((queue.expiring.due now).map Prod.snd)
  ({ queue with buffer := buffer, expiring := queue.expiring.later now }, count)

/-- Deal with one hold that has run out. An expired message is released; any
other goes back to the oldest end, or stays on hold while there is no room. -/
def endHold (now : Timestamp) (state : Queue × SweepStats)
    (hold : Timestamp × Tag) : Queue × SweepStats :=
  let (queue, stats) := state
  let (deadline, tag) := hold
  match queue.held.get? tag with
  | none =>
      ({ queue with
          holdDeadlines := queue.holdDeadlines.erase deadline tag }, stats)
  | some message =>
      if message.isExpired now then
        (queue.forgetHold deadline tag,
          { stats with dropped := stats.dropped + 1 })
      else
        let (roomy, hasRoom) := queue.ensureRoom
        if hasRoom then
          ((roomy.forgetHold deadline tag).enterOldest
              { message with heldUntil := none },
            { stats with redelivered := stats.redelivered + 1 })
        else (roomy, stats)

def sweepUnconfirmed (queue : Queue) (now : Timestamp) : Queue × SweepStats :=
  (queue.holdDeadlines.due now).foldl (endHold now) (queue, .zero)

def sweep (queue : Queue) (now : Timestamp) : Queue × SweepStats :=
  let (fresh, expired) := queue.sweepExpired now
  let (swept, stats) := fresh.sweepUnconfirmed now
  (swept, { stats with expired := stats.expired + expired })

end MessageBroker.Queue
