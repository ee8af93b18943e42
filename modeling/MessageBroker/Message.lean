import MessageBroker.Payload
import MessageBroker.Tag

/-! Messages: a payload with what its delivery needs. -/

namespace MessageBroker

structure Message where
  payload : Payload
  tag : Tag
  expiresAt : Option Timestamp
  /-- Until when a consumer holds the message, while one does. -/
  heldUntil : Option Timestamp
  deriving DecidableEq

namespace Message

/-- When something started now ends, where zero milliseconds stand for never. -/
def deadline? (now : Timestamp) (millis : UInt32) : Option Timestamp :=
  if millis = 0 then none else some (now.after millis.toUInt64)

/-- A message pushed at the clock's time under its next tag. -/
def stamp (clock : TagClock) (payload : Payload) (timeToLive : UInt32) :
    Message where
  payload := payload
  tag := clock.nextTag
  expiresAt := deadline? clock.now timeToLive
  heldUntil := none

def isExpired (message : Message) (now : Timestamp) : Bool :=
  message.expiresAt.any fun deadline => deadline ≤ now

def isHoldOver (message : Message) (now : Timestamp) : Bool :=
  message.heldUntil.any fun deadline => deadline ≤ now

end Message

end MessageBroker
