import MessageBroker.Channel
import MessageBroker.Queue.Basic
import MessageBroker.Route
import MessageBroker.Text.Record

/-! Entities and values as one line of text, for logs. -/

namespace MessageBroker

open Text

def QueueId.describe (id : QueueId) : String :=
  wrapped "QueueId" (toString id.number)

def RouteId.describe (id : RouteId) : String :=
  wrapped "RouteId" (toString id.number)

def ChannelId.describe (id : ChannelId) : String :=
  wrapped "ChannelId" (toString id.number)

def ClientId.describe (id : ClientId) : String :=
  wrapped "ClientId" (toString id.number)

def Tag.describe (tag : Tag) : String :=
  wrapped "MessageTag" ("0x" ++ hexadecimal tag.toNat)

def Timestamp.describe (time : Timestamp) : String :=
  wrapped "Timestamp" (toString time.toNat)

def Payload.describe (payload : Payload) (holders : Nat) : String :=
  record "SharedBuffer" [
    ("len", toString payload.size),
    ("refcount", toString holders)]

def QueueFlags.describe (flags : QueueFlags) : String :=
  record "QueueFlags" [
    ("auto_delete", boolean flags.autoDelete),
    ("force_push", boolean flags.forcePush),
    ("round_robin", boolean flags.roundRobin),
    ("durable", boolean flags.durable)]

def RouteFlags.describe (flags : RouteFlags) : String :=
  record "RouteFlags" [
    ("auto_delete", boolean flags.autoDelete),
    ("round_robin", boolean flags.roundRobin),
    ("durable", boolean flags.durable)]

def ChannelFlags.describe (flags : ChannelFlags) : String :=
  record "ChannelFlags" [
    ("auto_delete", boolean flags.autoDelete),
    ("round_robin", boolean flags.roundRobin)]

def QueueSettings.describe (settings : QueueSettings) : String :=
  record "QueueSettings" [
    ("max_messages", toString settings.maxMessages),
    ("max_message_size", toString settings.maxMessageSize),
    ("flags", settings.flags.describe)]

def MemberIndex.describe (index : MemberIndex String α)
    (member : α → String) : String :=
  record "AssocList" [
    ("entries", list (index.toLists.map fun (key, members) =>
      pair (quote key)
        (record "MemberSet" [("items", list (members.map member))])))]

def Queue.describe (queue : Queue) : String :=
  record "Queue" [
    ("id", queue.id.describe),
    ("name", quote queue.name),
    ("settings", queue.settings.describe),
    ("size", toString queue.size),
    ("unconfirmed", toString queue.held.size)]

def Route.describe (route : Route) : String :=
  record "Route" [
    ("id", route.id.describe),
    ("name", quote route.name),
    ("flags", route.flags.describe),
    ("bindings", route.bindings.describe QueueId.describe)]

def Channel.describe (channel : Channel) : String :=
  record "Channel" [
    ("id", channel.id.describe),
    ("name", quote channel.name),
    ("flags", channel.flags.describe),
    ("max_message_size", toString channel.maxMessageSize),
    ("topics", channel.topics.describe ClientId.describe),
    ("patterns", channel.patterns.describe ClientId.describe)]

end MessageBroker
