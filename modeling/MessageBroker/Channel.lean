import MessageBroker.Collection.MemberIndex
import MessageBroker.Failure
import MessageBroker.Glob
import MessageBroker.Outcome
import MessageBroker.Stats

/-! Channels: whoever listens to a topic, or to a pattern of topics, gets what
is published at that moment. -/

namespace MessageBroker

structure Channel where
  id : ChannelId
  name : String
  flags : ChannelFlags
  maxMessageSize : UInt32
  topics : MemberIndex String ClientId
  patterns : MemberIndex String ClientId

namespace Channel

def create (id : ChannelId) (name : String) (flags : ChannelFlags)
    (maxMessageSize : UInt32) : Channel where
  id := id
  name := name
  flags := flags
  maxMessageSize := maxMessageSize
  topics := .empty
  patterns := .empty

def rename (channel : Channel) (name : String) : Channel :=
  { channel with name := name }

def hasTopic (channel : Channel) (client : ClientId) (topic : String) : Bool :=
  channel.topics.contains topic client

def hasPattern (channel : Channel) (client : ClientId) (pattern : String) :
    Bool :=
  channel.patterns.contains pattern client

def subscribeTopic (channel : Channel) (client : ClientId) (topic : String) :
    Channel :=
  { channel with topics := channel.topics.link topic client }

def subscribePattern (channel : Channel) (client : ClientId)
    (pattern : String) : Channel :=
  { channel with patterns := channel.patterns.link pattern client }

def unsubscribeTopic (channel : Channel) (client : ClientId) (topic : String) :
    Except Failure Channel :=
  if channel.hasTopic client topic then
    .ok { channel with topics := channel.topics.unlink topic client }
  else .error (.subscriptionNotFound channel.name topic)

def unsubscribePattern (channel : Channel) (client : ClientId)
    (pattern : String) : Except Failure Channel :=
  if channel.hasPattern client pattern then
    .ok { channel with patterns := channel.patterns.unlink pattern client }
  else .error (.subscriptionNotFound channel.name pattern)

def isUnused (channel : Channel) : Bool :=
  channel.topics.isEmpty && channel.patterns.isEmpty

def subscribers (channel : Channel) : MemberSet ClientId :=
  .ofList ((channel.topics.pairs ++ channel.patterns.pairs).map Prod.snd)

def subscriberCount (channel : Channel) : Nat :=
  channel.subscribers.size

def stats (channel : Channel) : ChannelStats where
  name := channel.name
  flags := channel.flags
  topics := channel.topics.size
  patterns := channel.patterns.size
  subscribers := channel.subscriberCount

def advanced (channel : Channel) (topic : String) : Channel :=
  if channel.flags.roundRobin then
    { channel with topics := channel.topics.rotate topic }
  else channel

/-- The subscribers of a topic that a message goes to: the one whose turn it
is, or all of them. -/
def topicReceivers (channel : Channel) (topic : String) : List ClientId :=
  match channel.topics.group? topic with
  | none => []
  | some clients =>
      if channel.flags.roundRobin then clients.rotate.first?.toList
      else clients.items

def topicSignals (channel : Channel) (topic : String) (payload : Payload) :
    List Signal :=
  (channel.topicReceivers topic).map fun client =>
    .deliver client (.topic channel.name topic payload)

/-- Subscribers of every pattern that matches, pattern by pattern. -/
def patternSignals (channel : Channel) (topic : String) (payload : Payload) :
    List Signal :=
  channel.patterns.groups.entries.flatMap fun (pattern, clients) =>
    if Glob.isMatch pattern topic then
      clients.items.map fun client =>
        .deliver client (.pattern channel.name topic pattern payload)
    else []

/-- Publish to a topic. The result is the number of deliveries. -/
def publish (channel : Channel) (topic : String) (payload : Payload) :
    Outcome Channel Rejection Nat :=
  if channel.maxMessageSize.toNat < payload.size then
    .refused channel (.tooLarge payload.size channel.maxMessageSize)
  else
    let signals :=
      channel.topicSignals topic payload ++ channel.patternSignals topic payload
    {
      state := channel.advanced topic
      result := .ok signals.length
      signals := signals
    }

end Channel

end MessageBroker
