import MessageBroker.Collection.MemberIndex
import MessageBroker.Identifier

/-! The memberships of one client, as the client's own side keeps them. -/

namespace MessageBroker

structure ClientLinks where
  declaredQueues : MemberSet QueueId
  subscribedQueues : MemberSet QueueId
  topics : MemberIndex ChannelId String
  patterns : MemberIndex ChannelId String

namespace ClientLinks

def empty : ClientLinks where
  declaredQueues := .empty
  subscribedQueues := .empty
  topics := .empty
  patterns := .empty

instance : Inhabited ClientLinks := ⟨empty⟩

def isEmpty (links : ClientLinks) : Bool :=
  links.declaredQueues.isEmpty && links.subscribedQueues.isEmpty &&
    links.topics.isEmpty && links.patterns.isEmpty

def addDeclared (links : ClientLinks) (queue : QueueId) : ClientLinks :=
  { links with declaredQueues := links.declaredQueues.insert queue }

def removeDeclared (links : ClientLinks) (queue : QueueId) : ClientLinks :=
  { links with declaredQueues := links.declaredQueues.erase queue }

def addSubscribed (links : ClientLinks) (queue : QueueId) : ClientLinks :=
  { links with subscribedQueues := links.subscribedQueues.insert queue }

def removeSubscribed (links : ClientLinks) (queue : QueueId) : ClientLinks :=
  { links with subscribedQueues := links.subscribedQueues.erase queue }

def hasTopic (links : ClientLinks) (channel : ChannelId) (topic : String) :
    Bool :=
  links.topics.contains channel topic

def hasPattern (links : ClientLinks) (channel : ChannelId) (pattern : String) :
    Bool :=
  links.patterns.contains channel pattern

def addTopic (links : ClientLinks) (channel : ChannelId) (topic : String) :
    ClientLinks :=
  { links with topics := links.topics.link channel topic }

def removeTopic (links : ClientLinks) (channel : ChannelId) (topic : String) :
    ClientLinks :=
  { links with topics := links.topics.unlink channel topic }

def addPattern (links : ClientLinks) (channel : ChannelId) (pattern : String) :
    ClientLinks :=
  { links with patterns := links.patterns.link channel pattern }

def removePattern (links : ClientLinks) (channel : ChannelId)
    (pattern : String) : ClientLinks :=
  { links with patterns := links.patterns.unlink channel pattern }

def forgetQueue (links : ClientLinks) (queue : QueueId) : ClientLinks :=
  (links.removeDeclared queue).removeSubscribed queue

def forgetChannel (links : ClientLinks) (channel : ChannelId) : ClientLinks :=
  { links with
    topics := links.topics.eraseKey channel
    patterns := links.patterns.eraseKey channel }

end ClientLinks

end MessageBroker
