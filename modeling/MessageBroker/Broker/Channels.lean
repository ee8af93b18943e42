import MessageBroker.Broker.Basic

namespace MessageBroker.Broker

def createChannel (broker : Broker) (name : String) (flags : ChannelFlags) :
    Result ChannelId :=
  if !Name.isValid name then .refused broker (.invalidName name)
  else if broker.channels.hasName name then
    .refused broker (.channelExists name)
  else
    let id : ChannelId := ⟨broker.lastNumber + 1⟩
    let channel :=
      Channel.create id name flags broker.config.channelMaxMessageSize
    .done {
      broker with
      channels := broker.channels.add channel
      lastNumber := broker.lastNumber + 1
    } id

def deleteChannel (broker : Broker) (id : ChannelId) : Result Unit :=
  match broker.channels.find? id with
  | none => .refused broker (.channelNotFound id)
  | some channel => .done (broker.removeChannel channel) ()

def renameChannel (broker : Broker) (id : ChannelId) (name : String) :
    Result Unit :=
  if !Name.isValid name then .refused broker (.invalidName name)
  else if broker.channels.hasName name then
    .refused broker (.channelExists name)
  else
    match broker.channels.find? id with
    | none => .refused broker (.channelNotFound id)
    | some channel =>
        .done { broker with channels := broker.channels.rename channel name } ()

/-! Subscriptions. The client is looked up before the channel. -/

def subscribeTopic (broker : Broker) (client : ClientId) (id : ChannelId)
    (topic : String) : Result Unit :=
  if !broker.clients.contains client then
    .refused broker (.clientNotFound client)
  else
    match broker.channels.find? id with
    | none => .refused broker (.channelNotFound id)
    | some channel =>
        if channel.hasTopic client topic then .done broker ()
        else
          .done ((broker.putChannel (channel.subscribeTopic client topic)).modifyLinks
            client fun links => links.addTopic id topic) ()

def subscribePattern (broker : Broker) (client : ClientId) (id : ChannelId)
    (pattern : String) : Result Unit :=
  if !broker.clients.contains client then
    .refused broker (.clientNotFound client)
  else
    match broker.channels.find? id with
    | none => .refused broker (.channelNotFound id)
    | some channel =>
        if channel.hasPattern client pattern then .done broker ()
        else
          .done ((broker.putChannel (channel.subscribePattern client pattern)).modifyLinks
            client fun links => links.addPattern id pattern) ()

/-- Undo a subscription. The channel may go with its last one. -/
def unsubscribeTopic (broker : Broker) (client : ClientId) (id : ChannelId)
    (topic : String) : Result Unit :=
  if !broker.clients.contains client then
    .refused broker (.clientNotFound client)
  else
    match broker.channels.find? id with
    | none => .refused broker (.channelNotFound id)
    | some channel =>
        match channel.unsubscribeTopic client topic with
        | .error failure => .refused broker failure
        | .ok channel =>
            let left := (broker.putChannel channel).modifyLinks client
              fun links => links.removeTopic id topic
            .done (left.autoDeleteChannel id) ()

def unsubscribePattern (broker : Broker) (client : ClientId) (id : ChannelId)
    (pattern : String) : Result Unit :=
  if !broker.clients.contains client then
    .refused broker (.clientNotFound client)
  else
    match broker.channels.find? id with
    | none => .refused broker (.channelNotFound id)
    | some channel =>
        match channel.unsubscribePattern client pattern with
        | .error failure => .refused broker failure
        | .ok channel =>
            let left := (broker.putChannel channel).modifyLinks client
              fun links => links.removePattern id pattern
            .done (left.autoDeleteChannel id) ()

/-- Publish to a topic. The result is the number of deliveries. -/
def publishChannel (broker : Broker) (id : ChannelId) (topic : String)
    (payload : Payload) : Result Nat :=
  match broker.channels.find? id with
  | none => .refused broker (.channelNotFound id)
  | some channel =>
      (channel.publish topic payload).lift
        broker.putChannel Failure.rejected fun count => count

end MessageBroker.Broker
