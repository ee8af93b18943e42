import MessageBroker.Broker.Clients
import MessageBroker.Broker.Routes
import MessageBroker.Broker.Upkeep

/-! Everything that can be asked of a broker, as data. -/

namespace MessageBroker

inductive Command where
  | connect (client : ClientId)
  | eject (client : ClientId)
  | createQueue (name : String) (settings : QueueSettings)
  | deleteQueue (queue : QueueId)
  | renameQueue (queue : QueueId) (name : String)
  | declareQueue (client : ClientId) (queue : QueueId)
  | undeclareQueue (client : ClientId) (queue : QueueId)
  | subscribeQueue (client : ClientId) (queue : QueueId) (noticesOnly : Bool)
  | unsubscribeQueue (client : ClientId) (queue : QueueId)
  | push (queue : QueueId) (payload : Payload) (timeToLive : UInt32)
  | peek (queue : QueueId)
  | pop (queue : QueueId) (holdTime : UInt32)
  | confirm (queue : QueueId) (tag : Tag)
  | purge (queue : QueueId)
  | createRoute (name : String) (flags : RouteFlags)
  | deleteRoute (route : RouteId)
  | renameRoute (route : RouteId) (name : String)
  | bind (route : RouteId) (queue : QueueId) (key : String)
  | unbind (route : RouteId) (queue : QueueId) (key : String)
  | publishRoute (route : RouteId) (key : String) (payload : Payload)
      (timeToLive : UInt32)
  | createChannel (name : String) (flags : ChannelFlags)
  | deleteChannel (channel : ChannelId)
  | renameChannel (channel : ChannelId) (name : String)
  | subscribeTopic (client : ClientId) (channel : ChannelId) (topic : String)
  | subscribePattern (client : ClientId) (channel : ChannelId)
      (pattern : String)
  | unsubscribeTopic (client : ClientId) (channel : ChannelId) (topic : String)
  | unsubscribePattern (client : ClientId) (channel : ChannelId)
      (pattern : String)
  | publishChannel (channel : ChannelId) (topic : String) (payload : Payload)
  | tick (now : Timestamp)
  | flush
  deriving DecidableEq

inductive Reply where
  | done
  | truth (value : Bool)
  | count (value : Nat)
  | queue (id : QueueId)
  | route (id : RouteId)
  | channel (id : ChannelId)
  | message (message? : Option Message)
  | sweep (stats : SweepStats)
  deriving DecidableEq

namespace Broker

def Result.reply (result : Result α) (reply : α → Reply) : Result Reply :=
  result.lift (fun broker => broker) (fun failure => failure) reply

def perform (broker : Broker) : Command → Result Reply
  | .connect client => (broker.connect client).reply .truth
  | .eject client => (broker.eject client).reply .truth
  | .createQueue name settings =>
      (broker.createQueue name settings).reply .queue
  | .deleteQueue queue => (broker.deleteQueue queue).reply fun _ => .done
  | .renameQueue queue name =>
      (broker.renameQueue queue name).reply fun _ => .done
  | .declareQueue client queue =>
      (broker.declareQueue client queue).reply fun _ => .done
  | .undeclareQueue client queue =>
      (broker.undeclareQueue client queue).reply fun _ => .done
  | .subscribeQueue client queue noticesOnly =>
      (broker.subscribeQueue client queue noticesOnly).reply fun _ => .done
  | .unsubscribeQueue client queue =>
      (broker.unsubscribeQueue client queue).reply fun _ => .done
  | .push queue payload timeToLive =>
      (broker.push queue payload timeToLive).reply fun _ => .done
  | .peek queue => {
      state := broker
      result := (broker.peek queue).map .message
      signals := []
    }
  | .pop queue holdTime => (broker.pop queue holdTime).reply .message
  | .confirm queue tag => (broker.confirm queue tag).reply fun _ => .done
  | .purge queue => (broker.purge queue).reply .count
  | .createRoute name flags => (broker.createRoute name flags).reply .route
  | .deleteRoute route => (broker.deleteRoute route).reply fun _ => .done
  | .renameRoute route name =>
      (broker.renameRoute route name).reply fun _ => .done
  | .bind route queue key => (broker.bind route queue key).reply fun _ => .done
  | .unbind route queue key =>
      (broker.unbind route queue key).reply fun _ => .done
  | .publishRoute route key payload timeToLive =>
      (broker.publishRoute route key payload timeToLive).reply fun _ => .done
  | .createChannel name flags =>
      (broker.createChannel name flags).reply .channel
  | .deleteChannel channel =>
      (broker.deleteChannel channel).reply fun _ => .done
  | .renameChannel channel name =>
      (broker.renameChannel channel name).reply fun _ => .done
  | .subscribeTopic client channel topic =>
      (broker.subscribeTopic client channel topic).reply fun _ => .done
  | .subscribePattern client channel pattern =>
      (broker.subscribePattern client channel pattern).reply fun _ => .done
  | .unsubscribeTopic client channel topic =>
      (broker.unsubscribeTopic client channel topic).reply fun _ => .done
  | .unsubscribePattern client channel pattern =>
      (broker.unsubscribePattern client channel pattern).reply fun _ => .done
  | .publishChannel channel topic payload =>
      (broker.publishChannel channel topic payload).reply .count
  | .tick now => (broker.tick now).reply .sweep
  | .flush => .done broker.flush .done

def run (broker : Broker) (commands : List Command) : Broker :=
  commands.foldl (fun broker command => (broker.perform command).state) broker

end Broker

end MessageBroker
