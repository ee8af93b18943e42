import MessageBroker.MessagePack.Encoding
import MessageBroker.MessagePack.Record
import MessageBroker.Snapshot

/-! Snapshots in MessagePack form. Every record is written as an array of its
fields. -/

namespace MessageBroker

open MessagePack

def Timestamp.encode (time : Timestamp) : List UInt8 :=
  encodeUnsigned time.toNat

def QueueFlags.encode (flags : QueueFlags) : List UInt8 :=
  encodeArray [
    encodeBoolean flags.autoDelete,
    encodeBoolean flags.forcePush,
    encodeBoolean flags.roundRobin,
    encodeBoolean flags.durable]

def RouteFlags.encode (flags : RouteFlags) : List UInt8 :=
  encodeArray [
    encodeBoolean flags.autoDelete,
    encodeBoolean flags.roundRobin,
    encodeBoolean flags.durable]

def ChannelFlags.encode (flags : ChannelFlags) : List UInt8 :=
  encodeArray [
    encodeBoolean flags.autoDelete,
    encodeBoolean flags.roundRobin]

def QueueSettings.encode (settings : QueueSettings) : List UInt8 :=
  encodeArray [
    encodeUnsigned settings.maxMessages.toNat,
    encodeUnsigned settings.maxMessageSize.toNat,
    settings.flags.encode]

def MessageSnapshot.encode (message : MessageSnapshot) : List UInt8 :=
  encodeArray [
    encodeArray (message.payload.map fun byte => encodeUnsigned byte.toNat),
    message.expiresAt.elim encodeNull Timestamp.encode]

def QueueSnapshot.encode (queue : QueueSnapshot) : List UInt8 :=
  encodeArray [
    encodeText queue.name,
    queue.settings.encode,
    encodeArray (queue.messages.map MessageSnapshot.encode)]

def BindingSnapshot.encode (binding : BindingSnapshot) : List UInt8 :=
  encodeArray [
    encodeText binding.key,
    encodeArray (binding.queues.map encodeText)]

def RouteSnapshot.encode (route : RouteSnapshot) : List UInt8 :=
  encodeArray [
    encodeText route.name,
    route.flags.encode,
    encodeArray (route.bindings.map BindingSnapshot.encode)]

def ChannelSnapshot.encode (channel : ChannelSnapshot) : List UInt8 :=
  encodeArray [encodeText channel.name, channel.flags.encode]

def Snapshot.encode (snapshot : Snapshot) : List UInt8 :=
  encodeArray [
    snapshot.takenAt.encode,
    encodeArray (snapshot.queues.map QueueSnapshot.encode),
    encodeArray (snapshot.routes.map RouteSnapshot.encode),
    encodeArray (snapshot.channels.map ChannelSnapshot.encode)]

def Timestamp.ofValue? (value : Value) : Option Timestamp :=
  value.toUInt64?.map Timestamp.mk

def QueueFlags.ofValue? (value : Value) : Option QueueFlags := do
  match ← value.fields? ["auto_delete", "force_push", "round_robin", "durable"] with
  | [some autoDelete, some forcePush, some roundRobin, some durable] =>
      return {
        autoDelete := ← autoDelete.toBoolean?
        forcePush := ← forcePush.toBoolean?
        roundRobin := ← roundRobin.toBoolean?
        durable := ← durable.toBoolean?
      }
  | _ => none

def RouteFlags.ofValue? (value : Value) : Option RouteFlags := do
  match ← value.fields? ["auto_delete", "round_robin", "durable"] with
  | [some autoDelete, some roundRobin, some durable] =>
      return {
        autoDelete := ← autoDelete.toBoolean?
        roundRobin := ← roundRobin.toBoolean?
        durable := ← durable.toBoolean?
      }
  | _ => none

def ChannelFlags.ofValue? (value : Value) : Option ChannelFlags := do
  match ← value.fields? ["auto_delete", "round_robin"] with
  | [some autoDelete, some roundRobin] =>
      return {
        autoDelete := ← autoDelete.toBoolean?
        roundRobin := ← roundRobin.toBoolean?
      }
  | _ => none

def QueueSettings.ofValue? (value : Value) : Option QueueSettings := do
  match ← value.fields? ["max_messages", "max_message_size", "flags"] with
  | [some maxMessages, some maxMessageSize, some flags] =>
      return {
        maxMessages := ← maxMessages.toUInt32?
        maxMessageSize := ← maxMessageSize.toUInt32?
        flags := ← QueueFlags.ofValue? flags
      }
  | _ => none

/-- The time of expiry may be missing altogether. -/
def MessageSnapshot.ofValue? (value : Value) : Option MessageSnapshot := do
  match ← value.fields? ["payload", "expires_at"] with
  | [some payload, expiresAt] =>
      return {
        payload := ← payload.toBytes?
        expiresAt := ← (expiresAt.getD .null).toOption? Timestamp.ofValue?
      }
  | _ => none

def QueueSnapshot.ofValue? (value : Value) : Option QueueSnapshot := do
  match ← value.fields? ["name", "settings", "messages"] with
  | [some name, some settings, some messages] =>
      return {
        name := ← name.toText?
        settings := ← QueueSettings.ofValue? settings
        messages := ← messages.toList? MessageSnapshot.ofValue?
      }
  | _ => none

def BindingSnapshot.ofValue? (value : Value) : Option BindingSnapshot := do
  match ← value.fields? ["key", "queues"] with
  | [some key, some queues] =>
      return {
        key := ← key.toText?
        queues := ← queues.toList? Value.toText?
      }
  | _ => none

def RouteSnapshot.ofValue? (value : Value) : Option RouteSnapshot := do
  match ← value.fields? ["name", "flags", "bindings"] with
  | [some name, some flags, some bindings] =>
      return {
        name := ← name.toText?
        flags := ← RouteFlags.ofValue? flags
        bindings := ← bindings.toList? BindingSnapshot.ofValue?
      }
  | _ => none

def ChannelSnapshot.ofValue? (value : Value) : Option ChannelSnapshot := do
  match ← value.fields? ["name", "flags"] with
  | [some name, some flags] =>
      return {
        name := ← name.toText?
        flags := ← ChannelFlags.ofValue? flags
      }
  | _ => none

def Snapshot.ofValue? (value : Value) : Option Snapshot := do
  match ← value.fields? ["taken_at", "queues", "routes", "channels"] with
  | [some takenAt, some queues, some routes, some channels] =>
      return {
        takenAt := ← Timestamp.ofValue? takenAt
        queues := ← queues.toList? QueueSnapshot.ofValue?
        routes := ← routes.toList? RouteSnapshot.ofValue?
        channels := ← channels.toList? ChannelSnapshot.ofValue?
      }
  | _ => none

def Snapshot.decode? (body : List UInt8) : Option Snapshot :=
  (MessagePack.decode? body).bind Snapshot.ofValue?

end MessageBroker
