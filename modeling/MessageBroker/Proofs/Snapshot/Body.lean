import MessageBroker.Proofs.MessagePack.Reading
import MessageBroker.Snapshot.Body

/-! A snapshot whose parts have lengths of at most 32 bits is decoded from the
bytes that it is encoded as. The values that the bytes stand for are the link
between the two. -/

namespace MessageBroker

open MessagePack

def Timestamp.toValue (time : Timestamp) : Value :=
  .unsigned time.toNat

def QueueFlags.toValue (flags : QueueFlags) : Value :=
  .array [.boolean flags.autoDelete, .boolean flags.forcePush,
    .boolean flags.roundRobin, .boolean flags.durable]

def RouteFlags.toValue (flags : RouteFlags) : Value :=
  .array [.boolean flags.autoDelete, .boolean flags.roundRobin,
    .boolean flags.durable]

def ChannelFlags.toValue (flags : ChannelFlags) : Value :=
  .array [.boolean flags.autoDelete, .boolean flags.roundRobin]

def QueueSettings.toValue (settings : QueueSettings) : Value :=
  .array [.unsigned settings.maxMessages.toNat,
    .unsigned settings.maxMessageSize.toNat, settings.flags.toValue]

def MessageSnapshot.toValue (message : MessageSnapshot) : Value :=
  .array [.array (message.payload.map fun byte => .unsigned byte.toNat),
    message.expiresAt.elim .null Timestamp.toValue]

def MessagePack.Value.ofText (text : String) : Value :=
  .text (Text.toUtf8 text)

def QueueSnapshot.toValue (queue : QueueSnapshot) : Value :=
  .array [Value.ofText queue.name, queue.settings.toValue,
    .array (queue.messages.map MessageSnapshot.toValue)]

def BindingSnapshot.toValue (binding : BindingSnapshot) : Value :=
  .array [Value.ofText binding.key, .array (binding.queues.map Value.ofText)]

def RouteSnapshot.toValue (route : RouteSnapshot) : Value :=
  .array [Value.ofText route.name, route.flags.toValue,
    .array (route.bindings.map BindingSnapshot.toValue)]

def ChannelSnapshot.toValue (channel : ChannelSnapshot) : Value :=
  .array [Value.ofText channel.name, channel.flags.toValue]

def Snapshot.toValue (snapshot : Snapshot) : Value :=
  .array [snapshot.takenAt.toValue,
    .array (snapshot.queues.map QueueSnapshot.toValue),
    .array (snapshot.routes.map RouteSnapshot.toValue),
    .array (snapshot.channels.map ChannelSnapshot.toValue)]

def IsShort (text : String) : Prop :=
  text.utf8ByteSize < UInt32.size

instance (text : String) : Decidable (IsShort text) :=
  inferInstanceAs (Decidable (text.utf8ByteSize < UInt32.size))

structure QueueSnapshot.Sized (queue : QueueSnapshot) : Prop where
  name : IsShort queue.name
  messages : queue.messages.length < UInt32.size
  payloads : ∀ message ∈ queue.messages,
    message.payload.length < UInt32.size

structure BindingSnapshot.Sized (binding : BindingSnapshot) : Prop where
  key : IsShort binding.key
  queues : binding.queues.length < UInt32.size
  names : ∀ name ∈ binding.queues, IsShort name

structure RouteSnapshot.Sized (route : RouteSnapshot) : Prop where
  name : IsShort route.name
  bindings : route.bindings.length < UInt32.size
  parts : ∀ binding ∈ route.bindings, binding.Sized

/-- No text and no list in the snapshot is longer than 32 bits can tell. -/
structure Snapshot.Sized (snapshot : Snapshot) : Prop where
  queueCount : snapshot.queues.length < UInt32.size
  queues : ∀ queue ∈ snapshot.queues, queue.Sized
  routeCount : snapshot.routes.length < UInt32.size
  routes : ∀ route ∈ snapshot.routes, route.Sized
  channelCount : snapshot.channels.length < UInt32.size
  channels : ∀ channel ∈ snapshot.channels, IsShort channel.name

theorem Timestamp.spells (time : Timestamp) :
    Spells 0 time.encode time.toValue :=
  spells_unsigned time.toNat_lt

theorem QueueFlags.spells (flags : QueueFlags) :
    Spells 1 flags.encode flags.toValue :=
  spells_record (.cons (spells_boolean _) (.cons (spells_boolean _)
    (.cons (spells_boolean _) (.cons (spells_boolean _) .nil)))) (by simp)

theorem RouteFlags.spells (flags : RouteFlags) :
    Spells 1 flags.encode flags.toValue :=
  spells_record (.cons (spells_boolean _) (.cons (spells_boolean _)
    (.cons (spells_boolean _) .nil))) (by simp)

theorem ChannelFlags.spells (flags : ChannelFlags) :
    Spells 1 flags.encode flags.toValue :=
  spells_record (.cons (spells_boolean _) (.cons (spells_boolean _) .nil))
    (by simp)

theorem spells_word (number : UInt32) :
    Spells 0 (encodeUnsigned number.toNat) (.unsigned number.toNat) :=
  spells_unsigned (Nat.lt_trans number.toNat_lt (by decide))

theorem QueueSettings.spells (settings : QueueSettings) :
    Spells 2 settings.encode settings.toValue :=
  spells_record (.cons ((spells_word _).mono (by decide))
    (.cons ((spells_word _).mono (by decide))
      (.cons settings.flags.spells .nil))) (by simp)

theorem MessageSnapshot.spells (message : MessageSnapshot)
    (hpayload : message.payload.length < UInt32.size) :
    Spells 2 message.encode message.toValue := by
  have hbytes : ∀ byte ∈ message.payload,
      Spells 0 (encodeUnsigned byte.toNat) (.unsigned byte.toNat) :=
    fun byte _ => spells_unsigned (Nat.lt_trans byte.toNat_lt (by decide))
  have hexpires : Spells 0
      (message.expiresAt.elim encodeNull Timestamp.encode)
      (message.expiresAt.elim .null Timestamp.toValue) := by
    cases message.expiresAt with
    | none => exact spells_null
    | some time => exact time.spells
  exact spells_record (.cons (spells_list hbytes hpayload)
    (.cons (hexpires.mono (by decide)) .nil)) (by simp)

theorem QueueSnapshot.Sized.spells {queue : QueueSnapshot} (h : queue.Sized) :
    Spells 4 queue.encode queue.toValue := by
  have hmessages := spells_list
    (fun message hmem => message.spells (h.payloads message hmem)) h.messages
  exact spells_record (.cons ((spells_text h.name).mono (by decide))
    (.cons (queue.settings.spells.mono (by decide)) (.cons hmessages .nil)))
    (by simp)

theorem BindingSnapshot.Sized.spells {binding : BindingSnapshot}
    (h : binding.Sized) : Spells 2 binding.encode binding.toValue := by
  have hnames : Spells 1 (encodeArray (binding.queues.map encodeText))
      (.array (binding.queues.map Value.ofText)) :=
    spells_list (fun name hmem => spells_text (h.names name hmem)) h.queues
  exact spells_record (.cons ((spells_text h.key).mono (by decide))
    (.cons hnames .nil)) (by simp)

theorem RouteSnapshot.Sized.spells {route : RouteSnapshot} (h : route.Sized) :
    Spells 4 route.encode route.toValue := by
  have hbindings := spells_list
    (fun binding hmem => (h.parts binding hmem).spells) h.bindings
  exact spells_record (.cons ((spells_text h.name).mono (by decide))
    (.cons (route.flags.spells.mono (by decide)) (.cons hbindings .nil)))
    (by simp)

theorem ChannelSnapshot.spells {channel : ChannelSnapshot}
    (h : IsShort channel.name) : Spells 2 channel.encode channel.toValue :=
  spells_record (.cons ((spells_text h).mono (by decide))
    (.cons channel.flags.spells .nil)) (by simp)

theorem Snapshot.Sized.spells {snapshot : Snapshot} (h : snapshot.Sized) :
    Spells 6 snapshot.encode snapshot.toValue := by
  have hqueues := spells_list
    (fun queue hmem => (h.queues queue hmem).spells) h.queueCount
  have hroutes := spells_list
    (fun route hmem => (h.routes route hmem).spells) h.routeCount
  have hchannels := spells_list
    (fun channel hmem => ChannelSnapshot.spells (h.channels channel hmem))
    h.channelCount
  exact spells_record (.cons (snapshot.takenAt.spells.mono (by decide))
    (.cons hqueues (.cons hroutes
      (.cons (hchannels.mono (by decide)) .nil)))) (by simp)

theorem mapM_map_of_eq_some {α β : Type} {write : α → β} {read? : β → Option α}
    {items : List α} (h : ∀ item, read? (write item) = some item) :
    (items.map write).mapM read? = some items := by
  induction items with
  | nil => rfl
  | cons item rest ih => simp [h, ih]

theorem toList?_array_map {α : Type} {write : α → Value}
    {read? : Value → Option α} (h : ∀ item, read? (write item) = some item)
    (items : List α) :
    (Value.array (items.map write)).toList? read? = some items :=
  mapM_map_of_eq_some h

theorem toText?_ofText (text : String) :
    (Value.ofText text).toText? = some text :=
  Text.ofUtf8?_toUtf8 text

theorem toUInt8?_unsigned (byte : UInt8) :
    (Value.unsigned byte.toNat).toUInt8? = some byte := by
  simp [Value.toUInt8?, Value.toNatBelow?, Value.toNat?, byte.toNat_lt]

theorem toUInt32?_unsigned (number : UInt32) :
    (Value.unsigned number.toNat).toUInt32? = some number := by
  simp [Value.toUInt32?, Value.toNatBelow?, Value.toNat?, number.toNat_lt]

theorem Timestamp.ofValue?_toValue (time : Timestamp) :
    Timestamp.ofValue? time.toValue = some time := by
  simp [Timestamp.ofValue?, Timestamp.toValue, Timestamp.toNat,
    Value.toUInt64?, Value.toNatBelow?, Value.toNat?, time.millis.toNat_lt]

theorem QueueFlags.ofValue?_toValue (flags : QueueFlags) :
    QueueFlags.ofValue? flags.toValue = some flags := rfl

theorem RouteFlags.ofValue?_toValue (flags : RouteFlags) :
    RouteFlags.ofValue? flags.toValue = some flags := rfl

theorem ChannelFlags.ofValue?_toValue (flags : ChannelFlags) :
    ChannelFlags.ofValue? flags.toValue = some flags := rfl

theorem QueueSettings.ofValue?_toValue (settings : QueueSettings) :
    QueueSettings.ofValue? settings.toValue = some settings := by
  simp [QueueSettings.ofValue?, QueueSettings.toValue, Value.fields?,
    toUInt32?_unsigned, QueueFlags.ofValue?_toValue]

theorem MessageSnapshot.ofValue?_toValue (message : MessageSnapshot) :
    MessageSnapshot.ofValue? message.toValue = some message := by
  obtain ⟨payload, expiresAt⟩ := message
  have hbytes : (Value.array (payload.map fun byte =>
      .unsigned byte.toNat)).toBytes? = some payload :=
    mapM_map_of_eq_some toUInt8?_unsigned
  have hexpires : (expiresAt.elim Value.null Timestamp.toValue).toOption?
      Timestamp.ofValue? = some expiresAt := by
    cases expiresAt with
    | none => rfl
    | some time =>
        exact congrArg (Option.map some) time.ofValue?_toValue
  simp [MessageSnapshot.ofValue?, MessageSnapshot.toValue, Value.fields?,
    hbytes, hexpires]

theorem QueueSnapshot.ofValue?_toValue (queue : QueueSnapshot) :
    QueueSnapshot.ofValue? queue.toValue = some queue := by
  simp [QueueSnapshot.ofValue?, QueueSnapshot.toValue, Value.fields?,
    toText?_ofText, QueueSettings.ofValue?_toValue,
    toList?_array_map MessageSnapshot.ofValue?_toValue]

theorem BindingSnapshot.ofValue?_toValue (binding : BindingSnapshot) :
    BindingSnapshot.ofValue? binding.toValue = some binding := by
  simp [BindingSnapshot.ofValue?, BindingSnapshot.toValue, Value.fields?,
    toText?_ofText, toList?_array_map toText?_ofText]

theorem RouteSnapshot.ofValue?_toValue (route : RouteSnapshot) :
    RouteSnapshot.ofValue? route.toValue = some route := by
  simp [RouteSnapshot.ofValue?, RouteSnapshot.toValue, Value.fields?,
    toText?_ofText, RouteFlags.ofValue?_toValue,
    toList?_array_map BindingSnapshot.ofValue?_toValue]

theorem ChannelSnapshot.ofValue?_toValue (channel : ChannelSnapshot) :
    ChannelSnapshot.ofValue? channel.toValue = some channel := by
  simp [ChannelSnapshot.ofValue?, ChannelSnapshot.toValue, Value.fields?,
    toText?_ofText, ChannelFlags.ofValue?_toValue]

theorem Snapshot.ofValue?_toValue (snapshot : Snapshot) :
    Snapshot.ofValue? snapshot.toValue = some snapshot := by
  simp [Snapshot.ofValue?, Snapshot.toValue, Value.fields?,
    Timestamp.ofValue?_toValue,
    toList?_array_map QueueSnapshot.ofValue?_toValue,
    toList?_array_map RouteSnapshot.ofValue?_toValue,
    toList?_array_map ChannelSnapshot.ofValue?_toValue]

theorem Snapshot.decode?_encode {snapshot : Snapshot} (h : snapshot.Sized) :
    Snapshot.decode? snapshot.encode = some snapshot := by
  unfold Snapshot.decode?
  rw [decode?_of_spells h.spells (by decide), Option.bind_some,
    Snapshot.ofValue?_toValue]

end MessageBroker
