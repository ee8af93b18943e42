import MessageBroker.Config
import MessageBroker.Json.Quoted
import MessageBroker.Json.Value
import MessageBroker.Text.Utf8

/-! Configurations as JSON texts. What a text does not mention keeps its
default. -/

namespace MessageBroker.Config

inductive Field where
  | maxMessageSize
  | maxQueueMessages
  | channelMaxMessageSize
  | mailboxCapacity
  | snapshotPath
  | saveIntervalSecs
  deriving DecidableEq

namespace Field

def all : List Field := [
  .maxMessageSize,
  .maxQueueMessages,
  .channelMaxMessageSize,
  .mailboxCapacity,
  .snapshotPath,
  .saveIntervalSecs]

def name : Field → String
  | .maxMessageSize => "max_message_size"
  | .maxQueueMessages => "max_queue_messages"
  | .channelMaxMessageSize => "channel_max_message_size"
  | .mailboxCapacity => "mailbox_capacity"
  | .snapshotPath => "snapshot_path"
  | .saveIntervalSecs => "save_interval_secs"

def ofName? (name : String) : Option Field :=
  all.find? fun field => field.name == name

end Field

def uint32? (value : Json.Value) : Option UInt32 :=
  (value.toNatBelow? UInt32.size).map .ofNat

def uint64? (value : Json.Value) : Option UInt64 :=
  (value.toNatBelow? UInt64.size).map .ofNat

def set? (config : Config) (field : Field) (value : Json.Value) :
    Option Config :=
  match field with
  | .maxMessageSize =>
      (uint32? value).map fun size => { config with maxMessageSize := size }
  | .maxQueueMessages =>
      (uint32? value).map fun count => { config with maxQueueMessages := count }
  | .channelMaxMessageSize =>
      (uint32? value).map fun size =>
        { config with channelMaxMessageSize := size }
  | .mailboxCapacity =>
      (uint64? value).map fun count => { config with mailboxCapacity := count }
  | .snapshotPath =>
      value.toText?.map fun path => { config with snapshotPath := path }
  | .saveIntervalSecs =>
      (uint64? value).map fun secs => { config with saveIntervalSecs := secs }

def setAll? (config : Config) (settings : List (Field × Json.Value)) :
    Option Config :=
  settings.foldlM (fun config setting => config.set? setting.1 setting.2) config

/-- The members whose names are those of fields. All names must be readable. -/
def settings? (members : List (List Json.Piece × Json.Value)) :
    Option (List (Field × Json.Value)) :=
  (members.mapM fun member => Json.textOf? member.1).map fun names =>
    (names.zip (members.map Prod.snd)).filterMap fun (name, value) =>
      (Field.ofName? name).map fun field => (field, value)

/-- The defaults with some fields replaced: those that an object names, each
once at most, or the first ones for the items of an array. -/
def ofJson? : Json.Value → Option Config
  | .object members =>
      (settings? members).bind fun settings =>
        if (settings.map Prod.fst).Nodup then default.setAll? settings else none
  | .array items =>
      if items.length ≤ Field.all.length then
        default.setAll? (Field.all.zip items)
      else none
  | _ => none

def parse (text : String) : Except Failure Config :=
  match (Json.parse? text).bind ofJson? with
  | some config => config.validate
  | none => .error .malformed

def ofFile (file? : Option (List UInt8)) : Except Failure Config :=
  match file? with
  | none => .error (.file .notFound)
  | some bytes =>
      match Text.ofUtf8? bytes with
      | none => .error (.file .notText)
      | some text => parse text

def fieldText (config : Config) : Field → String
  | .maxMessageSize => toString config.maxMessageSize
  | .maxQueueMessages => toString config.maxQueueMessages
  | .channelMaxMessageSize => toString config.channelMaxMessageSize
  | .mailboxCapacity => toString config.mailboxCapacity
  | .snapshotPath => Json.quote config.snapshotPath
  | .saveIntervalSecs => toString config.saveIntervalSecs

/-- One line without blanks. -/
def toText (config : Config) : String :=
  "\x7b" ++ ",".intercalate (Field.all.map fun field =>
    Json.quote field.name ++ ":" ++ config.fieldText field) ++ "\x7d"

end MessageBroker.Config
