import MessageBroker.Identifier
import MessageBroker.Tag
import MessageBroker.Text.Quoted

/-! Why an operation fails, and the words for it. -/

namespace MessageBroker

inductive Rejection where
  | full (queue : String)
  | tooLarge (size : Nat) (limit : UInt32)
  deriving DecidableEq

inductive SettingsFault where
  | zeroMaxMessageSize
  | zeroMaxQueueMessages
  | zeroMailboxCapacity
  | emptySnapshotPath
  | maxMessagesOutOfRange (limit : UInt32)
  | maxMessageSizeOutOfRange (limit : UInt32)
  deriving DecidableEq

inductive FileFault where
  | notFound
  | endsEarly
  | notText
  | isFolder
  deriving DecidableEq

inductive Failure where
  | rejected (rejection : Rejection)
  | queueNotFound (queue : QueueId)
  | routeNotFound (route : RouteId)
  | channelNotFound (channel : ChannelId)
  | clientNotFound (client : ClientId)
  | bindingNotFound (route key : String)
  | subscriptionNotFound (channel topic : String)
  | notMember (client : ClientId) (queue : String)
  | messageNotFound (queue : String) (tag : Tag)
  | queueExists (name : String)
  | routeExists (name : String)
  | channelExists (name : String)
  | invalidName (name : String)
  | invalidSettings (fault : SettingsFault)
  | deliveryFailed (route : String) (failed : Nat)
  | file (fault : FileFault)
  /-- A text or a body that cannot be read. -/
  | malformed
  | lengthMismatch (bodyLength fileSize : Nat)
  | unknownMagic
  | unsupportedVersion (version : UInt8)
  | checksumMismatch (expected got : UInt32)
  | snapshotInProgress
  deriving DecidableEq

def Rejection.message : Rejection → String
  | .full queue => "Queue is full: " ++ queue
  | .tooLarge size limit =>
      "Message too large: " ++ toString size ++ " bytes (limit " ++
        toString limit ++ ")"

def SettingsFault.message : SettingsFault → String
  | .zeroMaxMessageSize => "max_message_size must be positive"
  | .zeroMaxQueueMessages => "max_queue_messages must be positive"
  | .zeroMailboxCapacity => "mailbox_capacity must be positive"
  | .emptySnapshotPath => "snapshot_path must not be empty"
  | .maxMessagesOutOfRange limit =>
      "max_messages must be in 1..=" ++ toString limit
  | .maxMessageSizeOutOfRange limit =>
      "max_message_size must be in 1..=" ++ toString limit

def FileFault.message : FileFault → String
  | .notFound => "no such file"
  | .endsEarly => "the file ends early"
  | .notText => "the file is not text"
  | .isFolder => "a folder is in the way"

namespace Failure

def message : Failure → String
  | .rejected rejection => rejection.message
  | .queueNotFound queue => "Queue not found: " ++ queue.label
  | .routeNotFound route => "Route not found: " ++ route.label
  | .channelNotFound channel => "Channel not found: " ++ channel.label
  | .clientNotFound client => "Client not found: " ++ client.label
  | .bindingNotFound route key =>
      "Binding not found: route " ++ route ++ ", key " ++ key
  | .subscriptionNotFound channel topic =>
      "Subscription not found: channel " ++ channel ++ ", topic " ++ topic
  | .notMember client queue =>
      "Client " ++ client.label ++ " is not a member of " ++ queue
  | .messageNotFound queue tag =>
      "Message not found: queue " ++ queue ++ ", tag " ++ toString tag.toNat
  | .queueExists name => "Queue already exists: " ++ name
  | .routeExists name => "Route already exists: " ++ name
  | .channelExists name => "Channel already exists: " ++ name
  | .invalidName name => "Invalid name: " ++ Text.quote name
  | .invalidSettings fault => "Invalid settings: " ++ fault.message
  | .deliveryFailed route failed =>
      "Delivery failed for " ++ toString failed ++
        " of the queues bound to route " ++ route
  | .file fault => "IO error: " ++ fault.message
  | .malformed => "Deserialization error"
  | .lengthMismatch bodyLength fileSize =>
      "Corruption detected: Snapshot body length " ++ toString bodyLength ++
        " does not match file size " ++ toString fileSize
  | .unknownMagic => "Invalid snapshot format: Invalid snapshot magic"
  | .unsupportedVersion version =>
      "Invalid snapshot format: Unsupported snapshot version: " ++
        toString version
  | .checksumMismatch expected got =>
      "Checksum mismatch: expected " ++ toString expected ++ ", got " ++
        toString got
  | .snapshotInProgress => "A snapshot is already being written"

def isNotFound : Failure → Bool
  | .queueNotFound _ | .routeNotFound _ | .channelNotFound _ | .clientNotFound _
  | .bindingNotFound _ _ | .subscriptionNotFound _ _ | .notMember _ _
  | .messageNotFound _ _ => true
  | _ => false

end Failure

end MessageBroker
