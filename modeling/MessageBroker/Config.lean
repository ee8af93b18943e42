import MessageBroker.Failure

namespace MessageBroker

structure Config where
  maxMessageSize : UInt32
  maxQueueMessages : UInt32
  channelMaxMessageSize : UInt32
  mailboxCapacity : UInt64
  snapshotPath : String
  /-- Seconds between snapshots, or zero for none. -/
  saveIntervalSecs : UInt64
  deriving DecidableEq

namespace Config

def default : Config where
  maxMessageSize := 2147483647
  maxQueueMessages := 4294967295
  channelMaxMessageSize := 2147483647
  mailboxCapacity := 1024
  snapshotPath := "tidemq.snapshot"
  saveIntervalSecs := 0

/-- The first thing that is wrong with a configuration. -/
def fault? (config : Config) : Option SettingsFault :=
  if config.maxMessageSize = 0 then some .zeroMaxMessageSize
  else if config.maxQueueMessages = 0 then some .zeroMaxQueueMessages
  else if config.mailboxCapacity = 0 then some .zeroMailboxCapacity
  else if config.snapshotPath = "" then some .emptySnapshotPath
  else none

def validate (config : Config) : Except Failure Config :=
  match config.fault? with
  | some fault => .error (.invalidSettings fault)
  | none => .ok config

end Config

end MessageBroker
