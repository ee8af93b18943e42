import MessageBroker.Config
import MessageBroker.Time

/-! When the next snapshot is due. -/

namespace MessageBroker

structure Schedule where
  /-- Zero for no snapshots at all. -/
  intervalMillis : UInt64
  lastSave : Timestamp
  deriving DecidableEq

namespace Schedule

/-- As many milliseconds as there are in these seconds, or the most there can
be. -/
def millisOf (secs : UInt64) : UInt64 :=
  .ofNat (min (secs.toNat * 1000) (UInt64.size - 1))

/-- The first snapshot is due one interval after the start. -/
def start (intervalSecs : UInt64) (now : Timestamp) : Schedule where
  intervalMillis := millisOf intervalSecs
  lastSave := now

def ofConfig (config : Config) (now : Timestamp) : Schedule :=
  start config.saveIntervalSecs now

def isEnabled (schedule : Schedule) : Bool :=
  schedule.intervalMillis != 0

def nextDue? (schedule : Schedule) : Option Timestamp :=
  if schedule.isEnabled then
    some (schedule.lastSave.after schedule.intervalMillis)
  else none

def isDue (schedule : Schedule) (now : Timestamp) : Bool :=
  schedule.nextDue?.any fun due => due < now

def markSaved (schedule : Schedule) (now : Timestamp) : Schedule :=
  { schedule with lastSave := now }

end Schedule

end MessageBroker
