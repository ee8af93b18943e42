import MessageBroker.Storage.Directory
import MessageBroker.Storage.Schedule

/-! Saving in the background, one snapshot at a time. -/

namespace MessageBroker

inductive SaveJob where
  | running (snapshot : Snapshot)
  /-- Over, with an outcome that nobody has asked for yet. -/
  | ended (outcome : Except Failure Unit)

structure Saver where
  path : String
  directory : Directory
  faults : DirectoryFaults
  /-- Someone else holds the lock of the path. -/
  isLocked : Bool
  job : Option SaveJob
  count : Nat

namespace Saver

def create (path : String) (faults : DirectoryFaults) : Saver where
  path := path
  directory := .empty
  faults := faults
  isLocked := false
  job := none
  count := 0

def isRunning (saver : Saver) : Bool :=
  match saver.job with
  | some (.running _) => true
  | _ => false

def lock (saver : Saver) : Except Failure Unit :=
  match saver.faults.create with
  | some fault => .error (.file fault)
  | none => if saver.isLocked then .error .snapshotInProgress else .ok ()

/-- Start to save a snapshot. An outcome that nobody has asked for is
forgotten. -/
def start (saver : Saver) (snapshot : Snapshot) : Except Failure Unit × Saver :=
  if saver.isRunning then (.error .snapshotInProgress, saver)
  else
    let idle := { saver with job := none }
    match idle.lock with
    | .error failure => (.error failure, idle)
    | .ok _ => (.ok (), { idle with job := some (.running snapshot) })

/-- No two saves use the same name for their temporary file. -/
def suffix (saver : Saver) : String :=
  ".tmp." ++ toString saver.count

def settle (saver : Saver) : Saver :=
  match saver.job with
  | some (.running snapshot) =>
      let (outcome, directory) :=
        saver.directory.save saver.faults saver.path saver.suffix snapshot
      {
        saver with
        directory := directory
        job := some (.ended outcome)
        count := saver.count + 1
      }
  | _ => saver

/-- Wait for the outcome of the last save. The result says whether there was
one. -/
def wait (saver : Saver) : Except Failure Bool × Saver :=
  let settled := saver.settle
  match settled.job with
  | some (.ended outcome) =>
      (outcome.map fun _ => true, { settled with job := none })
  | _ => (.ok false, settled)

def load (saver : Saver) : Except Failure (Option Snapshot) :=
  saver.directory.load saver.path

/-! What others do in the directory. It comes into being with that if it was
missing. -/

def haveDirectory (saver : Saver) : Saver :=
  { saver with
    faults := { saver.faults with
      create := saver.faults.create.filter fun fault => fault != .notFound } }

/-- A folder appears at the path. -/
def block (saver : Saver) : Saver :=
  { saver.haveDirectory with
    directory := saver.directory.insert saver.path .folder }

def seize (saver : Saver) : Saver :=
  { saver.haveDirectory with isLocked := true }

def release (saver : Saver) : Saver :=
  { saver with isLocked := false }

/-- What a check of the schedule leads to. -/
structure Attempt where
  saver : Saver
  schedule : Schedule
  result : Except Failure Bool
  /-- A snapshot was taken for it. -/
  captured : Bool

/-- Start to save if that is due and no save is running. An attempt that fails
counts for the schedule too. -/
def saveIfDue (saver : Saver) (schedule : Schedule) (now : Timestamp)
    (capture : Unit → Snapshot) : Attempt :=
  if !schedule.isDue now || saver.isRunning then {
    saver := saver
    schedule := schedule
    result := .ok false
    captured := false
  }
  else
    let (outcome, saver) := saver.start (capture ())
    {
      saver := saver
      schedule := schedule.markSaved now
      result := outcome.map fun _ => true
      captured := true
    }

end Saver

end MessageBroker
