import MessageBroker.Collection.AssocList
import MessageBroker.Snapshot.File

namespace MessageBroker

inductive Node where
  | file (bytes : List UInt8)
  | folder
  deriving DecidableEq

structure DirectoryFaults where
  create : Option FileFault
  write : Option FileFault
  rename : Option FileFault
  deriving DecidableEq

def DirectoryFaults.none : DirectoryFaults := ⟨.none, .none, .none⟩

abbrev Directory := AssocList String Node

namespace Directory

def create (directory : Directory) (faults : DirectoryFaults) (name : String) :
    Except FileFault Directory :=
  match faults.create, directory.get? name with
  | some fault, _ => .error fault
  | none, some .folder => .error .isFolder
  | none, _ => .ok (directory.insert name (.file []))

def write (directory : Directory) (faults : DirectoryFaults) (name : String)
    (bytes : List UInt8) : Except FileFault Directory :=
  match faults.write with
  | some fault => .error fault
  | none => .ok (directory.insert name (.file bytes))

/-- Move a file to another name, in place of a file that is there. -/
def rename (directory : Directory) (faults : DirectoryFaults)
    (name target : String) : Except FileFault Directory :=
  match faults.rename, directory.get? name, directory.get? target with
  | some fault, _, _ => .error fault
  | none, none, _ => .error .notFound
  | none, _, some .folder => .error .isFolder
  | none, some node, _ => .ok ((directory.erase name).insert target node)

def remove (directory : Directory) (name : String) : Directory :=
  match directory.get? name with
  | some (.file _) => directory.erase name
  | _ => directory

/-- Write a snapshot to a temporary file beside the path, and put it in place
once it is complete. A file that could not be completed is removed. -/
def save (directory : Directory) (faults : DirectoryFaults)
    (path suffix : String) (snapshot : Snapshot) :
    Except Failure Unit × Directory :=
  let temporary := path ++ suffix
  match directory.create faults temporary with
  | .error fault => (.error (.file fault), directory.remove temporary)
  | .ok created =>
      match created.write faults temporary snapshot.toFile with
      | .error fault => (.error (.file fault), created.remove temporary)
      | .ok written =>
          match written.rename faults temporary path with
          | .error fault => (.error (.file fault), written)
          | .ok renamed => (.ok (), renamed)

def load (directory : Directory) (path : String) :
    Except Failure (Option Snapshot) :=
  match directory.get? path with
  | none => .ok none
  | some .folder => .error (.file .isFolder)
  | some (.file bytes) => (Snapshot.ofFile bytes).map some

end Directory

end MessageBroker
