import MessageBroker.Proofs.Collection.AssocList
import MessageBroker.Proofs.Snapshot.Body
import MessageBroker.Storage.Directory

/-! What is saved is loaded again: a frame gives its body back, a file its
snapshot, and a directory the file that was put in place last. -/

namespace MessageBroker

namespace Snapshot

theorem take_append {count : Nat} {front : List UInt8}
    (h : front.length = count) (rest : List UInt8) :
    take count (front ++ rest) = .ok (front, rest) := by
  subst h
  unfold take
  rw [Bytes.split?_append]

namespace Metered

variable {α β : Type}

theorem result_bind (first : Metered α) (next : α → Metered β) :
    (first >>= next).result = first.result >>= fun value => (next value).result := by
  change (bind first next).result = _
  unfold bind
  cases first.result <;> rfl

theorem result_ite {condition : Prop} [Decidable condition]
    (first second : Metered α) :
    (if condition then first else second).result =
      if condition then first.result else second.result :=
  apply_ite _ _ _ _

theorem result_take_append {count : Nat} {front : List UInt8}
    (h : front.length = count) (rest : List UInt8)
    (next : List UInt8 × List UInt8 → Metered α) :
    (take count (front ++ rest) >>= next).result =
      (next (front, rest)).result := by
  rw [result_bind, show (take count (front ++ rest)).result = _ from
    take_append h rest]
  rfl

end Metered

@[simp] theorem length_frame (body : List UInt8) :
    (frame body).length = body.length + overhead := by
  simp only [frame, magic, overhead, List.length_append, List.length_cons,
    List.length_nil, Bytes.length_littleEndian]
  omega

theorem unframe_of_header {length : Nat} (h : length < UInt64.size)
    (rest : List UInt8) :
    unframe (magic ++ version :: Bytes.littleEndian 8 length ++ rest) = (do
      let size := rest.length + 13
      if length + overhead ≠ size then throw (.lengthMismatch length size)
      let (body, rest) ← take length rest
      let (checksum, _) ← take 4 rest
      let expected : UInt32 := .ofNat (Bytes.ofLittleEndian checksum)
      let got := Checksum.ofBytes body
      if expected ≠ got then throw (.checksumMismatch expected got)
      return body) := by
  have hfile : magic ++ version :: Bytes.littleEndian 8 length ++ rest =
      magic ++ ([version] ++ (Bytes.littleEndian 8 length ++ rest)) := by
    simp
  have hsize : (magic ++ version :: Bytes.littleEndian 8 length ++ rest).length =
      rest.length + 13 := by
    simp [magic]
    omega
  have hlength : Bytes.ofLittleEndian (Bytes.littleEndian 8 length) = length :=
    Bytes.ofLittleEndian_littleEndian h
  have hnumber : [version].length = 1 := rfl
  unfold unframe Metered.unframe
  rw [hsize, hfile, Metered.result_take_append rfl]
  dsimp only
  rw [if_neg (not_not_intro rfl), Metered.result_take_append hnumber]
  dsimp only
  rw [if_neg (not_not_intro rfl),
    Metered.result_take_append (Bytes.length_littleEndian 8 length)]
  dsimp only
  rw [hlength]
  simp only [Metered.result_bind, Metered.result_ite]
  rfl

theorem unframe_frame {body : List UInt8} (h : body.length < UInt64.size) :
    unframe (frame body) = .ok body := by
  have hfile : frame body =
      magic ++ version :: Bytes.littleEndian 8 body.length ++ (body ++
        (Bytes.littleEndian 4 (Checksum.ofBytes body).toNat ++ [])) := by
    simp [frame]
  have hchecksum : Bytes.ofLittleEndian
      (Bytes.littleEndian 4 (Checksum.ofBytes body).toNat) =
        (Checksum.ofBytes body).toNat :=
    Bytes.ofLittleEndian_littleEndian (Checksum.ofBytes body).toNat_lt
  have hsize : body.length + overhead = (body ++
      (Bytes.littleEndian 4 (Checksum.ofBytes body).toNat ++ [])).length + 13 := by
    simp [overhead]
  rw [hfile, unframe_of_header h]
  dsimp only
  rw [if_neg (not_not_intro hsize), take_append rfl]
  dsimp only [bind, Except.bind]
  rw [take_append (Bytes.length_littleEndian 4 _)]
  dsimp only [bind, Except.bind]
  rw [hchecksum, UInt32.ofNat_toNat, if_neg (not_not_intro rfl)]
  rfl

theorem ofFile_toFile {snapshot : Snapshot} (hsized : snapshot.Sized)
    (hlength : snapshot.encode.length < UInt64.size) :
    ofFile snapshot.toFile = .ok snapshot := by
  unfold ofFile toFile
  rw [unframe_frame hlength]
  dsimp only [bind, Except.bind]
  rw [decode?_encode hsized]
  rfl

end Snapshot

namespace Directory

variable {directory saved : Directory} {faults : DirectoryFaults}
  {path suffix : String} {snapshot : Snapshot}

theorem get?_write {written : Directory} {name : String} {bytes : List UInt8}
    (h : directory.write faults name bytes = .ok written) :
    written.get? name = some (.file bytes) := by
  unfold write at h
  split at h
  · cases h
  · cases h
    rw [AssocList.get?_insert, if_pos rfl]

theorem get?_rename {renamed : Directory} {name target : String}
    (h : directory.rename faults name target = .ok renamed) :
    renamed.get? target = directory.get? name := by
  unfold rename at h
  split at h
  · cases h
  · cases h
  · cases h
  · rename_i hnode _
    cases h
    rw [AssocList.get?_insert, if_pos rfl, hnode]

theorem get?_of_save (h : directory.save faults path suffix snapshot =
    (.ok (), saved)) : saved.get? path = some (.file snapshot.toFile) := by
  unfold save at h
  dsimp only at h
  split at h
  · cases h
  · split at h
    · cases h
    · rename_i written hwritten
      split at h
      · cases h
      · rename_i renamed hrenamed
        cases h
        rw [get?_rename hrenamed, get?_write hwritten]

theorem create_none {name : String}
    (h : directory.get? name ≠ some .folder) :
    directory.create .none name = .ok (directory.insert name (.file [])) := by
  unfold create
  cases hnode : directory.get? name with
  | none => rfl
  | some node =>
      cases node with
      | file bytes => rfl
      | folder => exact absurd hnode h

theorem rename_none {name target : String} {node : Node}
    (hname : directory.get? name = some node)
    (htarget : directory.get? target ≠ some .folder) :
    directory.rename .none name target =
      .ok ((directory.erase name).insert target node) := by
  unfold rename
  rw [hname]
  cases hother : directory.get? target with
  | none => rfl
  | some other =>
      cases other with
      | file bytes => rfl
      | folder => exact absurd hother htarget

theorem get?_insert_file_ne_folder {other : String}
    (h : directory.get? other ≠ some .folder) (name : String)
    (bytes : List UInt8) :
    (directory.insert name (.file bytes)).get? other ≠ some .folder := by
  rw [AssocList.get?_insert]
  split
  · simp
  · exact h

theorem save_eq_ok {created written renamed : Directory}
    (hcreate : directory.create faults (path ++ suffix) = .ok created)
    (hwrite : created.write faults (path ++ suffix) snapshot.toFile =
      .ok written)
    (hrename : written.rename faults (path ++ suffix) path = .ok renamed) :
    directory.save faults path suffix snapshot = (.ok (), renamed) := by
  unfold save
  dsimp only
  rw [hcreate]
  dsimp only
  rw [hwrite]
  dsimp only
  rw [hrename]

theorem save_none (hpath : directory.get? path ≠ some .folder)
    (htemporary : directory.get? (path ++ suffix) ≠ some .folder) :
    ∃ saved, directory.save .none path suffix snapshot = (.ok (), saved) := by
  have hcreated := get?_insert_file_ne_folder hpath (path ++ suffix) []
  have hwritten := get?_insert_file_ne_folder hcreated (path ++ suffix)
    snapshot.toFile
  have hfile : ((directory.insert (path ++ suffix) (.file [])).insert
      (path ++ suffix) (.file snapshot.toFile)).get? (path ++ suffix) =
        some (.file snapshot.toFile) := by
    rw [AssocList.get?_insert, if_pos rfl]
  exact ⟨_, save_eq_ok (create_none htemporary) rfl
    (rename_none hfile hwritten)⟩

theorem load_of_file (hfile : directory.get? path =
    some (.file snapshot.toFile)) (hsized : snapshot.Sized)
    (hlength : snapshot.toFile.length < UInt64.size) :
    directory.load path = .ok (some snapshot) := by
  have hbody : snapshot.encode.length < UInt64.size := by
    rw [Snapshot.toFile, Snapshot.length_frame] at hlength
    omega
  unfold load
  rw [hfile]
  dsimp only
  rw [Snapshot.ofFile_toFile hsized hbody]
  rfl

/-- A snapshot that has been saved is loaded as it was, whatever else there is
in the directory, and a directory without faults saves it. A file is never so
long that 64 bits cannot tell its length. -/
theorem load_of_save (hsized : snapshot.Sized)
    (hlength : snapshot.toFile.length < UInt64.size) :
    (∀ (directory saved : Directory) (faults : DirectoryFaults)
      (path suffix : String),
      directory.save faults path suffix snapshot = (.ok (), saved) →
        saved.load path = .ok (some snapshot)) ∧
    ∀ (directory : Directory) (path suffix : String),
      directory.get? path ≠ some .folder →
      directory.get? (path ++ suffix) ≠ some .folder →
      ∃ saved, directory.save .none path suffix snapshot = (.ok (), saved) ∧
        saved.load path = .ok (some snapshot) := by
  have hload : ∀ (directory saved : Directory) (faults : DirectoryFaults)
      (path suffix : String),
      directory.save faults path suffix snapshot = (.ok (), saved) →
        saved.load path = .ok (some snapshot) :=
    fun _ _ _ _ _ hsave =>
      load_of_file (get?_of_save hsave) hsized hlength
  refine ⟨hload, ?_⟩
  intro directory path suffix hpath htemporary
  obtain ⟨saved, hsave⟩ := save_none hpath htemporary
  exact ⟨saved, hsave, hload _ _ _ _ _ hsave⟩

def keptSnapshot : Snapshot where
  takenAt := ⟨1700000000000⟩
  queues := [{
    name := "jobs"
    settings := {
      maxMessages := 300
      maxMessageSize := 70000
      flags := {
        autoDelete := false
        forcePush := true
        roundRobin := false
        durable := true } }
    messages := [⟨[0, 127, 128, 255], some ⟨1700000060000⟩⟩, ⟨[], none⟩] }]
  routes := [{
    name := "work"
    flags := { autoDelete := false, roundRobin := true, durable := true }
    bindings := [⟨"a.b", ["jobs"]⟩] }]
  channels := [⟨"news", { autoDelete := false, roundRobin := false }⟩]

theorem keptSnapshot_sized : keptSnapshot.Sized where
  queueCount := by decide
  queues := List.forall_mem_singleton.mpr
    ⟨by decide, by decide, by decide⟩
  routeCount := by decide
  routes := List.forall_mem_singleton.mpr ⟨by decide, by decide,
    List.forall_mem_singleton.mpr ⟨by decide, by decide, by decide⟩⟩
  channelCount := by decide
  channels := List.forall_mem_singleton.mpr (by decide)

theorem load_of_save_kept :
    ∃ saved, save .empty .none "store" ".new" keptSnapshot =
      (.ok (), saved) ∧ saved.load "store" = .ok (some keptSnapshot) :=
  (load_of_save keptSnapshot_sized (by decide)).2 .empty "store" ".new"
    (by simp) (by simp)

end Directory

end MessageBroker
