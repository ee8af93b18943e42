import MessageBroker.Proofs.Snapshot.File

/-! What a save leaves in the directory, whichever of its steps fails. -/

namespace MessageBroker.Directory

variable {directory created written after : Directory}
  {faults : DirectoryFaults} {name path suffix temporary : String}
  {bytes : List UInt8} {snapshot : Snapshot}

def Same (first second : Directory) : Prop :=
  ∀ name, second.get? name = first.get? name

/-- All steps but the last go well, so that the temporary file is whole. -/
def Completes (directory : Directory) (faults : DirectoryFaults)
    (temporary : String) : Prop :=
  faults.create = none ∧ directory.get? temporary ≠ some .folder ∧
    faults.write = none

instance (directory : Directory) (faults : DirectoryFaults)
    (temporary : String) : Decidable (Completes directory faults temporary) :=
  inferInstanceAs (Decidable (_ ∧ _ ∧ _))

/-- The last step goes well, by which a file gets to its path. -/
def Replaces (directory : Directory) (faults : DirectoryFaults)
    (path : String) : Prop :=
  faults.rename = none ∧ directory.get? path ≠ some .folder

theorem create_eq_ok_iff :
    directory.create faults name = .ok created ↔
      faults.create = none ∧ directory.get? name ≠ some .folder ∧
        created = directory.insert name (.file []) := by
  unfold create
  split
  · rename_i fault hfault
    simp [hfault]
  · rename_i hfault hfolder
    simp [hfolder]
  · rename_i hfault hfolder
    have hnode : directory.get? name ≠ some .folder := fun h => hfolder h
    simp [hfault, hnode, eq_comm]

theorem write_eq_ok_iff :
    directory.write faults name bytes = .ok written ↔
      faults.write = none ∧ written = directory.insert name (.file bytes) := by
  unfold write
  split
  · rename_i fault hfault
    simp [hfault]
  · rename_i hfault
    simp [hfault, eq_comm]

theorem rename_eq_ok_iff {target : String} {node : Node}
    (hnode : directory.get? name = some node) :
    directory.rename faults name target = .ok after ↔
      Replaces directory faults target ∧
        after = (directory.erase name).insert target node := by
  unfold rename Replaces
  rw [hnode]
  cases hfault : faults.rename with
  | some fault => simp
  | none =>
      cases htarget : directory.get? target with
      | none => simp [eq_comm]
      | some other => cases other <;> simp [eq_comm]

theorem get?_remove (directory : Directory) (name other : String) :
    (directory.remove name).get? other =
      if other = name ∧ directory.get? name ≠ some .folder then none
      else directory.get? other := by
  unfold remove
  split
  · rename_i bytes hfile
    rw [AssocList.get?_erase]
    simp [hfile]
  · rename_i hfile
    split
    · rename_i h
      obtain ⟨rfl, hfolder⟩ := h
      cases hnode : directory.get? other with
      | none => rfl
      | some node =>
          cases node with
          | file bytes => exact absurd hnode (hfile bytes)
          | folder => exact absurd hnode hfolder
    · rfl

theorem save_of_not_completes (snapshot : Snapshot)
    (h : ¬Completes directory faults (path ++ suffix)) :
    ∃ failure after,
      directory.save faults path suffix snapshot = (.error failure, after) ∧
        Same (directory.remove (path ++ suffix)) after := by
  unfold save
  dsimp only
  cases hcreate : directory.create faults (path ++ suffix) with
  | error fault => exact ⟨_, _, rfl, fun _ => rfl⟩
  | ok created =>
      obtain ⟨hfault, hfolder, rfl⟩ := create_eq_ok_iff.mp hcreate
      dsimp only
      split
      · refine ⟨_, _, rfl, fun name => ?_⟩
        rw [get?_remove, get?_remove, AssocList.get?_insert,
          AssocList.get?_insert]
        by_cases hname : name = path ++ suffix <;> simp [hname, hfolder]
      · rename_i written hwrite
        exact absurd ⟨hfault, hfolder, (write_eq_ok_iff.mp hwrite).1⟩ h

theorem exists_written (bytes : List UInt8)
    (h : Completes directory faults temporary) :
    ∃ created written, directory.create faults temporary = .ok created ∧
      created.write faults temporary bytes = .ok written ∧
      Same (directory.insert temporary (.file bytes)) written := by
  obtain ⟨hcreate, hfolder, hwrite⟩ := h
  refine ⟨_, _, create_eq_ok_iff.mpr ⟨hcreate, hfolder, rfl⟩,
    write_eq_ok_iff.mpr ⟨hwrite, rfl⟩, fun name => ?_⟩
  simp only [AssocList.get?_insert]
  split <;> rfl

theorem path_ne_temporary (hsuffix : suffix ≠ "") : path ≠ path ++ suffix := by
  intro h
  have hlength := congrArg String.length h
  rw [String.length_append] at hlength
  have hnone : suffix.length = 0 := by omega
  exact hsuffix (String.length_eq_zero_iff.mp hnone)

theorem replaces_of_same (hsuffix : suffix ≠ "")
    (hsame : Same (directory.insert (path ++ suffix) (.file bytes)) written) :
    Replaces written faults path ↔ Replaces directory faults path := by
  unfold Replaces
  rw [hsame, AssocList.get?_insert, if_neg (path_ne_temporary hsuffix)]

theorem get?_temporary_of_same
    (hsame : Same (directory.insert temporary (.file bytes)) written) :
    written.get? temporary = some (.file bytes) := by
  rw [hsame, AssocList.get?_insert, if_pos rfl]

theorem save_of_not_replaces (snapshot : Snapshot) (hsuffix : suffix ≠ "")
    (hcompletes : Completes directory faults (path ++ suffix))
    (hreplaces : ¬Replaces directory faults path) :
    ∃ failure after,
      directory.save faults path suffix snapshot = (.error failure, after) ∧
        Same (directory.insert (path ++ suffix) (.file snapshot.toFile))
          after := by
  obtain ⟨created, written, hcreate, hwrite, hsame⟩ :=
    exists_written snapshot.toFile hcompletes
  have hwhole := get?_temporary_of_same hsame
  rw [← replaces_of_same hsuffix hsame] at hreplaces
  unfold save
  dsimp only
  rw [hcreate]
  dsimp only
  rw [hwrite]
  dsimp only
  cases hrename : written.rename faults (path ++ suffix) path with
  | error fault => exact ⟨_, written, rfl, hsame⟩
  | ok renamed =>
      exact absurd ((rename_eq_ok_iff hwhole).mp hrename).1 hreplaces

theorem save_of_replaces (snapshot : Snapshot) (hsuffix : suffix ≠ "")
    (hcompletes : Completes directory faults (path ++ suffix))
    (hreplaces : Replaces directory faults path) :
    ∃ after,
      directory.save faults path suffix snapshot = (.ok (), after) ∧
        Same ((directory.erase (path ++ suffix)).insert path
          (.file snapshot.toFile)) after := by
  obtain ⟨created, written, hcreate, hwrite, hsame⟩ :=
    exists_written snapshot.toFile hcompletes
  have hwhole := get?_temporary_of_same hsame
  rw [← replaces_of_same hsuffix hsame] at hreplaces
  have hrename := (rename_eq_ok_iff hwhole).mpr ⟨hreplaces, rfl⟩
  refine ⟨_, save_eq_ok hcreate hwrite hrename, fun name => ?_⟩
  simp only [AssocList.get?_insert, AssocList.get?_erase, hsame name]
  by_cases hname : name = path ++ suffix <;> simp [hname]

/-- What is known once a save has ended. -/
structure Ends (directory : Directory) (faults : DirectoryFaults)
    (path temporary : String) (bytes : List UInt8)
    (result : Except Failure Unit) (after : Directory) : Prop where
  ok_iff : result = .ok () ↔
    Completes directory faults temporary ∧ Replaces directory faults path
  saved : result = .ok () → ∀ name, after.get? name =
    if name = path then some (.file bytes)
    else if name = temporary then none
    else directory.get? name
  previous : result ≠ .ok () → after.get? path = directory.get? path
  others : result ≠ .ok () → ∀ name, name ≠ temporary →
    after.get? name = directory.get? name
  removed : result ≠ .ok () → ¬Completes directory faults temporary →
    ∀ bytes, after.get? temporary ≠ some (.file bytes)
  left : result ≠ .ok () → Completes directory faults temporary →
    after.get? temporary = some (.file bytes)
  /-- As long as nobody else uses the name of the temporary file, there is no
  trace if and only if that file was never whole. -/
  undone_iff : result ≠ .ok () → (Same directory after ↔
    if Completes directory faults temporary then
      directory.get? temporary = some (.file bytes)
    else ∀ bytes, directory.get? temporary ≠ some (.file bytes))

/-- Nothing but the name of the temporary file has to be looked at. -/
theorem same_iff
    (hothers : ∀ name, name ≠ temporary →
      after.get? name = directory.get? name) :
    Same directory after ↔
      after.get? temporary = directory.get? temporary := by
  refine ⟨fun hsame => hsame temporary, fun htemporary name => ?_⟩
  by_cases hname : name = temporary
  · rw [hname, htemporary]
  · exact hothers name hname

theorem get?_remove_eq_self_iff :
    (directory.remove name).get? name = directory.get? name ↔
      ∀ bytes, directory.get? name ≠ some (.file bytes) := by
  rw [get?_remove]
  cases directory.get? name with
  | none => simp
  | some node => cases node <;> simp

namespace Ends

variable {failure : Failure}

theorem of_replaces (hcompletes : Completes directory faults temporary)
    (hreplaces : Replaces directory faults path)
    (hsame : Same ((directory.erase temporary).insert path (.file bytes))
      after) :
    Ends directory faults path temporary bytes (.ok ()) after := by
  refine ⟨by simp [hcompletes, hreplaces], fun _ name => ?_, absurd rfl,
    absurd rfl, absurd rfl, absurd rfl, absurd rfl⟩
  rw [hsame, AssocList.get?_insert, AssocList.get?_erase]

theorem of_not_replaces (hpath : path ≠ temporary)
    (hcompletes : Completes directory faults temporary)
    (hreplaces : ¬Replaces directory faults path)
    (hsame : Same (directory.insert temporary (.file bytes)) after) :
    Ends directory faults path temporary bytes (.error failure) after := by
  have hothers : ∀ name, name ≠ temporary →
      after.get? name = directory.get? name := by
    intro name hname
    rw [hsame, AssocList.get?_insert, if_neg hname]
  have hleft := get?_temporary_of_same hsame
  refine ⟨by simp [hreplaces], by simp, fun _ => hothers path hpath,
    fun _ => hothers, fun _ h => absurd hcompletes h, fun _ _ => hleft,
    fun _ => ?_⟩
  rw [if_pos hcompletes, same_iff hothers, hleft, eq_comm]

theorem of_not_completes (hpath : path ≠ temporary)
    (hcompletes : ¬Completes directory faults temporary)
    (hsame : Same (directory.remove temporary) after) :
    Ends directory faults path temporary bytes (.error failure) after := by
  have hothers : ∀ name, name ≠ temporary →
      after.get? name = directory.get? name := by
    intro name hname
    rw [hsame, get?_remove, if_neg fun h => hname h.1]
  have hremoved : ∀ bytes, after.get? temporary ≠ some (.file bytes) := by
    intro bytes
    rw [hsame, get?_remove]
    split
    · simp
    · rename_i hfolder
      exact fun hfile => hfolder ⟨rfl, by simp [hfile]⟩
  refine ⟨by simp [hcompletes], by simp, fun _ => hothers path hpath,
    fun _ => hothers, fun _ _ => hremoved, fun _ h => absurd h hcompletes,
    fun _ => ?_⟩
  rw [if_neg hcompletes, same_iff hothers, hsame, get?_remove_eq_self_iff]

end Ends

/-- A save that succeeds replaces the file at the path, and changes nothing else.
A save that fails leaves that file as it was, and leaves no trace at all exactly if
it was not its last step that failed. Only the steps in front of that one are
followed by a removal of the temporary file. -/
theorem save_leaves_no_trace_iff (hsuffix : suffix ≠ "") :
    Ends directory faults path (path ++ suffix) snapshot.toFile
      (directory.save faults path suffix snapshot).1
      (directory.save faults path suffix snapshot).2 := by
  have hpath : path ≠ path ++ suffix := path_ne_temporary hsuffix
  by_cases hcompletes : Completes directory faults (path ++ suffix)
  · by_cases hreplaces : Replaces directory faults path
    · obtain ⟨after, hsave, hsame⟩ :=
        save_of_replaces snapshot hsuffix hcompletes hreplaces
      rw [hsave]
      exact .of_replaces hcompletes hreplaces hsame
    · obtain ⟨failure, after, hsave, hsame⟩ :=
        save_of_not_replaces snapshot hsuffix hcompletes hreplaces
      rw [hsave]
      exact .of_not_replaces hpath hcompletes hreplaces hsame
  · obtain ⟨failure, after, hsave, hsame⟩ :=
      save_of_not_completes snapshot hcompletes
    rw [hsave]
    exact .of_not_completes hpath hcompletes hsame

/-- A folder at the path, which no file can take the place of. -/
def blocked : Directory :=
  AssocList.empty.insert "store" .folder

theorem save_leaves_no_trace_iff_blocked :
    ".new" ≠ "" ∧ Ends blocked .none "store" ("store" ++ ".new")
      keptSnapshot.toFile (blocked.save .none "store" ".new" keptSnapshot).1
      (blocked.save .none "store" ".new" keptSnapshot).2 :=
  ⟨by decide, save_leaves_no_trace_iff (by decide)⟩

theorem not_save_leaves_no_trace :
    ¬∀ (directory after : Directory) (faults : DirectoryFaults)
      (path suffix : String) (snapshot : Snapshot) (failure : Failure),
      suffix ≠ "" → directory.get? (path ++ suffix) = none →
      directory.save faults path suffix snapshot = (.error failure, after) →
        Same directory after := by
  intro hclaim
  have hfree : blocked.get? ("store" ++ ".new") = none := by decide
  have hsave : ∃ failure after,
      blocked.save .none "store" ".new" keptSnapshot = (.error failure, after) ∧
        after.get? "store.new" = some (.file keptSnapshot.toFile) :=
    ⟨_, _, rfl, rfl⟩
  obtain ⟨failure, after, hsave, hleft⟩ := hsave
  have hundone := hclaim blocked after .none "store" ".new" keptSnapshot failure
    (by decide) hfree hsave "store.new"
  rw [hleft] at hundone
  exact absurd hundone (by simp [blocked, AssocList.get?_insert])

end MessageBroker.Directory
