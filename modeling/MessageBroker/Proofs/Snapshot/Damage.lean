import MessageBroker.Proofs.Checksum
import MessageBroker.Proofs.Snapshot.File

/-! A file that has been damaged is not a frame any more, wherever the damage
lies, and nothing but a frame is read. -/

namespace MessageBroker

/-- The same items in the same places, but for one of them. -/
inductive OneChanged {α : Type u} : List α → List α → Prop
  | here {old new : α} (hne : old ≠ new) (rest : List α) :
      OneChanged (old :: rest) (new :: rest)
  | later (item : α) {first second : List α} (h : OneChanged first second) :
      OneChanged (item :: first) (item :: second)

namespace OneChanged

variable {α : Type u} {first second : List α}

theorem of_set {items : List α} {place : Nat} {old new : α}
    (hold : items[place]? = some old) (hne : old ≠ new) :
    OneChanged items (items.set place new) := by
  induction items generalizing place with
  | nil => cases hold
  | cons item rest ih =>
      cases place with
      | zero =>
          cases hold
          exact .here hne rest
      | succ place => exact .later item (ih hold)

theorem length_eq (h : OneChanged first second) :
    second.length = first.length := by
  induction h with
  | here => rfl
  | later item _ ih => exact congrArg Nat.succ ih

theorem ne (h : OneChanged first second) : first ≠ second := by
  induction h with
  | here hne => exact fun heq => hne (List.cons.inj heq).1
  | later item _ ih => exact fun heq => ih (List.cons.inj heq).2

theorem exists_append (h : OneChanged first second) :
    ∃ front old new back, old ≠ new ∧ first = front ++ old :: back ∧
      second = front ++ new :: back := by
  induction h with
  | here hne rest => exact ⟨[], _, _, rest, hne, rfl, rfl⟩
  | later item _ ih =>
      obtain ⟨front, old, new, back, hne, rfl, rfl⟩ := ih
      exact ⟨item :: front, old, new, back, hne, rfl, rfl⟩

theorem of_append {front back front' back' : List α}
    (h : OneChanged (front ++ back) (front' ++ back'))
    (hlength : front.length = front'.length) :
    (OneChanged front front' ∧ back = back') ∨
      (front = front' ∧ OneChanged back back') := by
  induction front generalizing front' with
  | nil =>
      obtain rfl := List.eq_nil_of_length_eq_zero hlength.symm
      exact .inr ⟨rfl, h⟩
  | cons item rest ih =>
      cases front' with
      | nil => cases hlength
      | cons item' rest' =>
          replace hlength := Nat.succ.inj hlength
          generalize hfirst : (item :: rest) ++ back = first at h
          generalize hsecond : (item' :: rest') ++ back' = second at h
          cases h with
          | here hne tail =>
              obtain ⟨rfl, htail⟩ := List.cons.inj hfirst
              obtain ⟨rfl, htail'⟩ := List.cons.inj hsecond
              obtain ⟨rfl, rfl⟩ :=
                List.append_inj (htail.trans htail'.symm) hlength
              exact .inl ⟨.here hne rest, rfl⟩
          | later kept h =>
              obtain ⟨rfl, rfl⟩ := List.cons.inj hfirst
              obtain ⟨rfl, rfl⟩ := List.cons.inj hsecond
              rcases ih h hlength with ⟨hfront, hback⟩ | ⟨hfront, hback⟩
              · exact .inl ⟨.later _ hfront, hback⟩
              · exact .inr ⟨congrArg _ hfront, hback⟩

end OneChanged

theorem Checksum.ofBytes_ne_of_oneChanged {first second : List UInt8}
    (h : OneChanged first second) : ofBytes first ≠ ofBytes second := by
  obtain ⟨front, old, new, back, hne, rfl, rfl⟩ := h.exists_append
  exact ofBytes_ne hne front back

namespace Snapshot

variable {body other file damaged : List UInt8}

theorem Metered.of_take_eq_ok {α : Type} {count : Nat} {bytes : List UInt8}
    {next : List UInt8 × List UInt8 → Metered α} {result : α}
    (h : (take count bytes >>= next).result = .ok result) :
    ∃ front rest, bytes = front ++ rest ∧ front.length = count ∧
      (next (front, rest)).result = .ok result := by
  rw [result_bind] at h
  unfold take Snapshot.take at h
  dsimp only at h
  split at h
  · rename_i parts hsplit
    obtain ⟨hbytes, hlength⟩ := Bytes.split?_eq_some_iff.mp hsplit
    exact ⟨parts.1, parts.2, hbytes, hlength, h⟩
  · cases h

theorem eq_littleEndian {width number : Nat} {bytes : List UInt8}
    (hlength : bytes.length = width) (h : Bytes.ofLittleEndian bytes = number) :
    bytes = Bytes.littleEndian width number := by
  rw [← h, ← hlength, Bytes.littleEndian_ofLittleEndian]

/-- Only a frame is opened, and only one whose length is told in full. -/
theorem unframe_eq_ok (h : unframe file = .ok body) :
    file = frame body ∧ body.length < UInt64.size := by
  unfold unframe Metered.unframe at h
  obtain ⟨start, afterStart, hfile, -, h⟩ := Metered.of_take_eq_ok h
  dsimp only at h
  split at h
  · cases h
  rename_i hstart
  obtain ⟨number, afterNumber, hafterStart, -, h⟩ := Metered.of_take_eq_ok h
  dsimp only at h
  split at h
  · cases h
  rename_i hnumber
  obtain ⟨size, afterSize, hafterNumber, hsize, h⟩ := Metered.of_take_eq_ok h
  dsimp only at h
  split at h
  · cases h
  rename_i hlength
  obtain ⟨content, afterContent, hafterSize, hcontent, h⟩ := Metered.of_take_eq_ok h
  dsimp only at h
  obtain ⟨checksum, rest, hafterContent, hchecksum, h⟩ := Metered.of_take_eq_ok h
  dsimp only at h
  split at h
  · cases h
  rename_i hsum
  cases h
  obtain rfl := not_ne_iff.mp hstart
  obtain rfl := not_ne_iff.mp hnumber
  have hrest : rest = [] := by
    apply List.eq_nil_of_length_eq_zero
    have hlengths := not_ne_iff.mp hlength
    rw [hfile, hafterStart, hafterNumber, hafterSize, hafterContent] at hlengths
    simp only [List.length_append, List.length_cons, List.length_nil, magic,
      overhead, hsize, hcontent, hchecksum] at hlengths
    omega
  have hsum : Bytes.ofLittleEndian checksum =
      (Checksum.ofBytes body).toNat := by
    have hbound := Bytes.ofLittleEndian_lt checksum
    rw [hchecksum] at hbound
    rw [← not_ne_iff.mp hsum]
    exact (UInt32.toNat_ofNat_of_lt' hbound).symm
  constructor
  · rw [hfile, hafterStart, hafterNumber, hafterSize, hafterContent, hrest,
      eq_littleEndian hsize hcontent.symm, eq_littleEndian hchecksum hsum]
    simp [frame]
  · rw [hcontent]
    have hbound := Bytes.ofLittleEndian_lt size
    rw [hsize] at hbound
    exact hbound

theorem unframe_eq_ok_iff :
    unframe file = .ok body ↔
      file = frame body ∧ body.length < UInt64.size := by
  constructor
  · exact unframe_eq_ok
  · rintro ⟨rfl, hlength⟩
    exact unframe_frame hlength

def header (length : Nat) : List UInt8 :=
  magic ++ version :: Bytes.littleEndian 8 length

def trailer (body : List UInt8) : List UInt8 :=
  Bytes.littleEndian 4 (Checksum.ofBytes body).toNat

theorem frame_eq (body : List UInt8) :
    frame body = header body.length ++ (body ++ trailer body) := by
  simp [frame, header, trailer]

theorem length_header (length : Nat) : (header length).length = 13 := by
  simp [header, magic]

theorem header_inj {length other : Nat} (hlength : length < UInt64.size)
    (hother : other < UInt64.size) (h : header length = header other) :
    length = other := by
  have hsizes := (List.cons.inj (List.append_cancel_left h)).2
  have hnumbers := congrArg Bytes.ofLittleEndian hsizes
  rw [Bytes.ofLittleEndian_littleEndian hlength,
    Bytes.ofLittleEndian_littleEndian hother] at hnumbers
  exact hnumbers

/-- A frame tells its own end. -/
theorem frame_eq_of_prefix (hbody : body.length < UInt64.size)
    (hother : other.length < UInt64.size) (h : frame body <+: frame other) :
    frame body = frame other := by
  refine h.eq_of_length ?_
  obtain ⟨rest, hrest⟩ := h
  rw [frame_eq, frame_eq, List.append_assoc] at hrest
  obtain ⟨hheaders, -⟩ := List.append_inj hrest (by
    rw [length_header, length_header])
  rw [length_frame, length_frame, header_inj hbody hother hheaders]

theorem not_oneChanged_frame : ¬ OneChanged (frame body) (frame other) := by
  intro h
  have hlength : other.length = body.length := by
    have hlengths := h.length_eq
    rw [length_frame, length_frame] at hlengths
    exact Nat.add_right_cancel hlengths
  rw [frame_eq, frame_eq, hlength] at h
  rcases h.of_append rfl with ⟨hheader, -⟩ | ⟨-, h⟩
  · exact hheader.ne rfl
  · -- A change in the body shows in its checksum, and one there in nothing else.
    rcases h.of_append hlength.symm with ⟨hbody, htrailer⟩ | ⟨rfl, htrailer⟩
    · have hsums := congrArg Bytes.ofLittleEndian htrailer
      unfold trailer at hsums
      rw [Bytes.ofLittleEndian_littleEndian (Checksum.ofBytes body).toNat_lt,
        Bytes.ofLittleEndian_littleEndian (Checksum.ofBytes other).toNat_lt]
        at hsums
      exact Checksum.ofBytes_ne_of_oneChanged hbody (UInt32.toNat_inj.mp hsums)
    · exact htrailer.ne rfl

/-- What may happen to a file: another byte in the place of one, an end that is
missing, or something after the end. -/
inductive Damage (file : List UInt8) : List UInt8 → Prop
  | altered {place : Nat} {old new : UInt8} (hold : file[place]? = some old)
      (hne : old ≠ new) : Damage file (file.set place new)
  | cut {count : Nat} (hcount : count < file.length) :
      Damage file (file.take count)
  | extended {rest : List UInt8} (hrest : rest ≠ []) :
      Damage file (file ++ rest)

theorem Damage.not_frame (h : Damage (frame body) damaged)
    (hbody : body.length < UInt64.size) (hother : other.length < UInt64.size) :
    damaged ≠ frame other := by
  intro heq
  cases h with
  | altered hold hne =>
      have hchanged := OneChanged.of_set hold hne
      rw [heq] at hchanged
      exact not_oneChanged_frame hchanged
  | @cut count hcount =>
      have hprefix : frame other <+: frame body := heq ▸ List.take_prefix _ _
      have hsame := frame_eq_of_prefix hother hbody hprefix
      rw [← hsame] at heq hcount
      have hlengths := congrArg List.length heq
      rw [List.length_take] at hlengths
      omega
  | @extended rest hrest =>
      have hprefix : frame body <+: frame other := heq ▸ List.prefix_append _ _
      have hsame := frame_eq_of_prefix hbody hother hprefix
      rw [← hsame] at heq
      exact hrest (List.append_right_eq_self.mp heq)

theorem ofFile_of_damage {snapshot : Snapshot}
    (hlength : snapshot.encode.length < UInt64.size)
    (h : Damage snapshot.toFile damaged) :
    ∃ failure, ofFile damaged = .error failure := by
  unfold ofFile
  cases hopened : unframe damaged with
  | error failure => exact ⟨failure, rfl⟩
  | ok body =>
      obtain ⟨hframe, hbody⟩ := unframe_eq_ok hopened
      exact absurd hframe (h.not_frame hlength hbody)

end Snapshot

/-- A saved file that has been damaged in any way is never loaded: there is an
error instead, whatever else there is in the directory. A file is never so long
that 64 bits cannot tell its length. -/
theorem Directory.load_of_damage {snapshot : Snapshot}
    (hlength : snapshot.toFile.length < UInt64.size)
    {directory saved current : Directory} {faults : DirectoryFaults}
    {path suffix : String}
    (hsave : directory.save faults path suffix snapshot = (.ok (), saved))
    {file damaged : List UInt8} (hfile : saved.get? path = some (.file file))
    (hdamage : Snapshot.Damage file damaged)
    (hcurrent : current.get? path = some (.file damaged)) :
    ∃ failure, current.load path = .error failure := by
  have hbody : snapshot.encode.length < UInt64.size := by
    rw [Snapshot.toFile, Snapshot.length_frame] at hlength
    omega
  rw [get?_of_save hsave] at hfile
  cases hfile
  obtain ⟨failure, hfailure⟩ := Snapshot.ofFile_of_damage hbody hdamage
  refine ⟨failure, ?_⟩
  unfold load
  rw [hcurrent]
  dsimp only
  rw [hfailure]
  rfl

/-- A byte of the body is another, the last byte is missing, or one more byte
follows. -/
theorem Directory.load_of_damage_kept :
    ∃ saved, save .empty .none "store" ".new" keptSnapshot = (.ok (), saved) ∧
      ∀ damaged ∈ [keptSnapshot.toFile.set 20 0, keptSnapshot.toFile.take 101,
        keptSnapshot.toFile ++ [0]],
      ∃ failure, load (saved.insert "store" (.file damaged)) "store" =
        .error failure := by
  obtain ⟨saved, hsave⟩ :
      ∃ saved, save .empty .none "store" ".new" keptSnapshot =
        (.ok (), saved) := save_none (by simp) (by simp)
  refine ⟨saved, hsave, fun damaged hmem => ?_⟩
  have hdamage : Snapshot.Damage keptSnapshot.toFile damaged := by
    simp only [List.mem_cons, List.not_mem_nil, or_false] at hmem
    rcases hmem with rfl | rfl | rfl
    · have hold : keptSnapshot.toFile[20]? = some 229 := by decide
      exact .altered hold (by decide)
    · exact .cut (by decide)
    · exact .extended (by decide)
  exact load_of_damage (by decide) hsave (get?_of_save hsave) hdamage
    (by rw [AssocList.get?_insert, if_pos rfl])

end MessageBroker
