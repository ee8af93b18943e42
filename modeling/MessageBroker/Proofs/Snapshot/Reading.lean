import MessageBroker.Proofs.Snapshot.Damage

/-! Reading files that may hold anything. A file is read if it is the frame of a
body that can be decoded, and there is an error otherwise. A length that is not
that of the file is found out before anything is read for it. -/

namespace MessageBroker

namespace Snapshot

variable {file body : List UInt8} {snapshot : Snapshot} {failure : Failure}

theorem ofFile_eq_ok_iff :
    ofFile file = .ok snapshot ↔
      ∃ body, unframe file = .ok body ∧ decode? body = some snapshot := by
  unfold ofFile
  cases hopened : unframe file with
  | error failure =>
      constructor
      · intro h
        cases h
      · rintro ⟨body, hbody, -⟩
        cases hbody
  | ok body =>
      dsimp only [bind, Except.bind]
      cases hdecoded : decode? body with
      | none =>
          constructor
          · intro h
            cases h
          · rintro ⟨other, hother, h⟩
            cases hother
            rw [hdecoded] at h
            cases h
      | some decoded =>
          constructor
          · intro h
            cases h
            exact ⟨body, rfl, hdecoded⟩
          · rintro ⟨other, hother, h⟩
            cases hother
            rw [hdecoded] at h
            cases h
            rfl

namespace Metered

variable {α : Type}

/-- Whole requests in the order of the format. The body is asked for in one piece
as long as the file has for it, and not before that length is known to be
right. -/
def Expected (file : List UInt8) (requests : List Nat) : Prop :=
  requests <+: [magic.length, 1, 8] ∨
    ∃ length, length + overhead = file.length ∧
      requests <+: [magic.length, 1, 8, length, 4]

/-- A reading that goes on after these requests asks for what is expected, and
misses bytes only in front of the body. -/
structure Careful (file : List UInt8) (asked : List Nat) (reading : Metered α) :
    Prop where
  requests : Expected file (asked ++ reading.requests)
  endsEarly : reading.result = .error (.file .endsEarly) → file.length < 13

namespace Careful

variable {asked : List Nat} {count : Nat} {bytes : List UInt8}
  {next : List UInt8 × List UInt8 → Metered α}

theorem fail (hasked : Expected file asked)
    (hfailure : failure ≠ .file .endsEarly) :
    Careful file asked (throw failure : Metered α) := by
  refine ⟨?_, fun h => absurd (Except.error.inj h) hfailure⟩
  change Expected file (asked ++ [])
  rw [List.append_nil]
  exact hasked

theorem done (hasked : Expected file asked) (value : α) :
    Careful file asked (pure value : Metered α) := by
  refine ⟨?_, fun h => nomatch h⟩
  change Expected file (asked ++ [])
  rw [List.append_nil]
  exact hasked

theorem take (hasked : Expected file (asked ++ [count]))
    (hshort : bytes.length < count → file.length < 13)
    (hnext : ∀ front rest, bytes = front ++ rest → front.length = count →
      Careful file (asked ++ [count]) (next (front, rest))) :
    Careful file asked (Metered.take count bytes >>= next) := by
  change Careful file asked (bind (Metered.take count bytes) next)
  unfold bind Metered.take Snapshot.take
  cases hsplit : Bytes.split? count bytes with
  | none =>
      refine ⟨hasked, fun _ => hshort ?_⟩
      by_contra hlong
      have hwhole := Bytes.split?_append (bytes.take count) (bytes.drop count)
      rw [List.take_append_drop, List.length_take,
        Nat.min_eq_left (Nat.le_of_not_lt hlong), hsplit] at hwhole
      cases hwhole
  | some parts =>
      obtain ⟨hbytes, hlength⟩ := Bytes.split?_eq_some_iff.mp hsplit
      obtain ⟨hrequests, hendsEarly⟩ :=
        hnext parts.1 parts.2 hbytes hlength
      rw [List.append_assoc] at hrequests
      exact ⟨hrequests, hendsEarly⟩

end Careful

theorem careful_unframe (file : List UInt8) : Careful file [] (unframe file) := by
  have hmagic : magic.length = 4 := rfl
  unfold unframe
  refine .take (.inl (by decide)) (fun hshort => ?_) ?_
  · omega
  intro start afterStart hfile hstart
  replace hfile := congrArg List.length hfile
  rw [List.length_append] at hfile
  dsimp only
  split
  · exact .fail (.inl (by decide)) nofun
  refine .take (.inl (by decide)) (fun hshort => ?_) ?_
  · omega
  intro number afterNumber hafterStart hnumber
  replace hafterStart := congrArg List.length hafterStart
  rw [List.length_append] at hafterStart
  dsimp only
  split
  · exact .fail (.inl (by decide)) nofun
  refine .take (.inl (by decide)) (fun hshort => ?_) ?_
  · omega
  intro size afterSize hafterNumber hsize
  replace hafterNumber := congrArg List.length hafterNumber
  rw [List.length_append] at hafterNumber
  dsimp only
  split
  · exact .fail (.inl (by decide)) nofun
  rename_i hlength
  replace hlength := not_ne_iff.mp hlength
  -- From here on the file is known to be as long as it says.
  have hleft : afterSize.length = Bytes.ofLittleEndian size + 4 := by
    unfold overhead at hlength
    omega
  refine .take (.inr ⟨_, hlength, ?_⟩) (fun hshort => ?_) ?_
  · exact ⟨[4], rfl⟩
  · omega
  intro content afterContent hafterSize hcontent
  replace hafterSize := congrArg List.length hafterSize
  rw [List.length_append] at hafterSize
  have hall : Expected file
      [magic.length, 1, 8, Bytes.ofLittleEndian size, 4] :=
    .inr ⟨_, hlength, List.prefix_refl _⟩
  refine .take hall (fun hshort => ?_) ?_
  · dsimp only at hshort
    omega
  intro checksum rest hafterContent hchecksum
  dsimp only
  split
  · exact .fail hall nofun
  · exact .done hall content

end Metered

theorem unframe_of_mismatch {length : UInt64} {rest : List UInt8}
    (hfile : file =
      magic ++ version :: Bytes.littleEndian 8 length.toNat ++ rest)
    (hmismatch : length.toNat + overhead ≠ file.length) :
    unframe file = .error (.lengthMismatch length.toNat file.length) := by
  have hsize : file.length = rest.length + 13 := by
    rw [hfile]
    simp [magic]
    omega
  rw [hsize] at hmismatch ⊢
  rw [hfile, unframe_of_header length.toNat_lt]
  dsimp only
  rw [if_pos hmismatch]
  rfl

/-- What becomes of a file with these bytes. -/
structure LoadsExactly (file : List UInt8)
    (result : Except Failure (Option Snapshot)) : Prop where
  accepted : ∀ snapshot, result = .ok (some snapshot) ↔
    ∃ body, file = magic ++ version :: Bytes.littleEndian 8 body.length ++
        body ++ Bytes.littleEndian 4 (Checksum.ofBytes body).toNat ∧
      body.length < UInt64.size ∧ decode? body = some snapshot
  refused : (∀ snapshot, result ≠ .ok (some snapshot)) →
    ∃ failure, result = .error failure
  endsEarly : result = .error (.file .endsEarly) → file.length < 13
  mismatch : ∀ (length : UInt64) (rest : List UInt8),
    file = magic ++ version :: Bytes.littleEndian 8 length.toNat ++ rest →
    length.toNat + overhead ≠ file.length →
      result = .error (.lengthMismatch length.toNat file.length)
  requests : Metered.Expected file (Metered.unframe file).requests

theorem loadsExactly (file : List UInt8) :
    LoadsExactly file ((ofFile file).map some) := by
  have hcareful := Metered.careful_unframe file
  refine ⟨fun snapshot => ?accepted, fun hnone => ?refused, fun hfailure => ?early,
    fun length rest hfile hmismatch => ?mismatch, hcareful.requests⟩
  case accepted =>
    have hsome : (ofFile file).map some = .ok (some snapshot) ↔
        ofFile file = .ok snapshot := by
      cases ofFile file <;> simp [Except.map]
    rw [hsome, ofFile_eq_ok_iff]
    refine exists_congr fun body => ?_
    rw [unframe_eq_ok_iff, and_assoc]
    rfl
  case refused =>
    cases hresult : ofFile file with
    | error failure => exact ⟨failure, rfl⟩
    | ok snapshot =>
        rw [hresult] at hnone
        exact absurd rfl (hnone snapshot)
  case early =>
    refine hcareful.endsEarly ?_
    change unframe file = _
    unfold ofFile at hfailure
    cases hopened : unframe file with
    | error failure =>
        rw [hopened] at hfailure
        cases hfailure
        rfl
    | ok body =>
        rw [hopened] at hfailure
        dsimp only [bind, Except.bind] at hfailure
        split at hfailure <;> cases hfailure
  case mismatch =>
    unfold ofFile
    rw [unframe_of_mismatch hfile hmismatch]
    rfl

end Snapshot

/-- Whatever bytes there are under a name, a snapshot is loaded from them exactly
if they are the mark, the version, the length of a body, the body and its checksum,
and the body is that of the snapshot. Anything else is an error. A file can end
too early only in front of the body, since a length that is not that of the file
is reported before anything is asked for by it. -/
theorem Directory.load_exact {directory : Directory} {path : String}
    {file : List UInt8} (hfile : directory.get? path = some (.file file)) :
    Snapshot.LoadsExactly file (directory.load path) := by
  unfold load
  rw [hfile]
  exact Snapshot.loadsExactly file

/-- The length is so large that 64 bits do not hold that of the whole file. -/
theorem Directory.load_exact_long :
    (let file := Snapshot.magic ++ Snapshot.version ::
      Bytes.littleEndian 8 18446744073709551613
    let directory := AssocList.empty.insert "store" (Node.file file)
    load directory "store" =
        .error (.lengthMismatch 18446744073709551613 13) ∧
      (Snapshot.Metered.unframe file).requests = [4, 1, 8] ∧
      Snapshot.LoadsExactly file (load directory "store")) :=
  ⟨by decide, by decide, load_exact (by decide)⟩

end MessageBroker
