/-! Numbers in a fixed count of bytes, and what a list of bytes begins with. -/

namespace MessageBroker.Bytes

/-- How many numbers there are of so many bytes. -/
def limit : Nat → Nat
  | 0 => 1
  | width + 1 => 256 * limit width

/-- The given number of bytes, the lowest first. -/
def littleEndian : Nat → Nat → List UInt8
  | 0, _ => []
  | width + 1, number => .ofNat number :: littleEndian width (number / 256)

def ofLittleEndian (bytes : List UInt8) : Nat :=
  bytes.foldr (fun byte rest => byte.toNat + 256 * rest) 0

/-- The given number of bytes, the highest first. -/
def bigEndian (width number : Nat) : List UInt8 :=
  (littleEndian width number).reverse

def ofBigEndian (bytes : List UInt8) : Nat :=
  ofLittleEndian bytes.reverse

/-- So many bytes from the front, and the rest. -/
def split? : Nat → List UInt8 → Option (List UInt8 × List UInt8)
  | 0, bytes => some ([], bytes)
  | _ + 1, [] => none
  | count + 1, byte :: bytes =>
      (split? count bytes).map fun (front, rest) => (byte :: front, rest)

@[simp] theorem length_littleEndian (width number : Nat) :
    (littleEndian width number).length = width := by
  induction width generalizing number with
  | zero => rfl
  | succ width ih => simp [littleEndian, ih]

@[simp] theorem length_bigEndian (width number : Nat) :
    (bigEndian width number).length = width := by
  simp [bigEndian]

theorem ofLittleEndian_littleEndian {width number : Nat}
    (h : number < limit width) :
    ofLittleEndian (littleEndian width number) = number := by
  induction width generalizing number with
  | zero =>
      simp only [limit] at h
      simp only [littleEndian, ofLittleEndian, List.foldr_nil]
      omega
  | succ width ih =>
      have hrest : number / 256 < limit width := by
        simp only [limit] at h
        omega
      have hvalue := ih hrest
      simp only [ofLittleEndian] at hvalue
      simp only [littleEndian, ofLittleEndian, List.foldr_cons, hvalue,
        UInt8.toNat_ofNat']
      omega

theorem ofLittleEndian_lt (bytes : List UInt8) :
    ofLittleEndian bytes < limit bytes.length := by
  induction bytes with
  | nil => exact Nat.zero_lt_one
  | cons byte rest ih =>
      have hbyte := byte.toNat_lt
      simp only [ofLittleEndian] at ih
      simp only [ofLittleEndian, List.foldr_cons, List.length_cons, limit]
      omega

theorem littleEndian_ofLittleEndian (bytes : List UInt8) :
    littleEndian bytes.length (ofLittleEndian bytes) = bytes := by
  induction bytes with
  | nil => rfl
  | cons byte rest ih =>
      have hbyte := byte.toNat_lt
      have hrest : ofLittleEndian (byte :: rest) / 256 = ofLittleEndian rest := by
        simp only [ofLittleEndian, List.foldr_cons]
        omega
      have hlow : UInt8.ofNat (ofLittleEndian (byte :: rest)) = byte := by
        apply UInt8.toNat_inj.mp
        simp only [ofLittleEndian, List.foldr_cons, UInt8.toNat_ofNat']
        omega
      rw [List.length_cons, littleEndian, hrest, hlow, ih]

theorem ofBigEndian_bigEndian {width number : Nat} (h : number < limit width) :
    ofBigEndian (bigEndian width number) = number := by
  simp [ofBigEndian, bigEndian, ofLittleEndian_littleEndian h]

theorem split?_append (front rest : List UInt8) :
    split? front.length (front ++ rest) = some (front, rest) := by
  induction front with
  | nil => rfl
  | cons byte front ih => simp [split?, ih]

theorem split?_eq_some_iff {count : Nat} {bytes front rest : List UInt8} :
    split? count bytes = some (front, rest) ↔
      bytes = front ++ rest ∧ front.length = count := by
  constructor
  · intro h
    induction count generalizing bytes front with
    | zero =>
        cases h
        simp
    | succ count ih =>
        cases bytes with
        | nil => cases h
        | cons byte bytes =>
            obtain ⟨⟨inner, last⟩, hinner, heq⟩ := Option.map_eq_some_iff.mp h
            cases heq
            obtain ⟨rfl, rfl⟩ := ih hinner
            simp
  · rintro ⟨rfl, rfl⟩
    exact split?_append front rest

end MessageBroker.Bytes
