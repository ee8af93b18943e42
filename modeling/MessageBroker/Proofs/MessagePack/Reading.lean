import Mathlib.Data.List.Forall2
import MessageBroker.MessagePack.Encoding
import MessageBroker.MessagePack.Value

/-! What is written is read back as the value that it stands for, and whatever
follows it is left alone. -/

namespace MessageBroker

theorem Bytes.split?_bigEndian (width number : Nat) (rest : List UInt8) :
    split? width (bigEndian width number ++ rest) =
      some (bigEndian width number, rest) :=
  split?_eq_some_iff.mpr ⟨rfl, length_bigEndian width number⟩

namespace MessagePack

def Opens (bytes : List UInt8) (header : Header) : Prop :=
  ∀ rest, readHeader? (bytes ++ rest) = some (header, rest)

theorem sized_bigEndian (width : Nat) {size : Nat}
    (h : size < Bytes.limit width) (header : Nat → Header) (rest : List UInt8) :
    sized width header (Bytes.bigEndian width size ++ rest) =
      some (header size, rest) := by
  unfold sized
  rw [Bytes.split?_bigEndian, Option.map_some]
  dsimp only
  rw [Bytes.ofBigEndian_bigEndian h]

theorem opens_textHeader {size : Nat} (h : size < UInt32.size) :
    Opens (textHeader size) (.text size) := by
  intro rest
  unfold textHeader
  split
  · rename_i hshort
    have hcode : (UInt8.ofNat (0xa0 + size)).toNat = 0xa0 + size := by
      rw [UInt8.toNat_ofNat']
      omega
    simp only [List.cons_append, List.nil_append, readHeader?, hcode]
    rw [if_neg (by omega), if_neg (by omega), if_neg (by omega),
      if_pos (by omega), Nat.add_sub_cancel_left]
  · split
    · rename_i hbyte
      exact sized_bigEndian 1 hbyte .text rest
    · split
      · rename_i htwo
        exact sized_bigEndian 2 htwo .text rest
      · exact sized_bigEndian 4 h .text rest

theorem opens_arrayHeader {size : Nat} (h : size < UInt32.size) :
    Opens (arrayHeader size) (.array size) := by
  intro rest
  unfold arrayHeader
  split
  · rename_i hshort
    have hcode : (UInt8.ofNat (0x90 + size)).toNat = 0x90 + size := by
      rw [UInt8.toNat_ofNat']
      omega
    simp only [List.cons_append, List.nil_append, readHeader?, hcode]
    rw [if_neg (by omega), if_neg (by omega), if_pos (by omega),
      Nat.add_sub_cancel_left]
  · split
    · rename_i htwo
      exact sized_bigEndian 2 htwo .array rest
    · exact sized_bigEndian 4 h .array rest

/-- The bytes stand for the value, which has at most so many levels inside each
other. -/
def Spells (depth : Nat) (bytes : List UInt8) (value : Value) : Prop :=
  ∀ levels rest, read? (levels + depth) (bytes ++ rest) = some (value, rest)

theorem Spells.mono {depth deeper : Nat} {bytes : List UInt8} {value : Value}
    (h : Spells depth bytes value) (hdepth : depth ≤ deeper) :
    Spells deeper bytes value := by
  intro levels rest
  have hlevels : levels + deeper = (levels + (deeper - depth)) + depth := by
    omega
  rw [hlevels]
  exact h _ rest

theorem spells_of_opens {bytes : List UInt8} (contents : List UInt8)
    {header : Header} {value : Value} (hopens : Opens bytes header)
    (hcontents : ∀ inner? rest,
      header.contents? inner? (contents ++ rest) = some (value, rest)) :
    Spells 0 (bytes ++ contents) value := by
  intro levels rest
  have hheader := hopens (contents ++ rest)
  rw [← List.append_assoc] at hheader
  cases levels with
  | zero =>
      rw [Nat.add_zero, read?, hheader]
      exact hcontents none rest
  | succ levels =>
      rw [Nat.add_zero, read?, hheader]
      exact hcontents _ rest

theorem spells_leaf {bytes : List UInt8} {value : Value}
    (hopens : Opens bytes (.leaf value)) : Spells 0 bytes value := by
  have hspells := spells_of_opens [] hopens fun _ _ => rfl
  rwa [List.append_nil] at hspells

theorem spells_null : Spells 0 encodeNull .null :=
  spells_leaf fun _ => rfl

theorem spells_boolean (value : Bool) :
    Spells 0 (encodeBoolean value) (.boolean value) := by
  cases value with
  | false => exact spells_leaf fun _ => rfl
  | true => exact spells_leaf fun _ => rfl

theorem spells_wide {marker : UInt8} (width : Nat) {number : Nat}
    (hmarker : Opens [marker] (.unsigned width))
    (hnumber : number < Bytes.limit width) :
    Spells 0 (marker :: Bytes.bigEndian width number) (.unsigned number) := by
  refine spells_of_opens (Bytes.bigEndian width number) hmarker
    fun inner? rest => ?_
  rw [Header.contents?, readLeaf, Bytes.split?_bigEndian, Option.map_some]
  dsimp only
  rw [Bytes.ofBigEndian_bigEndian hnumber]

theorem spells_unsigned {number : Nat} (h : number < UInt64.size) :
    Spells 0 (encodeUnsigned number) (.unsigned number) := by
  unfold encodeUnsigned
  split
  · rename_i hshort
    refine spells_leaf fun rest => ?_
    have hcode : (UInt8.ofNat number).toNat = number := by
      rw [UInt8.toNat_ofNat']
      omega
    simp only [List.cons_append, List.nil_append, readHeader?, hcode,
      if_pos hshort]
  · split
    · rename_i hone
      exact spells_wide 1 (fun _ => rfl) hone
    · split
      · rename_i htwo
        exact spells_wide 2 (fun _ => rfl) htwo
      · split
        · rename_i hfour
          exact spells_wide 4 (fun _ => rfl) hfour
        · exact spells_wide 8 (fun _ => rfl) h

theorem spells_text {text : String} (h : text.utf8ByteSize < UInt32.size) :
    Spells 0 (encodeText text) (.text (Text.toUtf8 text)) := by
  refine spells_of_opens _ (opens_textHeader h) fun inner? rest => ?_
  simp only [Header.contents?, readLeaf]
  rw [Bytes.split?_append]
  rfl

theorem readMany_flatten {read : List UInt8 → Option (Value × List UInt8)}
    {items : List (List UInt8)} {values : List Value}
    (h : List.Forall₂ (fun bytes value =>
      ∀ rest, read (bytes ++ rest) = some (value, rest)) items values)
    (rest : List UInt8) :
    readMany read items.length (items.flatten ++ rest) =
      some (values, rest) := by
  induction h with
  | nil => rfl
  | cons hitem _ ih =>
      rw [List.flatten_cons, List.append_assoc, List.length_cons, readMany,
        hitem, Option.bind_some]
      dsimp only
      rw [ih, Option.map_some]

theorem spells_array {depth : Nat} {items : List (List UInt8)}
    {values : List Value} (h : List.Forall₂ (Spells depth) items values)
    (hlength : items.length < UInt32.size) :
    Spells (depth + 1) (encodeArray items) (.array values) := by
  intro levels rest
  have hitems : List.Forall₂ (fun bytes value =>
      ∀ rest, read? (levels + depth) (bytes ++ rest) = some (value, rest))
      items values := h.imp fun _ _ hspells => hspells levels
  rw [← Nat.add_assoc, read?, encodeArray, List.append_assoc,
    opens_arrayHeader hlength, Option.bind_some]
  simp only [Header.contents?, Option.bind_some, readMany_flatten hitems,
    Option.map_some]

theorem spells_record {depth : Nat} {items : List (List UInt8)}
    {values : List Value} (h : List.Forall₂ (Spells depth) items values)
    (hfew : items.length ≤ 4) :
    Spells (depth + 1) (encodeArray items) (.array values) :=
  spells_array h (Nat.lt_of_le_of_lt hfew (by decide))

theorem spells_list {α : Type} {depth : Nat} {encode : α → List UInt8}
    {toValue : α → Value} {items : List α}
    (h : ∀ item ∈ items, Spells depth (encode item) (toValue item))
    (hlength : items.length < UInt32.size) :
    Spells (depth + 1) (encodeArray (items.map encode))
      (.array (items.map toValue)) := by
  refine spells_array ?_ (by rwa [List.length_map])
  rw [List.forall₂_map_left_iff, List.forall₂_map_right_iff]
  exact List.forall₂_same.mpr h

/-- A whole text of bytes that stands for a value is decoded as that value. -/
theorem decode?_of_spells {depth : Nat} {bytes : List UInt8} {value : Value}
    (h : Spells depth bytes value) (hdepth : depth ≤ maxLevels) :
    decode? bytes = some value := by
  have hread := h (maxLevels - depth) []
  rw [Nat.sub_add_cancel hdepth, List.append_nil] at hread
  unfold decode?
  rw [hread, Option.map_some]

end MessagePack

end MessageBroker
