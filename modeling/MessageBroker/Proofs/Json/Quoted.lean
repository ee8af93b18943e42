import MessageBroker.Json.Quoted
import MessageBroker.Proofs.Json.Tokens

/-! What is written by the grammar: texts in quotation marks with everything
escaped that must be, and numbers in decimal digits. -/

namespace MessageBroker.Json

variable {value : Value}

/-- The value stands for the text, however its characters are given. -/
def IsText (text : String) (value : Value) : Prop :=
  ∃ pieces, value = .text pieces ∧ Spells pieces text.toList

/-- The value stands for the number. There is only one way to write it. -/
def IsNatural (number : Nat) (value : Value) : Prop :=
  value = .number (toString number).toList

theorem blank_nil : Blank [] :=
  nofun

theorem Written.dense {chars : List Char} (h : Written (.value value) chars) :
    Written (.item value) chars := by
  have hitem := Written.item blank_nil h blank_nil
  rwa [List.nil_append, List.append_nil] at hitem

theorem Written.denseMember {name : List Piece} {inner chars : List Char}
    (hname : PiecesText name inner) (hvalue : Written (.value value) chars) :
    Written (.member (name, value)) ('"' :: (inner ++ '"' :: ':' :: chars)) :=
  .member blank_nil hname blank_nil hvalue.dense

theorem spells_chars (chars : List Char) : Spells (chars.map .char) chars := by
  induction chars with
  | nil => exact .nil
  | cons c chars ih => exact .char ih

theorem piecesText_chars (chars : List Char)
    (h : ∀ c ∈ chars, ' ' ≤ c ∧ c ≠ '"' ∧ c ≠ '\\') :
    PiecesText (chars.map .char) chars := by
  induction chars with
  | nil => exact .nil
  | cons c chars ih =>
      obtain ⟨hprintable, hquote, hbackslash⟩ := h c List.mem_cons_self
      exact .plain hprintable hquote hbackslash
        (ih fun d hd => h d (List.mem_cons_of_mem c hd))

theorem isHexDigit_hexDigit (number : Nat) :
    IsHexDigit (hexDigit number) (number % 16) :=
  ⟨Nat.mod_lt number (by decide), .inl rfl⟩

theorem escapeChar_cases (c : Char) :
    (∃ pair ∈ escapes, pair.2 = c ∧ escapeChar c = ['\\', pair.1]) ∨
    (c.toNat < 32 ∧ escapeChar c =
      ['\\', 'u', '0', '0', hexDigit (c.toNat / 16), hexDigit c.toNat]) ∨
    ' ' ≤ c ∧ c ≠ '"' ∧ c ≠ '\\' ∧ escapeChar c = [c] := by
  by_cases hnamed : c ∈ ['"', '\\', '\x08', '\x0c', '\n', '\r', '\t']
  · left
    simp only [List.mem_cons, List.not_mem_nil, or_false] at hnamed
    rcases hnamed with rfl | rfl | rfl | rfl | rfl | rfl | rfl <;> decide
  · right
    simp only [List.mem_cons, List.not_mem_nil, or_false, not_or] at hnamed
    obtain ⟨hquote, hbackslash, hback, hfeed, hline, hreturn, htab⟩ := hnamed
    simp only [escapeChar, hquote, hbackslash, hback, hfeed, hline, hreturn,
      htab, ↓reduceIte]
    by_cases hcontrol : c < ' '
    · exact .inl ⟨hcontrol, if_pos hcontrol⟩
    · exact .inr ⟨Char.not_lt.mp hcontrol, hquote, hbackslash, if_neg hcontrol⟩

theorem exists_pieces (chars : List Char) :
    ∃ pieces, PiecesText pieces (chars.flatMap escapeChar) ∧
      Spells pieces chars := by
  induction chars with
  | nil => exact ⟨[], .nil, .nil⟩
  | cons c chars ih =>
      obtain ⟨pieces, hwritten, hspells⟩ := ih
      rw [List.flatMap_cons]
      rcases escapeChar_cases c with ⟨⟨letter, c⟩, hletter, rfl, hescape⟩ |
        ⟨hcontrol, hunit⟩ | ⟨hprintable, hquote, hbackslash, hplain⟩
      · rw [hescape]
        exact ⟨_, .escape hletter hwritten, .char hspells⟩
      · rw [hunit]
        have hzero : IsHexDigit '0' 0 := ⟨by decide, .inl rfl⟩
        have hcode : 4096 * 0 + 256 * 0 + 16 * (c.toNat / 16 % 16) +
            c.toNat % 16 = c.toNat := by
          omega
        have hpieces := PiecesText.unit hzero hzero
          (isHexDigit_hexDigit (c.toNat / 16)) (isHexDigit_hexDigit c.toNat)
          hwritten
        rw [hcode] at hpieces
        exact ⟨_, hpieces, .unit hspells⟩
      · rw [hplain]
        exact ⟨_, .plain hprintable hquote hbackslash hwritten, .char hspells⟩

theorem exists_quote (text : String) :
    ∃ pieces inner, (quote text).toList = '"' :: (inner ++ ['"']) ∧
      PiecesText pieces inner ∧ Spells pieces text.toList := by
  obtain ⟨pieces, hwritten, hspells⟩ := exists_pieces text.toList
  exact ⟨pieces, _, String.toList_ofList, hwritten, hspells⟩

theorem toText?_of_isText {text : String} (h : IsText text value) :
    value.toText? = some text := by
  obtain ⟨pieces, rfl, hspells⟩ := h
  exact textOf?_of_spells hspells

theorem digits_toDigits (number : Nat) : Digits (Nat.toDigits 10 number) :=
  fun _ hc => Nat.isDigit_of_mem_toDigits (by decide) (by decide) hc

theorem toDigits_eq_cons {number : Nat} (h : number ≠ 0) :
    ∃ c digits, Nat.toDigits 10 number = c :: digits ∧ c ≠ '0' := by
  induction number using Nat.strongRecOn with
  | ind number ih =>
      by_cases hsmall : number < 10
      · have hdigits : ∀ digit < 10, digit ≠ 0 → digit.digitChar ≠ '0' := by
          decide
        rw [Nat.toDigits_of_lt_base hsmall]
        exact ⟨_, [], rfl, hdigits number hsmall h⟩
      · obtain ⟨c, digits, hfront, hc⟩ := ih (number / 10) (by omega) (by omega)
        rw [Nat.toDigits_of_base_le (by decide) (by omega), hfront]
        exact ⟨c, _, rfl, hc⟩

theorem wholeText_toDigits (number : Nat) :
    WholeText (Nat.toDigits 10 number) := by
  by_cases hzero : number = 0
  · rw [hzero]
    exact .zero
  · obtain ⟨c, digits, hnumber, hc⟩ := toDigits_eq_cons hzero
    have hdigits := digits_toDigits number
    rw [hnumber] at hdigits ⊢
    exact .positive (hdigits c List.mem_cons_self) hc
      fun d hd => hdigits d (List.mem_cons_of_mem c hd)

theorem numberText_toString (number : Nat) :
    NumberText (toString number).toList := by
  have hmagnitude := MagnitudeText.mk (wholeText_toDigits number) .none .none
  rw [List.append_nil, List.append_nil] at hmagnitude
  rw [Nat.toString_eq_repr, Nat.toList_repr]
  exact .plain hmagnitude

theorem toNatBelow?_of_isNatural {number bound : Nat}
    (h : IsNatural number value) (hbound : number < bound) :
    value.toNatBelow? bound = some number := by
  have hvalue : (Nat.toDigits 10 number).foldl
      (fun number digit => 10 * number + (digit.toNat - '0'.toNat)) 0 =
        number :=
    Nat.ofDigitChars_toDigits (by decide) (by decide)
  have hdigits : (Nat.toDigits 10 number).all Char.isDigit = true :=
    List.all_eq_true.mpr (digits_toDigits number)
  rw [IsNatural, Nat.toString_eq_repr, Nat.toList_repr] at h
  subst h
  unfold Value.toNatBelow?
  dsimp only
  rw [hvalue, hdigits]
  simp [hbound]

end MessageBroker.Json
