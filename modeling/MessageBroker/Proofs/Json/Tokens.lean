import Mathlib.Data.Option.Basic
import MessageBroker.Proofs.Json.Grammar

/-! Texts and numbers are read as the grammar has them, whatever follows. -/

namespace MessageBroker.Json

variable {c letter : Char} {pieces : List Piece} {chars rest : List Char}

theorem hexDigit?_of_isHexDigit {digit : Nat} (h : IsHexDigit c digit) :
    hexDigit? c = some digit := by
  have hdigits : ∀ digit < 16, hexDigit? digit.digitChar = some digit ∧
      hexDigit? digit.digitChar.toUpper = some digit := by
    decide
  obtain ⟨hdigit, rfl | rfl⟩ := h
  · exact (hdigits digit hdigit).1
  · exact (hdigits digit hdigit).2

theorem hexNumber?_eq_some {first second third fourth : Char} {a b c d : Nat}
    (hfirst : IsHexDigit first a) (hsecond : IsHexDigit second b)
    (hthird : IsHexDigit third c) (hfourth : IsHexDigit fourth d) :
    hexNumber? [first, second, third, fourth] =
      some (4096 * a + 256 * b + 16 * c + d) := by
  unfold hexNumber?
  simp only [List.mapM_cons, List.mapM_nil, hexDigit?_of_isHexDigit hfirst,
    hexDigit?_of_isHexDigit hsecond, hexDigit?_of_isHexDigit hthird,
    hexDigit?_of_isHexDigit hfourth]
  simp
  omega

theorem escape?_of_mem_escapes (h : (letter, c) ∈ escapes) :
    escape? letter = some c ∧ letter ≠ 'u' := by
  simp only [escapes, List.mem_cons, Prod.mk.injEq, List.not_mem_nil,
    or_false] at h
  rcases h with h | h | h | h | h | h | h | h <;> obtain ⟨rfl, rfl⟩ := h <;>
    decide

theorem readPieces?_of_piecesText (h : PiecesText pieces chars)
    (rest : List Char) :
    readPieces? (chars ++ '"' :: rest) = some (pieces, rest) := by
  induction h with
  | nil => simp [readPieces?]
  | plain hprintable hquote hbackslash hrest ih =>
      rw [List.cons_append, readPieces?, ih]
      · simp [hprintable]
      all_goals simp_all
  | escape hletter hrest ih =>
      obtain ⟨hescape, hunit⟩ := escape?_of_mem_escapes hletter
      rw [List.cons_append, List.cons_append, readPieces?, hescape, ih]
      · rfl
      · intros
        simp_all
  | unit hfirst hsecond hthird hfourth hrest ih =>
      simp only [List.cons_append]
      rw [readPieces?, hexNumber?_eq_some hfirst hsecond hthird hfourth, ih]
      rfl

theorem not_surrogate (c : Char) :
    isHighSurrogate c.toNat = false ∧ isLowSurrogate c.toNat = false := by
  have hvalid : c.toNat < 0xd800 ∨ 0xdfff < c.toNat ∧ c.toNat < 0x110000 :=
    c.valid
  simp only [isHighSurrogate, isLowSurrogate, Bool.and_eq_false_iff,
    decide_eq_false_iff_not]
  omega

theorem decodePieces?_of_spells (h : Spells pieces chars) :
    decodePieces? pieces = some chars := by
  induction h with
  | nil => rfl
  | char hrest ih =>
      rw [decodePieces?, ih]
      rfl
  | @unit c pieces chars hrest ih =>
      obtain ⟨hhigh, hlow⟩ := not_surrogate c
      rw [decodePieces?.eq_def]
      simp only [hhigh, hlow, Bool.false_eq_true, ↓reduceIte, ih,
        Option.map_some, Char.ofNat_toNat]
  | @pair c high low pieces chars hhigh hlow hc hrest ih =>
      have hfirst : isHighSurrogate (0xd800 + high) = true := by
        simp [isHighSurrogate]
        omega
      have hsecond : isLowSurrogate (0xdc00 + low) = true := by
        simp [isLowSurrogate]
        omega
      have hcode : 0x10000 + (0xd800 + high - 0xd800) * 0x400 +
          (0xdc00 + low - 0xdc00) = c.toNat := by
        omega
      rw [decodePieces?, hfirst]
      simp only [hsecond, ↓reduceIte, ih, hcode, Char.ofNat_toNat]
      rfl

theorem textOf?_of_spells {text : String} (h : Spells pieces text.toList) :
    textOf? pieces = some text := by
  rw [textOf?, decodePieces?_of_spells h, Option.map_some, String.ofList_toList]

/-- Nothing comes next that could belong to a number. -/
def Delimited (rest : List Char) : Prop :=
  ∀ c ∈ rest.head?, c.isDigit = false ∧ c ≠ '.' ∧ c ≠ 'e' ∧ c ≠ 'E'

theorem takeDigits_append {digits : List Char} (hdigits : Digits digits)
    (hrest : ∀ c ∈ rest.head?, c.isDigit = false) :
    takeDigits (digits ++ rest) = (digits, rest) := by
  have hnone : rest.takeWhile Char.isDigit = [] ∧
      rest.dropWhile Char.isDigit = rest := by
    cases rest with
    | nil => simp
    | cons c rest => simp [hrest c rfl]
  unfold takeDigits
  rw [List.takeWhile_append_of_pos hdigits, List.dropWhile_append_of_pos hdigits,
    hnone.1, hnone.2, List.append_nil]

theorem takeFraction_append {fraction : List Char}
    (hfraction : FractionText fraction)
    (hdigit : ∀ c ∈ rest.head?, c.isDigit = false)
    (hpoint : ∀ c ∈ rest.head?, c ≠ '.') :
    takeFraction (fraction ++ rest) = (fraction, rest) := by
  cases hfraction with
  | none =>
      cases rest with
      | nil => rfl
      | cons c rest =>
          have hc := hpoint c rfl
          unfold takeFraction
          split
          · rename_i heq
            cases heq
            exact absurd rfl hc
          · rfl
  | @some digits hnonempty hdigits =>
      obtain ⟨d, digits, rfl⟩ := List.exists_cons_of_ne_nil hnonempty
      rw [List.cons_append, takeFraction, takeDigits_append hdigits hdigit]

theorem takeSign_digits {digits : List Char} (hnonempty : digits ≠ [])
    (hdigits : Digits digits) (rest : List Char) :
    takeSign (digits ++ rest) = ([], digits ++ rest) := by
  obtain ⟨d, digits, rfl⟩ := List.exists_cons_of_ne_nil hnonempty
  have hd := hdigits d List.mem_cons_self
  unfold takeSign
  split
  · rename_i heq
    cases heq
    cases hd
  · rename_i heq
    cases heq
    cases hd
  · rfl

theorem takeExponent_append {exponent : List Char}
    (hexponent : ExponentText exponent) (hrest : Delimited rest) :
    takeExponent (exponent ++ rest) = (exponent, rest) := by
  cases hexponent with
  | none =>
      cases rest with
      | nil => rfl
      | cons c rest =>
          obtain ⟨-, -, hlower, hupper⟩ := hrest c rfl
          simp [takeExponent, hlower, hupper]
  | @some letter sign digits hletter hsign hnonempty hdigits =>
      have hend : ∀ c ∈ rest.head?, c.isDigit = false :=
        fun c hc => (hrest c hc).1
      have hsigned : takeSign (sign ++ (digits ++ rest)) =
          (sign, digits ++ rest) := by
        simp only [List.mem_cons, List.not_mem_nil, or_false] at hsign
        rcases hsign with rfl | rfl | rfl
        · exact takeSign_digits hnonempty hdigits rest
        · rfl
        · rfl
      obtain ⟨d, digits, rfl⟩ := List.exists_cons_of_ne_nil hnonempty
      rw [List.cons_append, takeExponent, if_pos hletter, List.append_assoc,
        hsigned]
      dsimp only
      rw [takeDigits_append hdigits hend]

theorem readMagnitude?_append {literal : List Char}
    (hmagnitude : MagnitudeText literal) (hrest : Delimited rest) :
    readMagnitude? (literal ++ rest) = some (literal, rest) := by
  obtain ⟨hwhole, hfraction, hexponent⟩ := hmagnitude
  rename_i whole fraction exponent
  have hend : ∀ c ∈ (exponent ++ rest).head?, c.isDigit = false ∧ c ≠ '.' := by
    cases hexponent with
    | none => exact fun c hc => ⟨(hrest c hc).1, (hrest c hc).2.1⟩
    | some hletter =>
        intro c hc
        cases hc
        rcases hletter with rfl | rfl <;> decide
  have hafter : ∀ c ∈ (fraction ++ (exponent ++ rest)).head?,
      c.isDigit = false := by
    cases hfraction with
    | none => exact fun c hc => (hend c hc).1
    | some =>
        intro c hc
        cases hc
        decide
  have hfraction := takeFraction_append hfraction (fun c hc => (hend c hc).1)
    fun c hc => (hend c hc).2
  have hexponent := takeExponent_append hexponent hrest
  cases hwhole with
  | zero =>
      simp [readMagnitude?, hfraction, hexponent]
  | @positive c digits hdigit hzero hdigits =>
      have hdigits := takeDigits_append hdigits hafter
      simp [readMagnitude?, hdigit, hzero, hdigits, hfraction, hexponent]

theorem readNumber?_append {literal : List Char}
    (hnumber : NumberText literal) (hrest : Delimited rest) :
    readNumber? (literal ++ rest) = some (literal, rest) := by
  cases hnumber with
  | plain hmagnitude =>
      have hread := readMagnitude?_append hmagnitude hrest
      unfold readNumber?
      split
      · rename_i hminus
        rw [hminus] at hread
        cases hread
      · exact hread
  | minus hmagnitude =>
      rw [List.cons_append, readNumber?, readMagnitude?_append hmagnitude hrest]
      rfl

theorem readToken?_of_readNumber? {literal : List Char}
    (h : readNumber? chars = some (literal, rest)) :
    readToken? chars = some (.number literal, rest) := by
  unfold readToken?
  split
  case h_11 => rw [h]; rfl
  -- Nothing else that a token begins with is a digit or a minus.
  all_goals simp [readNumber?, readMagnitude?] at h

end MessageBroker.Json
