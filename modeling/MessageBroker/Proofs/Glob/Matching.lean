import Mathlib.Data.List.Forall2
import MessageBroker.Proofs.Glob.Reading

/-! A pattern matches a text if the text can be split into pieces, one for each
token. The matcher does not come back to a run of any bytes once it has reached
a later one: where the text is too short for what follows the later one, no
other piece for the earlier one leaves more of it. -/

namespace MessageBroker.Glob

def ByteRange.Covers (range : ByteRange) (byte : UInt8) : Prop :=
  range.first ≤ byte ∧ byte ≤ range.second ∨
    range.second ≤ byte ∧ byte ≤ range.first

/-- The pieces of a text that a token stands for. -/
def Token.Takes : Token → List UInt8 → Prop
  | .anyRun, _ => True
  | .anyByte, piece => ∃ byte, piece = [byte]
  | .byte value, piece => piece = [value]
  | .oneOf byteClass, piece => ∃ byte, piece = [byte] ∧
      ((∃ range ∈ byteClass.ranges, range.Covers byte) ↔
        byteClass.negated = false)

/-- The text is made of one piece for each token, in order. -/
def Matches (tokens : List Token) (text : List UInt8) : Prop :=
  ∃ pieces, List.Forall₂ Token.Takes tokens pieces ∧ pieces.flatten = text

variable {token : Token} {tokens : List Token} {text : List UInt8}

theorem ByteClass.contains_iff {byteClass : ByteClass} {byte : UInt8} :
    byteClass.contains byte = true ↔
      ((∃ range ∈ byteClass.ranges, range.Covers byte) ↔
        byteClass.negated = false) := by
  have hany : (byteClass.ranges.any fun range => range.contains byte) = true ↔
      ∃ range ∈ byteClass.ranges, range.Covers byte := by
    simp [ByteRange.contains, ByteRange.Covers]
  rw [← hany, contains]
  cases byteClass.negated <;> simp

theorem Token.takes_iff (hbyte : token ≠ .anyRun) {piece : List UInt8} :
    token.Takes piece ↔ ∃ byte, piece = [byte] ∧ token.accepts byte = true := by
  cases token with
  | anyRun => exact absurd rfl hbyte
  | anyByte => simp [Takes, accepts]
  | byte value => simp [Takes, accepts]
  | oneOf byteClass => simp [Takes, accepts, ByteClass.contains_iff]

theorem matches_nil_iff : Matches [] text ↔ text = [] := by
  constructor
  · rintro ⟨pieces, htakes, rfl⟩
    cases htakes
    rfl
  · rintro rfl
    exact ⟨[], .nil, rfl⟩

theorem matches_cons_iff :
    Matches (token :: tokens) text ↔
      ∃ piece rest, token.Takes piece ∧ Matches tokens rest ∧
        text = piece ++ rest := by
  constructor
  · rintro ⟨pieces, htakes, rfl⟩
    cases htakes with
    | @cons _ piece _ pieces hfirst hrest =>
        exact ⟨piece, pieces.flatten, hfirst, ⟨pieces, hrest, rfl⟩, rfl⟩
  · rintro ⟨piece, rest, hfirst, ⟨pieces, hrest, rfl⟩, rfl⟩
    exact ⟨piece :: pieces, .cons hfirst hrest, rfl⟩

theorem matches_byte_iff (hbyte : token ≠ .anyRun) :
    Matches (token :: tokens) text ↔
      ∃ byte rest, text = byte :: rest ∧ token.accepts byte = true ∧
        Matches tokens rest := by
  rw [matches_cons_iff]
  constructor
  · rintro ⟨piece, rest, hfirst, hrest, rfl⟩
    obtain ⟨byte, rfl, haccepts⟩ := (Token.takes_iff hbyte).mp hfirst
    exact ⟨byte, rest, rfl, haccepts, hrest⟩
  · rintro ⟨byte, rest, rfl, haccepts, hrest⟩
    exact ⟨[byte], rest, (Token.takes_iff hbyte).mpr ⟨byte, rfl, haccepts⟩,
      hrest, rfl⟩

/-- The text fits from here on, or from some later point. -/
def FitsLater (fits : List UInt8 → Prop) (text : List UInt8) : Prop :=
  ∃ later, later <:+ text ∧ fits later

variable {fits : List UInt8 → Prop}

theorem fitsLater_nil_iff : FitsLater fits [] ↔ fits [] := by
  simp [FitsLater]

theorem fitsLater_cons_iff {byte : UInt8} :
    FitsLater fits (byte :: text) ↔
      fits (byte :: text) ∨ FitsLater fits text := by
  simp only [FitsLater, List.suffix_cons_iff, or_and_right, exists_or,
    exists_eq_left]

theorem FitsLater.flatten (h : FitsLater (FitsLater fits) text) :
    FitsLater fits text := by
  obtain ⟨later, hlater, last, hlast, hfits⟩ := h
  exact ⟨last, hlast.trans hlater, hfits⟩

theorem matches_anyRun_iff :
    Matches (.anyRun :: tokens) text ↔ FitsLater (Matches tokens) text := by
  rw [matches_cons_iff]
  constructor
  · rintro ⟨piece, rest, -, hrest, rfl⟩
    exact ⟨rest, List.suffix_append _ _, hrest⟩
  · rintro ⟨later, ⟨piece, rfl⟩, hlater⟩
    exact ⟨piece, later, trivial, hlater, rfl⟩

/-- What the end of an attempt says about the text that was tried. -/
def Attempt.Reports (fits : List UInt8 → Prop) (text : List UInt8) :
    Attempt → Prop
  | .matched => fits text
  | .mismatched => ¬ fits text
  | .exhausted => ¬ FitsLater fits text

theorem reports_tryAll {attempt : List UInt8 → Attempt}
    (hattempt : ∀ text, (attempt text).Reports fits text) (text : List UInt8) :
    (tryAll attempt text).Reports (FitsLater fits) text := by
  induction text with
  | nil =>
      have hnow := hattempt []
      unfold tryAll
      cases hresult : attempt [] <;> rw [hresult] at hnow
      case matched => exact fitsLater_nil_iff.mpr hnow
      case mismatched =>
        exact fun hlater => hnow (fitsLater_nil_iff.mp hlater.flatten)
      case exhausted => exact fun hlater => hnow hlater.flatten
  | cons byte rest ih =>
      have hnow := hattempt (byte :: rest)
      unfold tryAll
      cases hresult : attempt (byte :: rest) <;> rw [hresult] at hnow
      case matched => exact fitsLater_cons_iff.mpr (.inl hnow)
      case exhausted => exact fun hlater => hnow hlater.flatten
      case mismatched =>
        have hskip : FitsLater fits (byte :: rest) → FitsLater fits rest :=
          fun hlater => (fitsLater_cons_iff.mp hlater).resolve_left hnow
        dsimp only
        cases hrest : tryAll attempt rest <;> rw [hrest] at ih
        case matched => exact fitsLater_cons_iff.mpr (.inr ih)
        case mismatched => exact fun hlater => ih (hskip hlater)
        case exhausted =>
          exact fun hlater =>
            ih ⟨rest, List.suffix_refl _, hskip hlater.flatten⟩

theorem attempt_byte_nil (hbyte : token ≠ .anyRun) :
    attempt (token :: tokens) [] = .exhausted := by
  cases token with
  | anyRun => exact absurd rfl hbyte
  | _ => rfl

theorem attempt_byte_cons (hbyte : token ≠ .anyRun) (byte : UInt8)
    (rest : List UInt8) :
    attempt (token :: tokens) (byte :: rest) =
      if token.accepts byte then attempt tokens rest else .mismatched := by
  cases token with
  | anyRun => exact absurd rfl hbyte
  | _ => rfl

theorem reports_attempt (tokens : List Token) (text : List UInt8) :
    (attempt tokens text).Reports (Matches tokens) text := by
  induction tokens generalizing text with
  | nil =>
      cases text with
      | nil => exact matches_nil_iff.mpr rfl
      | cons byte rest =>
          exact fun hmatches =>
            List.cons_ne_nil _ _ (matches_nil_iff.mp hmatches)
  | cons token tokens ih =>
      by_cases hbyte : token = .anyRun
      · subst hbyte
        have hfits : Matches (.anyRun :: tokens) = FitsLater (Matches tokens) :=
          funext fun _ => propext matches_anyRun_iff
        rw [hfits]
        exact reports_tryAll ih text
      · have hnever : ¬ Matches (token :: tokens) [] := by
          intro hmatches
          obtain ⟨_, _, hnil, -⟩ := (matches_byte_iff hbyte).mp hmatches
          cases hnil
        have hfirst : ∀ byte rest, Matches (token :: tokens) (byte :: rest) ↔
            token.accepts byte = true ∧ Matches tokens rest := by
          simp [matches_byte_iff hbyte]
        cases text with
        | nil =>
            rw [attempt_byte_nil hbyte]
            exact fun hlater => hnever (fitsLater_nil_iff.mp hlater)
        | cons byte rest =>
            have hrest := ih rest
            rw [attempt_byte_cons hbyte]
            split
            · rename_i haccepts
              cases hresult : attempt tokens rest <;> rw [hresult] at hrest
              case matched => exact (hfirst byte rest).mpr ⟨haccepts, hrest⟩
              case mismatched =>
                exact fun hmatches => hrest ((hfirst byte rest).mp hmatches).2
              case exhausted =>
                -- A later point needs a later rest.
                rintro ⟨later, hlater, hmatches⟩
                obtain ⟨_, last, rfl, -, hlast⟩ :=
                  (matches_byte_iff hbyte).mp hmatches
                rcases List.suffix_cons_iff.mp hlater with hsame | hbehind
                · have hend : last = rest := (List.cons.inj hsame).2
                  exact hrest ⟨last, hend ▸ List.suffix_refl _, hlast⟩
                · exact hrest
                    ⟨last, (List.suffix_cons _ _).trans hbehind, hlast⟩
            · rename_i hrefuses
              exact fun hmatches => hrefuses ((hfirst byte rest).mp hmatches).1

theorem attempt_eq_matched_iff :
    attempt tokens text = .matched ↔ Matches tokens text := by
  have hreports := reports_attempt tokens text
  cases hresult : attempt tokens text <;> rw [hresult] at hreports
  case matched => exact iff_of_true rfl hreports
  case mismatched => exact iff_of_false Attempt.noConfusion hreports
  case exhausted =>
    refine iff_of_false Attempt.noConfusion fun hmatches => ?_
    exact hreports ⟨text, List.suffix_refl _, hmatches⟩

/-- Every pattern has exactly one reading, and a text matches if it can be split
into pieces for the tokens of that reading. -/
theorem isMatch_exact :
    (∀ pattern, ∃! read, Reads pattern read) ∧
    (∀ pattern text, attempt (Glob.tokens pattern) text = .matched ↔
      ∃ read, Reads pattern read ∧ Matches read text) ∧
    ∀ pattern text : String, isMatch pattern text = true ↔
      ∃ read, Reads (Text.toUtf8 pattern) read ∧
        Matches read (Text.toUtf8 text) := by
  have hmatched : ∀ pattern text,
      attempt (Glob.tokens pattern) text = .matched ↔
        ∃ read, Reads pattern read ∧ Matches read text := by
    intro pattern text
    simp only [reads_iff, exists_eq_left']
    exact attempt_eq_matched_iff
  refine ⟨fun pattern => ?_, hmatched, fun pattern text => ?_⟩
  · exact ⟨Glob.tokens pattern, reads_tokens pattern,
      fun read hread => hread.tokens_eq.symm⟩
  · rw [← hmatched, isMatch, beq_iff_eq]

end MessageBroker.Glob
