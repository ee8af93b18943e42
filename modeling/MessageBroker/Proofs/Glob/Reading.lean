import MessageBroker.Glob

/-! How a pattern is to be read, as a grammar. Every pattern has one reading,
and it is the one that the matcher uses. -/

namespace MessageBroker.Glob

/-- A byte as it is spelled in a class: by itself, or behind a backslash. -/
inductive Spells : List UInt8 → UInt8 → Prop
  | plain {byte : UInt8} (hplain : byte ≠ backslash) : Spells [byte] byte
  | escaped (byte : UInt8) : Spells [backslash, byte] byte

/-- What comes next makes a range of the byte before it. A hyphen just before
the closing bracket does not. -/
def MakesRange : List UInt8 → Prop
  | separator :: next :: _ => separator = hyphen ∧ next ≠ closeBracket
  | _ => False

/-- The first member of a class, and what follows it. -/
inductive ReadsMember : List UInt8 → ByteRange → List UInt8 → Prop
  | single {spelled rest : List UInt8} {byte : UInt8}
      (hspells : Spells spelled byte) (halone : ¬ MakesRange rest) :
      ReadsMember (spelled ++ rest) ⟨byte, byte⟩ rest
  | range {spelled spelledSecond rest : List UInt8} {first second : UInt8}
      (hfirst : Spells spelled first) (hsecond : Spells spelledSecond second)
      (hrange : MakesRange (hyphen :: (spelledSecond ++ rest))) :
      ReadsMember (spelled ++ hyphen :: (spelledSecond ++ rest))
        ⟨first, second⟩ rest

/-- The members of a class up to its closing bracket, and what follows. In the
place of the first member a closing bracket is a member. -/
inductive ReadsMembers : Bool → List UInt8 → List ByteRange → List UInt8 → Prop
  | close (rest : List UInt8) :
      ReadsMembers false (closeBracket :: rest) [] rest
  | member {isFirst : Bool} {bytes middle rest : List UInt8}
      {range : ByteRange} {ranges : List ByteRange}
      (hopen : isFirst = true ∨ bytes.head? ≠ some closeBracket)
      (hmember : ReadsMember bytes range middle)
      (hmore : ReadsMembers false middle ranges rest) :
      ReadsMembers isFirst bytes (range :: ranges) rest

def IsNegation (byte : UInt8) : Prop :=
  byte = exclamationMark ∨ byte = caret

inductive ReadsClass : List UInt8 → ByteClass → List UInt8 → Prop
  | plain {bytes rest : List UInt8} {ranges : List ByteRange}
      (hplain : ∀ byte, bytes.head? = some byte → ¬ IsNegation byte)
      (hmembers : ReadsMembers true bytes ranges rest) :
      ReadsClass bytes ⟨false, ranges⟩ rest
  | negated {mark : UInt8} {bytes rest : List UInt8} {ranges : List ByteRange}
      (hmark : IsNegation mark)
      (hmembers : ReadsMembers true bytes ranges rest) :
      ReadsClass (mark :: bytes) ⟨true, ranges⟩ rest

/-- A byte that stands for itself wherever it comes in a pattern, outside of
classes. -/
def IsPlain (byte : UInt8) : Prop :=
  byte ≠ star ∧ byte ≠ questionMark ∧ byte ≠ openBracket ∧ byte ≠ backslash

/-- The tokens of a pattern, from left to right. -/
inductive Reads : List UInt8 → List Token → Prop
  | done : Reads [] []
  | anyRun {rest : List UInt8} {tokens : List Token}
      (hmore : Reads rest tokens) : Reads (star :: rest) (.anyRun :: tokens)
  | anyByte {rest : List UInt8} {tokens : List Token}
      (hmore : Reads rest tokens) :
      Reads (questionMark :: rest) (.anyByte :: tokens)
  | oneOf {bytes rest : List UInt8} {byteClass : ByteClass}
      {tokens : List Token} (hclass : ReadsClass bytes byteClass rest)
      (hmore : Reads rest tokens) :
      Reads (openBracket :: bytes) (.oneOf byteClass :: tokens)
  | openBracket {rest : List UInt8} {tokens : List Token}
      (hnever : ∀ byteClass last, ¬ ReadsClass rest byteClass last)
      (hmore : Reads rest tokens) :
      Reads (openBracket :: rest) (.byte openBracket :: tokens)
  | escaped {byte : UInt8} {rest : List UInt8} {tokens : List Token}
      (hmore : Reads rest tokens) :
      Reads (backslash :: byte :: rest) (.byte byte :: tokens)
  | lastBackslash : Reads [backslash] [.byte backslash]
  | byte {byte : UInt8} {rest : List UInt8} {tokens : List Token}
      (hplain : IsPlain byte) (hmore : Reads rest tokens) :
      Reads (byte :: rest) (.byte byte :: tokens)

variable {bytes rest pattern : List UInt8} {byte : UInt8}

theorem readMember?_append {spelled : List UInt8} (h : Spells spelled byte)
    (rest : List UInt8) :
    readMember? (spelled ++ rest) = some (byte, rest) := by
  cases h with
  | plain hplain => exact if_neg hplain
  | escaped => rfl

theorem readMember?_eq_some_iff :
    readMember? bytes = some (byte, rest) ↔
      ∃ spelled, Spells spelled byte ∧ bytes = spelled ++ rest := by
  constructor
  · intro h
    unfold readMember? at h
    split at h
    · cases h
    · rename_i first tail
      split at h
      · rename_i hescape
        split at h
        · cases h
        · cases h
          exact ⟨[backslash, byte], .escaped byte, by rw [hescape]; rfl⟩
      · rename_i hplain
        cases h
        exact ⟨[byte], .plain hplain, rfl⟩
  · rintro ⟨spelled, hspells, rfl⟩
    exact readMember?_append hspells rest

theorem readRange?_single (hfirst : readMember? bytes = some (byte, rest))
    (halone : ¬ MakesRange rest) :
    readRange? bytes = some (⟨byte, byte⟩, rest) := by
  unfold readRange?
  rw [hfirst]
  dsimp only
  split
  · exact if_neg halone
  · rfl

theorem readRange?_range (hfirst : readMember? bytes = some (byte, rest))
    (hrange : MakesRange rest) :
    readRange? bytes = (readMember? rest.tail).map fun (second, rest) =>
      (⟨byte, second⟩, rest) := by
  unfold readRange?
  rw [hfirst]
  dsimp only
  split
  · exact if_pos hrange
  · rename_i hshort
    unfold MakesRange at hrange
    split at hrange
    · exact absurd rfl (hshort _ _ _)
    · exact hrange.elim

theorem readRange?_eq_some_iff {range : ByteRange} :
    readRange? bytes = some (range, rest) ↔ ReadsMember bytes range rest := by
  constructor
  · intro h
    cases hfirst : readMember? bytes with
    | none =>
        unfold readRange? at h
        rw [hfirst] at h
        cases h
    | some found =>
        obtain ⟨first, middle⟩ := found
        obtain ⟨spelled, hspells, rfl⟩ := readMember?_eq_some_iff.mp hfirst
        by_cases hrange : MakesRange middle
        · rw [readRange?_range hfirst hrange] at h
          obtain ⟨⟨second, last⟩, hsecond, heq⟩ := Option.map_eq_some_iff.mp h
          cases heq
          obtain ⟨spelledSecond, hspellsSecond, htail⟩ :=
            readMember?_eq_some_iff.mp hsecond
          have hmiddle : middle = hyphen :: (spelledSecond ++ rest) := by
            unfold MakesRange at hrange
            split at hrange
            · rw [hrange.1, ← htail, List.tail_cons]
            · exact hrange.elim
          rw [hmiddle] at hrange ⊢
          exact .range hspells hspellsSecond hrange
        · rw [readRange?_single hfirst hrange] at h
          cases h
          exact .single hspells hrange
  · intro h
    cases h with
    | single hspells halone =>
        exact readRange?_single (readMember?_append hspells rest) halone
    | range hspells hspellsSecond hrange =>
        rw [readRange?_range (readMember?_append hspells _) hrange,
          List.tail_cons, readMember?_append hspellsSecond rest]
        rfl

theorem readRanges?_eq_some_iff {isFirst : Bool} {ranges : List ByteRange} :
    readRanges? isFirst bytes = some (ranges, rest) ↔
      ReadsMembers isFirst bytes ranges rest := by
  constructor
  · intro h
    fun_induction readRanges? isFirst bytes generalizing ranges rest with
    | case1 isFirst bytes hclose =>
        cases h
        simp only [Bool.and_eq_true, Bool.not_eq_true', beq_iff_eq] at hclose
        obtain ⟨rfl, hhead⟩ := hclose
        obtain ⟨rest, rfl⟩ := List.head?_eq_some_iff.mp hhead
        exact .close rest
    | case2 isFirst bytes hopen hrange => cases h
    | case3 isFirst bytes hopen range middle hrange ih =>
        obtain ⟨⟨others, last⟩, hothers, heq⟩ := Option.map_eq_some_iff.mp h
        cases heq
        refine .member ?_ (readRange?_eq_some_iff.mp hrange) (ih hothers)
        cases bytes <;> cases isFirst <;> simp_all
  · intro h
    induction h with
    | close rest =>
        rw [readRanges?]
        exact if_pos rfl
    | @member isFirst bytes middle rest range ranges hopen hmember _ ih =>
        have hnotClose : ¬ (!isFirst && bytes.head? == some closeBracket) := by
          rcases hopen with rfl | hhead
          · simp
          · simp [hhead]
        have hread := readRange?_eq_some_iff.mpr hmember
        rw [readRanges?, if_neg hnotClose]
        split
        · rename_i hnone
          rw [hread] at hnone
          cases hnone
        · rename_i other last hsome
          rw [hread] at hsome
          cases hsome
          rw [ih]
          rfl

theorem isNegated_iff (bytes : List UInt8) :
    (bytes.head? == some exclamationMark ||
      bytes.head? == some caret) = true ↔
        ∃ mark rest, bytes = mark :: rest ∧ IsNegation mark := by
  cases bytes with
  | nil => simp
  | cons mark rest => simp [IsNegation]

theorem readClass?_eq_some_iff {byteClass : ByteClass} :
    readClass? bytes = some (byteClass, rest) ↔
      ReadsClass bytes byteClass rest := by
  constructor
  · intro h
    obtain ⟨⟨ranges, last⟩, hranges, heq⟩ := Option.map_eq_some_iff.mp h
    cases heq
    split at hranges
    · rename_i hnegated
      rw [hnegated]
      obtain ⟨mark, tail, rfl, hmark⟩ := (isNegated_iff bytes).mp hnegated
      exact .negated hmark (readRanges?_eq_some_iff.mp hranges)
    · rename_i hplain
      rw [Bool.eq_false_iff.mpr hplain]
      refine .plain (fun byte hhead hmark => ?_)
        (readRanges?_eq_some_iff.mp hranges)
      obtain ⟨tail, rfl⟩ := List.head?_eq_some_iff.mp hhead
      exact hplain ((isNegated_iff _).mpr ⟨byte, tail, rfl, hmark⟩)
  · intro h
    unfold readClass?
    cases h with
    | plain hplain hmembers =>
        have hfirst : ¬ (bytes.head? == some exclamationMark ||
            bytes.head? == some caret) = true := by
          intro hnegated
          obtain ⟨mark, tail, rfl, hmark⟩ := (isNegated_iff bytes).mp hnegated
          exact hplain mark rfl hmark
        dsimp only
        rw [if_neg hfirst, readRanges?_eq_some_iff.mpr hmembers,
          Bool.eq_false_iff.mpr hfirst]
        rfl
    | @negated mark tail _ _ hmark hmembers =>
        have hfirst :=
          (isNegated_iff (mark :: tail)).mpr ⟨mark, tail, rfl, hmark⟩
        dsimp only
        rw [if_pos hfirst, List.tail_cons,
          readRanges?_eq_some_iff.mpr hmembers, hfirst]
        rfl

theorem tokens_of_readToken? {token : Token}
    (h : readToken? pattern = some (token, rest)) :
    tokens pattern = token :: tokens rest := by
  rw [tokens]
  split
  · rename_i hnone
    rw [h] at hnone
    cases hnone
  · rename_i hsome
    rw [h] at hsome
    cases hsome
    rfl

theorem readToken?_openBracket (bytes : List UInt8) :
    readToken? (openBracket :: bytes) =
      match readClass? bytes with
      | some (byteClass, rest) => some (.oneOf byteClass, rest)
      | none => some (.byte openBracket, bytes) :=
  rfl

theorem readToken?_plain (h : IsPlain byte) :
    readToken? (byte :: rest) = some (.byte byte, rest) := by
  obtain ⟨hstar, hquestion, hbracket, hbackslash⟩ := h
  simp only [readToken?, if_neg hstar, if_neg hquestion, if_neg hbracket,
    if_neg hbackslash]

theorem readToken?_cons_ne_none (byte : UInt8) (rest : List UInt8) :
    readToken? (byte :: rest) ≠ none := by
  simp only [readToken?]
  repeat' split
  all_goals exact Option.some_ne_none _

theorem Reads.tokens_eq {read : List Token} (h : Reads pattern read) :
    tokens pattern = read := by
  induction h with
  | done =>
      rw [tokens]
      rfl
  | anyRun _ ih => rw [tokens_of_readToken? rfl, ih]
  | anyByte _ ih => rw [tokens_of_readToken? rfl, ih]
  | oneOf hclass _ ih =>
      have hread := readClass?_eq_some_iff.mpr hclass
      refine (tokens_of_readToken? ?_).trans (congrArg _ ih)
      rw [readToken?_openBracket, hread]
  | @openBracket rest _ hnever _ ih =>
      refine (tokens_of_readToken? ?_).trans (congrArg _ ih)
      rw [readToken?_openBracket]
      cases hclass : readClass? rest with
      | none => rfl
      | some found =>
          exact absurd (readClass?_eq_some_iff.mp hclass) (hnever _ _)
  | escaped _ ih => rw [tokens_of_readToken? rfl, ih]
  | lastBackslash =>
      rw [tokens_of_readToken? rfl, tokens]
      rfl
  | byte hplain _ ih => rw [tokens_of_readToken? (readToken?_plain hplain), ih]

theorem Reads.of_readToken? {token : Token} {read : List Token}
    (h : readToken? pattern = some (token, rest)) (hmore : Reads rest read) :
    Reads pattern (token :: read) := by
  unfold readToken? at h
  split at h
  · cases h
  · rename_i byte tail
    split at h
    · rename_i hstar
      cases h
      rw [hstar]
      exact .anyRun hmore
    · rename_i hstar
      split at h
      · rename_i hquestion
        cases h
        rw [hquestion]
        exact .anyByte hmore
      · rename_i hquestion
        split at h
        · rename_i hbracket
          rw [hbracket]
          split at h
          · rename_i hclass
            cases h
            exact .oneOf (readClass?_eq_some_iff.mp hclass) hmore
          · rename_i hnone
            cases h
            refine .openBracket (fun byteClass last hclass => ?_) hmore
            rw [readClass?_eq_some_iff.mpr hclass] at hnone
            cases hnone
        · rename_i hbracket
          split at h
          · rename_i hbackslash
            rw [hbackslash]
            split at h
            · cases h
              exact .escaped hmore
            · cases h
              cases hmore with
              | done => exact .lastBackslash
          · rename_i hbackslash
            cases h
            exact .byte ⟨hstar, hquestion, hbracket, hbackslash⟩ hmore

theorem reads_tokens (pattern : List UInt8) :
    Reads pattern (tokens pattern) := by
  fun_induction tokens pattern with
  | case1 pattern hnone =>
      cases pattern with
      | nil => exact .done
      | cons byte rest => exact absurd hnone (readToken?_cons_ne_none _ _)
  | case2 pattern token rest htoken ih => exact .of_readToken? htoken ih

/-- Every pattern can be read, and in one way. -/
theorem reads_iff {read : List Token} :
    Reads pattern read ↔ tokens pattern = read := by
  constructor
  · exact Reads.tokens_eq
  · rintro rfl
    exact reads_tokens pattern

end MessageBroker.Glob
