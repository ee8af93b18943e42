import MessageBroker.Text.Utf8

/-! Glob patterns over the bytes of a text: `*` for any run of bytes, `?` for
any byte, classes in brackets, and a backslash before a byte that stands for
itself. -/

namespace MessageBroker.Glob

/-- Bytes between the two bounds, which may come in either order. -/
structure ByteRange where
  first : UInt8
  second : UInt8
  deriving DecidableEq

def ByteRange.contains (range : ByteRange) (byte : UInt8) : Bool :=
  (range.first ≤ byte && byte ≤ range.second) ||
    (range.second ≤ byte && byte ≤ range.first)

structure ByteClass where
  negated : Bool
  ranges : List ByteRange
  deriving DecidableEq

def ByteClass.contains (byteClass : ByteClass) (byte : UInt8) : Bool :=
  (byteClass.ranges.any fun range => range.contains byte) != byteClass.negated

inductive Token where
  | anyRun
  | anyByte
  | byte (value : UInt8)
  | oneOf (byteClass : ByteClass)
  deriving DecidableEq

def Token.accepts : Token → UInt8 → Bool
  | .anyRun, _ => false
  | .anyByte, _ => true
  | .byte value, other => value == other
  | .oneOf byteClass, other => byteClass.contains other

def star : UInt8 := 42
def questionMark : UInt8 := 63
def openBracket : UInt8 := 91
def closeBracket : UInt8 := 93
def backslash : UInt8 := 92
def hyphen : UInt8 := 45
def exclamationMark : UInt8 := 33
def caret : UInt8 := 94

/-- One byte that may stand behind a backslash. -/
def readMember? : List UInt8 → Option (UInt8 × List UInt8)
  | [] => none
  | byte :: rest =>
      if byte = backslash then
        match rest with
        | [] => none
        | escaped :: rest => some (escaped, rest)
      else some (byte, rest)

/-- A byte, or two with a hyphen between them. A hyphen just before the closing
bracket is a member of its own. -/
def readRange? (bytes : List UInt8) : Option (ByteRange × List UInt8) :=
  match readMember? bytes with
  | none => none
  | some (first, rest) =>
      match rest with
      | separator :: next :: _ =>
          if separator = hyphen ∧ next ≠ closeBracket then
            (readMember? rest.tail).map fun (second, rest) =>
              (⟨first, second⟩, rest)
          else some (⟨first, first⟩, rest)
      | _ => some (⟨first, first⟩, rest)

theorem readMember?_length {bytes rest : List UInt8} {byte : UInt8}
    (h : readMember? bytes = some (byte, rest)) : rest.length < bytes.length := by
  unfold readMember? at h
  split at h
  · cases h
  · split at h
    · split at h
      · cases h
      · cases h
        simp only [List.length_cons]
        omega
    · cases h
      simp

theorem readRange?_length {bytes rest : List UInt8} {range : ByteRange}
    (h : readRange? bytes = some (range, rest)) : rest.length < bytes.length := by
  unfold readRange? at h
  split at h
  · cases h
  · rename_i first middle hfirst
    have hmiddle := readMember?_length hfirst
    split at h
    · split at h
      · obtain ⟨⟨second, last⟩, hsecond, heq⟩ := Option.map_eq_some_iff.mp h
        cases heq
        have hlast := readMember?_length hsecond
        simp at hlast hmiddle
        omega
      · cases h
        exact hmiddle
    · cases h
      exact hmiddle

/-- The members of a class up to the closing bracket, which cannot be the first
of them. -/
def readRanges? (isFirst : Bool) (bytes : List UInt8) :
    Option (List ByteRange × List UInt8) :=
  if !isFirst && bytes.head? == some closeBracket then some ([], bytes.tail)
  else
    match _hrange : readRange? bytes with
    | none => none
    | some (range, rest) =>
        (readRanges? false rest).map fun (ranges, rest) =>
          (range :: ranges, rest)
  termination_by bytes.length
  decreasing_by exact readRange?_length _hrange

/-- A class, from behind its opening bracket. -/
def readClass? (bytes : List UInt8) : Option (ByteClass × List UInt8) :=
  let negated :=
    bytes.head? == some exclamationMark || bytes.head? == some caret
  (readRanges? true (if negated then bytes.tail else bytes)).map
    fun (ranges, rest) => (⟨negated, ranges⟩, rest)

/-- The first token of a pattern. An opening bracket that is never closed and a
backslash at the end stand for themselves. -/
def readToken? : List UInt8 → Option (Token × List UInt8)
  | [] => none
  | byte :: rest =>
      if byte = star then some (.anyRun, rest)
      else if byte = questionMark then some (.anyByte, rest)
      else if byte = openBracket then
        match readClass? rest with
        | some (byteClass, rest) => some (.oneOf byteClass, rest)
        | none => some (.byte openBracket, rest)
      else if byte = backslash then
        match rest with
        | escaped :: rest => some (.byte escaped, rest)
        | [] => some (.byte backslash, [])
      else some (.byte byte, rest)

theorem readRanges?_length {isFirst : Bool} {bytes rest : List UInt8}
    {ranges : List ByteRange}
    (h : readRanges? isFirst bytes = some (ranges, rest)) :
    rest.length ≤ bytes.length := by
  fun_induction readRanges? isFirst bytes generalizing ranges rest with
  | case1 =>
      cases h
      simp
  | case2 => cases h
  | case3 bytes isFirst hopen range middle hrange ih =>
      obtain ⟨⟨others, last⟩, hothers, heq⟩ := Option.map_eq_some_iff.mp h
      cases heq
      have := ih hothers
      have := readRange?_length hrange
      omega

theorem readToken?_length {bytes rest : List UInt8} {token : Token}
    (h : readToken? bytes = some (token, rest)) : rest.length < bytes.length := by
  unfold readToken? at h
  split at h
  · cases h
  · rename_i byte tail
    split at h
    · cases h
      simp
    · split at h
      · cases h
        simp
      · split at h
        · split at h
          · rename_i byteClass last hclass
            cases h
            unfold readClass? at hclass
            obtain ⟨⟨ranges, last⟩, hranges, heq⟩ :=
              Option.map_eq_some_iff.mp hclass
            cases heq
            have hlength := readRanges?_length hranges
            simp only [List.length_cons]
            split at hlength
            · simp at hlength
              omega
            · omega
          · cases h
            simp
        · split at h
          · split at h
            · cases h
              simp only [List.length_cons]
              omega
            · cases h
              simp
          · cases h
            simp

def tokens (pattern : List UInt8) : List Token :=
  match _htoken : readToken? pattern with
  | none => []
  | some (token, rest) => token :: tokens rest
  termination_by pattern.length
  decreasing_by exact readToken?_length _htoken

/-- How an attempt to match from some point of a text ends. When the text is
exhausted before the pattern, no later point can do better. -/
inductive Attempt where
  | matched
  | mismatched
  | exhausted
  deriving DecidableEq

/-- Try every point from here on, the nearest first. -/
def tryAll (attempt : List UInt8 → Attempt) : List UInt8 → Attempt
  | [] =>
      match attempt [] with
      | .mismatched => .exhausted
      | result => result
  | byte :: rest =>
      match attempt (byte :: rest) with
      | .mismatched => tryAll attempt rest
      | result => result

/-- Match tokens against the whole rest of a text. A run of any bytes takes as
few as it can. -/
def attempt : List Token → List UInt8 → Attempt
  | [], [] => .matched
  | [], _ :: _ => .mismatched
  | .anyRun :: rest, text => tryAll (attempt rest) text
  | _ :: _, [] => .exhausted
  | token :: rest, byte :: text =>
      if token.accepts byte then attempt rest text else .mismatched

def isMatch (pattern text : String) : Bool :=
  attempt (tokens (Text.toUtf8 pattern)) (Text.toUtf8 text) == .matched

end MessageBroker.Glob
