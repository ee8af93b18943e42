namespace MessageBroker.Json

/-- A piece of a text in quotation marks: a character, or a code unit that is
given by its number. -/
inductive Piece where
  | char (value : Char)
  | unit (code : Nat)
  deriving DecidableEq

inductive Token where
  | openObject
  | closeObject
  | openArray
  | closeArray
  | colon
  | comma
  | null
  | boolean (value : Bool)
  /-- A number as it is written. -/
  | number (literal : List Char)
  | text (pieces : List Piece)
  deriving DecidableEq

def isBlank (c : Char) : Bool :=
  c == ' ' || c == '\t' || c == '\n' || c == '\r'

def escape? : Char → Option Char
  | '"' => some '"'
  | '\\' => some '\\'
  | '/' => some '/'
  | 'b' => some '\x08'
  | 'f' => some '\x0c'
  | 'n' => some '\n'
  | 'r' => some '\r'
  | 't' => some '\t'
  | _ => none

def hexDigit? (c : Char) : Option Nat :=
  if '0' ≤ c ∧ c ≤ '9' then some (c.toNat - '0'.toNat)
  else if 'a' ≤ c ∧ c ≤ 'f' then some (c.toNat - 'a'.toNat + 10)
  else if 'A' ≤ c ∧ c ≤ 'F' then some (c.toNat - 'A'.toNat + 10)
  else none

def hexNumber? (digits : List Char) : Option Nat :=
  (digits.mapM hexDigit?).map fun values =>
    values.foldl (fun number digit => 16 * number + digit) 0

/-- The pieces up to the closing quotation mark. Control characters must be
escaped. -/
def readPieces? : List Char → Option (List Piece × List Char)
  | [] => none
  | '"' :: rest => some ([], rest)
  | '\\' :: 'u' :: first :: second :: third :: fourth :: rest =>
      (hexNumber? [first, second, third, fourth]).bind fun code =>
        (readPieces? rest).map fun (pieces, rest) => (.unit code :: pieces, rest)
  | '\\' :: letter :: rest =>
      (escape? letter).bind fun value =>
        (readPieces? rest).map fun (pieces, rest) => (.char value :: pieces, rest)
  | c :: rest =>
      if c < ' ' then none
      else (readPieces? rest).map fun (pieces, rest) => (.char c :: pieces, rest)

def takeDigits (chars : List Char) : List Char × List Char :=
  (chars.takeWhile Char.isDigit, chars.dropWhile Char.isDigit)

def takeFraction : List Char → List Char × List Char
  | '.' :: rest =>
      match takeDigits rest with
      | ([], _) => ([], '.' :: rest)
      | (digits, rest) => ('.' :: digits, rest)
  | chars => ([], chars)

def takeSign : List Char → List Char × List Char
  | '+' :: rest => (['+'], rest)
  | '-' :: rest => (['-'], rest)
  | chars => ([], chars)

def takeExponent : List Char → List Char × List Char
  | [] => ([], [])
  | c :: rest =>
      if c = 'e' ∨ c = 'E' then
        let (sign, after) := takeSign rest
        match takeDigits after with
        | ([], _) => ([], c :: rest)
        | (digits, rest) => (c :: (sign ++ digits), rest)
      else ([], c :: rest)

/-- A number without its sign: a whole part, which begins with zero only if
it is zero, then a fraction, then a power of ten. -/
def readMagnitude? : List Char → Option (List Char × List Char)
  | [] => none
  | c :: rest =>
      if c.isDigit then
        let (digits, rest) := if c = '0' then ([], rest) else takeDigits rest
        let (fraction, rest) := takeFraction rest
        let (exponent, rest) := takeExponent rest
        some (c :: (digits ++ fraction ++ exponent), rest)
      else none

def readNumber? : List Char → Option (List Char × List Char)
  | '-' :: rest =>
      (readMagnitude? rest).map fun (literal, rest) => ('-' :: literal, rest)
  | chars => readMagnitude? chars

def readToken? : List Char → Option (Token × List Char)
  | '\x7b' :: rest => some (.openObject, rest)
  | '\x7d' :: rest => some (.closeObject, rest)
  | '[' :: rest => some (.openArray, rest)
  | ']' :: rest => some (.closeArray, rest)
  | ':' :: rest => some (.colon, rest)
  | ',' :: rest => some (.comma, rest)
  | '"' :: rest =>
      (readPieces? rest).map fun (pieces, rest) => (.text pieces, rest)
  | 'n' :: 'u' :: 'l' :: 'l' :: rest => some (.null, rest)
  | 't' :: 'r' :: 'u' :: 'e' :: rest => some (.boolean true, rest)
  | 'f' :: 'a' :: 'l' :: 's' :: 'e' :: rest => some (.boolean false, rest)
  | chars =>
      (readNumber? chars).map fun (literal, rest) => (.number literal, rest)

theorem readPieces?_length {chars rest : List Char} {pieces : List Piece}
    (h : readPieces? chars = some (pieces, rest)) :
    rest.length < chars.length := by
  fun_induction readPieces? chars generalizing pieces rest with
  | case1 => cases h
  | case2 =>
      cases h
      simp
  | case3 first second third fourth tail ih =>
      obtain ⟨code, _, h⟩ := Option.bind_eq_some_iff.mp h
      obtain ⟨⟨inner, last⟩, hinner, heq⟩ := Option.map_eq_some_iff.mp h
      cases heq
      have := ih hinner
      simp only [List.length_cons]
      omega
  | case4 letter tail _ ih =>
      obtain ⟨value, _, h⟩ := Option.bind_eq_some_iff.mp h
      obtain ⟨⟨inner, last⟩, hinner, heq⟩ := Option.map_eq_some_iff.mp h
      cases heq
      have := ih hinner
      simp only [List.length_cons]
      omega
  | case5 => cases h
  | case6 c tail _ _ _ _ ih =>
      obtain ⟨⟨inner, last⟩, hinner, heq⟩ := Option.map_eq_some_iff.mp h
      cases heq
      have := ih hinner
      simp only [List.length_cons]
      omega

theorem takeDigits_length (chars : List Char) :
    (takeDigits chars).2.length ≤ chars.length :=
  (List.dropWhile_sublist Char.isDigit).length_le

theorem takeFraction_length (chars : List Char) :
    (takeFraction chars).2.length ≤ chars.length := by
  unfold takeFraction
  split
  · rename_i rest
    have hlength := takeDigits_length rest
    split
    · simp
    · rename_i h
      rw [h] at hlength
      exact Nat.le_succ_of_le hlength
  · simp

theorem takeSign_length (chars : List Char) :
    (takeSign chars).2.length ≤ chars.length := by
  unfold takeSign
  split <;> simp

theorem takeExponent_length (chars : List Char) :
    (takeExponent chars).2.length ≤ chars.length := by
  unfold takeExponent
  split
  · simp
  · rename_i c rest
    split
    · have hsign := takeSign_length rest
      have hdigits := takeDigits_length (takeSign rest).2
      simp only
      split
      · simp
      · rename_i h
        rw [h] at hdigits
        exact Nat.le_succ_of_le (Nat.le_trans hdigits hsign)
    · simp

theorem readMagnitude?_length {chars rest literal : List Char}
    (h : readMagnitude? chars = some (literal, rest)) :
    rest.length < chars.length := by
  unfold readMagnitude? at h
  split at h
  · cases h
  · rename_i c tail
    split at h
    · simp only [Option.some.injEq, Prod.mk.injEq] at h
      obtain ⟨-, rfl⟩ := h
      have hwhole : (if c = '0' then ([], tail) else takeDigits tail).2.length ≤
          tail.length := by
        split
        · simp
        · exact takeDigits_length tail
      refine Nat.lt_succ_of_le (Nat.le_trans (takeExponent_length _) ?_)
      exact Nat.le_trans (takeFraction_length _) hwhole
    · cases h

theorem readNumber?_length {chars rest literal : List Char}
    (h : readNumber? chars = some (literal, rest)) :
    rest.length < chars.length := by
  unfold readNumber? at h
  split at h
  · obtain ⟨⟨inner, last⟩, hinner, heq⟩ := Option.map_eq_some_iff.mp h
    cases heq
    have := readMagnitude?_length hinner
    simp only [List.length_cons]
    omega
  · exact readMagnitude?_length h

theorem readToken?_length {chars rest : List Char} {token : Token}
    (h : readToken? chars = some (token, rest)) :
    rest.length < chars.length := by
  unfold readToken? at h
  split at h
  case h_7 =>
    obtain ⟨⟨inner, last⟩, hinner, heq⟩ := Option.map_eq_some_iff.mp h
    cases heq
    have := readPieces?_length hinner
    simp only [List.length_cons]
    omega
  case h_11 =>
    obtain ⟨⟨inner, last⟩, hinner, heq⟩ := Option.map_eq_some_iff.mp h
    cases heq
    exact readNumber?_length hinner
  all_goals
    cases h
    simp only [List.length_cons]
    omega

def tokens? (chars : List Char) : Option (List Token) :=
  match chars with
  | [] => some []
  | c :: rest =>
      if isBlank c then tokens? rest
      else
        match _htoken : readToken? (c :: rest) with
        | none => none
        | some (token, rest) => (tokens? rest).map fun tokens => token :: tokens
  termination_by chars.length
  decreasing_by
    · simp
    · exact readToken?_length _htoken

end MessageBroker.Json
