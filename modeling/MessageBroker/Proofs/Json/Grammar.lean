import MessageBroker.Json.Value

/-! The grammar of JSON: which characters a value can be written with. -/

namespace MessageBroker.Json

def Blank (chars : List Char) : Prop :=
  ∀ c ∈ chars, c ∈ [' ', '\t', '\n', '\r']

/-- Letters after a backslash, with the characters that they stand for. -/
def escapes : List (Char × Char) := [
  ('"', '"'),
  ('\\', '\\'),
  ('/', '/'),
  ('b', '\x08'),
  ('f', '\x0c'),
  ('n', '\n'),
  ('r', '\r'),
  ('t', '\t')]

/-- Letters among the digits are written in either case. -/
def IsHexDigit (c : Char) (digit : Nat) : Prop :=
  digit < 16 ∧ (c = digit.digitChar ∨ c = digit.digitChar.toUpper)

/-- What stands between the quotation marks of a text. A code unit is anything
that four digits can give. -/
inductive PiecesText : List Piece → List Char → Prop
  | nil : PiecesText [] []
  | plain {c : Char} {pieces : List Piece} {chars : List Char}
      (hprintable : ' ' ≤ c) (hquote : c ≠ '"') (hbackslash : c ≠ '\\')
      (hrest : PiecesText pieces chars) :
      PiecesText (.char c :: pieces) (c :: chars)
  | escape {letter c : Char} {pieces : List Piece} {chars : List Char}
      (hletter : (letter, c) ∈ escapes) (hrest : PiecesText pieces chars) :
      PiecesText (.char c :: pieces) ('\\' :: letter :: chars)
  | unit {first second third fourth : Char} {a b c d : Nat}
      {pieces : List Piece} {chars : List Char}
      (hfirst : IsHexDigit first a) (hsecond : IsHexDigit second b)
      (hthird : IsHexDigit third c) (hfourth : IsHexDigit fourth d)
      (hrest : PiecesText pieces chars) :
      PiecesText (.unit (4096 * a + 256 * b + 16 * c + d) :: pieces)
        ('\\' :: 'u' :: first :: second :: third :: fourth :: chars)

/-- Pieces and the characters that they spell. A character that does not fit
into one code unit is given by two. -/
inductive Spells : List Piece → List Char → Prop
  | nil : Spells [] []
  | char {c : Char} {pieces : List Piece} {chars : List Char}
      (hrest : Spells pieces chars) : Spells (.char c :: pieces) (c :: chars)
  | unit {c : Char} {pieces : List Piece} {chars : List Char}
      (hrest : Spells pieces chars) :
      Spells (.unit c.toNat :: pieces) (c :: chars)
  | pair {c : Char} {high low : Nat} {pieces : List Piece} {chars : List Char}
      (hhigh : high < 0x400) (hlow : low < 0x400)
      (hc : c.toNat = 0x10000 + 0x400 * high + low)
      (hrest : Spells pieces chars) :
      Spells (.unit (0xd800 + high) :: .unit (0xdc00 + low) :: pieces)
        (c :: chars)

def Digits (chars : List Char) : Prop :=
  ∀ c ∈ chars, c.isDigit = true

inductive WholeText : List Char → Prop
  | zero : WholeText ['0']
  | positive {c : Char} {digits : List Char} (hdigit : c.isDigit = true)
      (hzero : c ≠ '0') (hdigits : Digits digits) : WholeText (c :: digits)

inductive FractionText : List Char → Prop
  | none : FractionText []
  | some {digits : List Char} (hnonempty : digits ≠ [])
      (hdigits : Digits digits) : FractionText ('.' :: digits)

inductive ExponentText : List Char → Prop
  | none : ExponentText []
  | some {letter : Char} {sign digits : List Char}
      (hletter : letter = 'e' ∨ letter = 'E')
      (hsign : sign ∈ [[], ['+'], ['-']])
      (hnonempty : digits ≠ []) (hdigits : Digits digits) :
      ExponentText (letter :: (sign ++ digits))

/-- A number without its sign. -/
inductive MagnitudeText : List Char → Prop
  | mk {whole fraction exponent : List Char} (hwhole : WholeText whole)
      (hfraction : FractionText fraction) (hexponent : ExponentText exponent) :
      MagnitudeText (whole ++ (fraction ++ exponent))

inductive NumberText : List Char → Prop
  | plain {literal : List Char} (hmagnitude : MagnitudeText literal) :
      NumberText literal
  | minus {literal : List Char} (hmagnitude : MagnitudeText literal) :
      NumberText ('-' :: literal)

/-- Members are names with their values. -/
inductive Phrase where
  | value (value : Value)
  /-- A value with blanks around it. -/
  | item (value : Value)
  | items (values : List Value)
  | member (member : List Piece × Value)
  | members (members : List (List Piece × Value))

inductive Written : Phrase → List Char → Prop
  | null : Written (.value .null) ['n', 'u', 'l', 'l']
  | true : Written (.value (.boolean true)) ['t', 'r', 'u', 'e']
  | false : Written (.value (.boolean false)) ['f', 'a', 'l', 's', 'e']
  | number {literal : List Char} (hliteral : NumberText literal) :
      Written (.value (.number literal)) literal
  | text {pieces : List Piece} {chars : List Char}
      (hpieces : PiecesText pieces chars) :
      Written (.value (.text pieces)) ('"' :: (chars ++ ['"']))
  | emptyArray {gap : List Char} (hgap : Blank gap) :
      Written (.value (.array [])) ('[' :: (gap ++ [']']))
  | array {values : List Value} {chars : List Char}
      (hitems : Written (.items values) chars) :
      Written (.value (.array values)) ('[' :: (chars ++ [']']))
  | emptyObject {gap : List Char} (hgap : Blank gap) :
      Written (.value (.object [])) ('\x7b' :: (gap ++ ['\x7d']))
  | object {members : List (List Piece × Value)} {chars : List Char}
      (hmembers : Written (.members members) chars) :
      Written (.value (.object members)) ('\x7b' :: (chars ++ ['\x7d']))
  | item {value : Value} {before chars after : List Char}
      (hbefore : Blank before) (hvalue : Written (.value value) chars)
      (hafter : Blank after) :
      Written (.item value) (before ++ (chars ++ after))
  | lastItem {value : Value} {chars : List Char}
      (hitem : Written (.item value) chars) : Written (.items [value]) chars
  | nextItem {value : Value} {values : List Value} {chars rest : List Char}
      (hitem : Written (.item value) chars)
      (hitems : Written (.items values) rest) :
      Written (.items (value :: values)) (chars ++ ',' :: rest)
  | member {name : List Piece} {value : Value}
      {before chars after text : List Char} (hbefore : Blank before)
      (hname : PiecesText name chars) (hafter : Blank after)
      (hvalue : Written (.item value) text) :
      Written (.member (name, value))
        (before ++ '"' :: (chars ++ '"' :: (after ++ ':' :: text)))
  | lastMember {member : List Piece × Value} {chars : List Char}
      (hmember : Written (.member member) chars) :
      Written (.members [member]) chars
  | nextMember {member : List Piece × Value}
      {members : List (List Piece × Value)} {chars rest : List Char}
      (hmember : Written (.member member) chars)
      (hmembers : Written (.members members) rest) :
      Written (.members (member :: members)) (chars ++ ',' :: rest)

end MessageBroker.Json
