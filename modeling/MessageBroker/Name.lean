namespace MessageBroker.Name

def maxLength : Nat := 64

def isSeparator (c : Char) : Bool :=
  c == '_' || c == '-' || c == '.'

def isLeading (c : Char) : Bool :=
  c.isAlpha || c == '_' || c == '.'

def isInner (c : Char) : Bool :=
  c.isAlphanum || isSeparator c

/-- No two separators stand next to each other. -/
def isSpaced : List Char → Bool
  | first :: second :: rest =>
      !(isSeparator first && isSeparator second) && isSpaced (second :: rest)
  | _ => true

/-- A name has 1 to 64 bytes, starts with an ASCII letter, `_` or `.`, goes on
with ASCII letters, digits, `_`, `-` or `.`, and never has two separators in a
row. -/
def isValid (name : String) : Bool :=
  match name.toList with
  | [] => false
  | first :: rest =>
      decide (name.utf8ByteSize ≤ maxLength) && isLeading first &&
        rest.all isInner && isSpaced (first :: rest)

end MessageBroker.Name
