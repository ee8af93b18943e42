import MessageBroker.Text.Quoted

/-! Structured values as one line of text. -/

namespace MessageBroker.Text

def commaSeparated (parts : List String) : String :=
  ", ".intercalate parts

def wrapped (name value : String) : String :=
  name ++ "(" ++ value ++ ")"

def record (name : String) (fields : List (String × String)) : String :=
  name ++ " \x7b " ++
    commaSeparated (fields.map fun (label, value) => label ++ ": " ++ value) ++
    " \x7d"

def list (parts : List String) : String :=
  "[" ++ commaSeparated parts ++ "]"

def pair (first second : String) : String :=
  "(" ++ first ++ ", " ++ second ++ ")"

def boolean (value : Bool) : String :=
  if value then "true" else "false"

end MessageBroker.Text
