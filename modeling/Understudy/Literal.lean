/-!
# Understudy.Literal

The values of a mock module and how they are written. A text stands between single quotes: a
backslash, a single quote and a line feed are escaped, and every other character stands for itself.
-/

namespace Understudy

namespace Text.Quoted

/-- The character that opens and closes a quoted text. -/
def mark : Char := '\x27'

/-- How one character is written between the quotes. -/
def escape (c : Char) : List Char :=
  if c = '\\' then ['\\', '\\']
  else if c = mark then ['\\', mark]
  else if c = '\n' then ['\\', 'n']
  else [c]

/-- The written form of a text, quotes included. -/
def encode (raw : List Char) : List Char := mark :: (raw.flatMap escape ++ [mark])

end Text.Quoted

/-- The name of a mock constant: the interface it stands in for and its number, from 1. -/
structure MockName where
  interface : String
  index : Nat
  deriving Repr, DecidableEq

/-- The spelling of the name of a mock constant. -/
def MockName.text (m : MockName) : String := "mock" ++ m.interface ++ toString m.index

/-- A value in a mock module. -/
inductive Literal
  | null
  | integer (n : Int)
  | boolean (b : Bool)
  /-- A text between quotes. -/
  | quoted (raw : String)
  /-- A mock constant itself. -/
  | constant (mock : MockName)
  /-- An object with all properties of a mock constant. -/
  | spread (mock : MockName)
  /-- An array of one element. -/
  | array (element : Literal)
  deriving Repr, DecidableEq

namespace Literal

/-- The written form of a value. -/
def text : Literal → String
  | null => "null"
  | integer n => toString n
  | boolean b => if b then "true" else "false"
  | quoted raw => String.ofList (Text.Quoted.encode raw.toList)
  | constant mock => mock.text
  | spread mock => "\x7b..." ++ mock.text ++ "\x7d"
  | array element => "[" ++ element.text ++ "]"

/-- A value in an array if one is asked for. -/
def arrayIf (isArray : Bool) (value : Literal) : Literal := if isArray then array value else value

end Literal

end Understudy
