import Understudy.Registry

/-!
# Understudy.Dump

A registry as a JSON object: one member for each interface, in the order of the registry.

Before it, the values of the JSON format, as far as they are needed, and their written form: one
element or member a line, two spaces deeper than what holds it. In a text, the quote, the backslash
and the control characters below the space are escaped.
-/

namespace Understudy

/-- A value of the JSON format. -/
inductive Json
  | bool (b : Bool)
  | string (s : String)
  | array (elements : List Json)
  /-- Members in order. -/
  | object (members : List (String × Json))

namespace Json

/-- A hexadecimal digit. -/
def hexDigit (n : Nat) : Char := Char.ofNat (if n < 10 then 48 + n else 87 + n)

/-- How one character is written in a text. -/
def escape (c : Char) : List Char :=
  if c = '"' then ['\\', '"']
  else if c = '\\' then ['\\', '\\']
  else if c = '\n' then ['\\', 'n']
  else if c = '\r' then ['\\', 'r']
  else if c = '\t' then ['\\', 't']
  else if c = '\x08' then ['\\', 'b']
  else if c = '\x0c' then ['\\', 'f']
  else if c.toNat < 32 then
    ['\\', 'u', '0', '0', hexDigit (c.toNat / 16), hexDigit (c.toNat % 16)]
  else [c]

/-- The written form of a text. -/
def stringText (s : String) : String :=
  String.ofList ('"' :: (s.toList.flatMap escape ++ ['"']))

/-- The start of a line at a given depth. -/
def newline (depth : Nat) : String := String.ofList ('\n' :: List.replicate (2 * depth) ' ')

mutual

/-- The written form of a value that stands at a given depth. -/
def textAt (depth : Nat) : Json → String
  | bool b => if b then "true" else "false"
  | string s => stringText s
  | array [] => "[]"
  | array (e :: es) =>
    "[" ++ newline (depth + 1) ++ e.textAt (depth + 1) ++ elementsText (depth + 1) es
      ++ newline depth ++ "]"
  | object [] => "\x7b\x7d"
  | object ((key, value) :: members) =>
    "\x7b" ++ newline (depth + 1) ++ stringText key ++ ": " ++ value.textAt (depth + 1)
      ++ membersText (depth + 1) members ++ newline depth ++ "\x7d"

/-- The elements after the first one. -/
def elementsText (depth : Nat) : List Json → String
  | [] => ""
  | e :: es => "," ++ newline depth ++ e.textAt depth ++ elementsText depth es

/-- The members after the first one. -/
def membersText (depth : Nat) : List (String × Json) → String
  | [] => ""
  | (key, value) :: members =>
    "," ++ newline depth ++ stringText key ++ ": " ++ value.textAt depth
      ++ membersText depth members

end

/-- The written form of a value. -/
def text (j : Json) : String := j.textAt 0

end Json

/-! ### Registries -/

def Field.json (f : Field) : Json :=
  .object [("name", .string f.name), ("declared_type", .string f.typeName),
    ("is_array", .bool f.isArray)]

def Declaration.json (d : Declaration) : Json :=
  .object [("name", .string d.name), ("source_path", .string d.path.text),
    ("fields", .array (d.fields.map Field.json))]

def Registry.json (r : Registry) : Json :=
  .object (r.declarations.map fun d => (d.name, d.json))

/-- The written form of a registry. -/
def Registry.dump (r : Registry) : String := r.json.text

end Understudy
