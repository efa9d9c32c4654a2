import Understudy.Path
import Understudy.Text.Classes

/-!
# Understudy.Declaration.Basic

What is known of an interface: its name, the file that declares it and its fields in the order of
their lines. And what one line of a declaration file says.

A line that declares a property is a name, a separator of blanks, question marks and colons, a type,
brackets if the type is an array, and a semicolon that ends the line. A line that opens an interface
is `export interface` in any letter case at its very start, and then a name. Any other line says
nothing.

Where nothing separates the name from the type, the one word there is gives both: its last character
is the type.
-/

namespace Understudy

/-- A field of an interface. -/
structure Field where
  name : String
  /-- A built-in type token or the name of an interface. -/
  typeName : String
  isArray : Bool
  deriving Repr, DecidableEq

/-- A declared interface. -/
structure Declaration where
  name : String
  /-- The file of the declaration, as it was found. -/
  path : Path
  fields : List Field
  deriving Repr, DecidableEq

/-! ### Lines -/

open Text

/-- What a line says. -/
inductive Line
  /-- A field of an interface. -/
  | property (field : Field)
  /-- The start of an interface; the name is empty if none follows. -/
  | header (name : String)
  | other
  deriving Repr, DecidableEq

namespace Line

/-- The characters that stand between the name and the type of a property. -/
def isSeparator (c : Char) : Bool := isBlank c || c == '?' || c == ':'

def isBracket (c : Char) : Bool := c == '[' || c == ']'

/-- Reads the end of a property line: whether it holds brackets, provided that nothing but a
semicolon follows them. -/
def ending? (rest : List Char) : Option Bool :=
  if rest.dropWhile isBracket = [';'] then some (!(rest.takeWhile isBracket).isEmpty) else none

/-- The property of a line that starts with a given word, with nothing to separate it from what
follows. -/
def property?OfWord (word rest : List Char) : Option Field :=
  if 2 ≤ word.length then
    (ending? rest).map fun isArray =>
      ⟨String.ofList word.dropLast, String.ofList (word.drop (word.length - 1)), isArray⟩
  else none

/-- The property of a line that starts with a given word, from what follows the separator. -/
def property?OfRest (word rest : List Char) : Option Field :=
  let type := rest.takeWhile isWord
  if word.isEmpty || type.isEmpty then none
  else (ending? (rest.dropWhile isWord)).map fun isArray =>
    ⟨String.ofList word, String.ofList type, isArray⟩

/-- The property that a line declares. -/
def property? (line : List Char) : Option Field :=
  let body := line.dropWhile isBlank
  let word := body.takeWhile isWord
  let rest := body.dropWhile isWord
  if (rest.takeWhile isSeparator).isEmpty then property?OfWord word rest
  else property?OfRest word (rest.dropWhile isSeparator)

/-- What follows a keyword, which may be in any letter case. -/
def afterKeyword? : List Char → List Char → Option (List Char)
  | [], text => some text
  | k :: keyword, c :: text => if c.toLower = k then afterKeyword? keyword text else none
  | _ :: _, [] => none

/-- What follows one or more blanks. -/
def afterBlanks? : List Char → Option (List Char)
  | c :: text => if isBlank c then some (text.dropWhile isBlank) else none
  | [] => none

/-- The name that a line gives to an interface, empty if it opens one without a name. -/
def header? (line : List Char) : Option String := do
  let rest ← afterKeyword? "export".toList line
  let rest ← afterBlanks? rest
  let rest ← afterKeyword? "interface".toList rest
  let rest ← afterBlanks? rest
  some (String.ofList (rest.takeWhile isWord))

/-- Reads a line. -/
def read (line : List Char) : Line :=
  match property? line with
  | some field => .property field
  | none =>
    match header? line with
    | some name => .header name
    | none => .other

/-- The field that a line adds. -/
def field? : Line → Option Field
  | property field => some field
  | _ => none

/-- The name that a line brings. -/
def name? : Line → Option String
  | header name => if name = "" then none else some name
  | _ => none

end Line

end Understudy
