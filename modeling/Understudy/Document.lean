import Understudy.Literal

/-!
# Understudy.Document

The content of a mock module as data, and its layout: import lines first, then each constant after
an empty line, with one line for each property.
-/

namespace Understudy

/-- The import of one name. -/
structure Import where
  name : String
  /-- The module that the name comes from. -/
  specifier : String
  deriving Repr, DecidableEq

/-- A property of a mock constant. -/
structure Property where
  name : String
  value : Literal
  deriving Repr, DecidableEq

/-- A mock constant. -/
structure Constant where
  name : MockName
  properties : List Property
  deriving Repr, DecidableEq

/-- The content of a mock module. -/
structure Document where
  imports : List Import
  constants : List Constant
  deriving Repr, DecidableEq

/-- The line of an import. The specifier stands between quotes as it is. -/
def Import.text (i : Import) : String :=
  "import \x7b " ++ i.name ++ " \x7d from '" ++ i.specifier ++ "';\n"

/-- A property, without what separates it from the next one. -/
def Property.text (p : Property) : String := "    " ++ p.name ++ ": " ++ p.value.text

/-- The object that a constant is. -/
def Constant.body (c : Constant) : String :=
  if c.properties.isEmpty then "\x7b\x7d"
  else "\x7b\n" ++ ",\n".intercalate (c.properties.map Property.text) ++ "\n\x7d"

/-- The definition of a constant. -/
def Constant.text (c : Constant) : String :=
  "export const " ++ c.name.text ++ ": " ++ c.name.interface ++ " = " ++ c.body ++ ";\n"

namespace Document

/-- The import lines. -/
def importText (d : Document) : String := String.join (d.imports.map Import.text)

/-- The written form of a module. -/
def text (d : Document) : String :=
  d.importText ++ String.join (d.constants.map fun c => "\n" ++ c.text)

end Document

end Understudy
