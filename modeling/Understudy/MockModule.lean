import Understudy.Document
import Understudy.Drafting
import Understudy.Registry
import Understudy.Specifier

/-!
# Understudy.MockModule

The mock module of a declaration. It imports the type it stands in for and the first constant of
every interface its fields refer to, and defines one constant or two. A constant cannot spread
itself, so in the first one null stands for a field that refers to the declaration's own interface.
-/

namespace Understudy

/-- How many constants a module defines. -/
inductive Mode
  /-- One constant. -/
  | linked
  /-- Two constants. -/
  | pair
  deriving Repr, DecidableEq

def Mode.constantCount : Mode → Nat
  | linked => 1
  | pair => 2

/-- How modules are laid out. -/
structure Layout where
  mode : Mode := .linked
  /-- The extension of declaration files and modules, without its dot. -/
  extension : String := "ts"
  /-- The directory that modules are written to. Where it is known, the type is imported relative
  to it, otherwise from its path as found. -/
  directory : Option Path := none
  deriving Repr, DecidableEq

/-- A module ready to be written. -/
structure MockModule where
  interface : String
  fileName : String
  content : String
  deriving Repr, DecidableEq

/-- The file name of the module of an interface. -/
def MockModule.fileNameOf (interface extension : String) : String :=
  interface ++ ".stubs." ++ extension

/-- The interface that a field refers to, given which interfaces are known. -/
def Field.target? (known : String → Bool) (field : Field) : Option String :=
  (field.kind? known).bind Kind.target?

namespace Declaration

/-- The interfaces that the fields refer to, each once, in the order of the fields. -/
def references (d : Declaration) (known : String → Bool) : List String :=
  (d.fields.filterMap (Field.target? known)).eraseDups

/-- The module that declares the interface, as a mock module names it. -/
def specifier (d : Declaration) (layout : Layout) : String :=
  Specifier.dropExtension layout.extension <|
    match layout.directory with
    | some directory => Specifier.relative d.path directory
    | none => Specifier.ofPath d.path

/-- The import of the interface itself. -/
def ownImport (d : Declaration) (layout : Layout) : Import := ⟨d.name, d.specifier layout⟩

/-- The import of the first constant of another interface. -/
def mockImport (interface : String) : Import :=
  ⟨MockName.text ⟨interface, 1⟩, "./" ++ interface ++ ".stubs"⟩

/-- The imports of the module of a declaration. -/
def imports (d : Declaration) (known : String → Bool) (layout : Layout) : List Import :=
  d.ownImport layout :: ((d.references known).filter (· ≠ d.name)).map mockImport

/-- Whether a field refers to the declaration's own interface. -/
def isSelfReference (d : Declaration) (known : String → Bool) (field : Field) : Bool :=
  field.target? known = some d.name

variable {σ : Type}

/-- The property of a field in the constant of a given number. -/
def property (d : Declaration) (known : String → Bool) (p : Provider σ) (index : Nat)
    (field : Field) : Drafting σ Property := do
  if index = 1 ∧ d.isSelfReference known field then
    Drafting.report (.selfReference d.name field)
    return ⟨field.name, Literal.null.arrayIf field.isArray⟩
  else
    return ⟨field.name, ← field.literal p known⟩

/-- The constant of a given number. -/
def constant (d : Declaration) (known : String → Bool) (p : Provider σ) (index : Nat) :
    Drafting σ Constant := do
  return ⟨⟨d.name, index⟩, ← d.fields.mapM (d.property known p index)⟩

/-- The content of the module of a declaration. -/
def document (d : Declaration) (known : String → Bool) (layout : Layout) (p : Provider σ) :
    Drafting σ Document := do
  let constants ← (List.range' 1 layout.mode.constantCount).mapM (d.constant known p)
  return ⟨d.imports known layout, constants⟩

/-- The module of a declaration, among the declarations of a registry. -/
def mockModule (d : Declaration) (registry : Registry) (layout : Layout) (p : Provider σ) :
    Drafting σ MockModule := do
  let document ← d.document registry.contains layout p
  return ⟨d.name, MockModule.fileNameOf d.name layout.extension, document.text⟩

end Declaration

variable {σ : Type}

/-- The modules of all declarations of a registry, in its order, each with the events of drafting
it. Every draft starts with a state of its own. -/
def Registry.drafts (registry : Registry) (layout : Layout) (p : Provider σ)
    (start : Declaration → σ) : List (MockModule × List Event) :=
  registry.declarations.map fun d =>
    let (mockModule, session) := (d.mockModule registry layout p).run { state := start d }
    (mockModule, session.events)

end Understudy
