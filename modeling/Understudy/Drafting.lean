import Understudy.Event
import Understudy.Kind
import Understudy.Literal
import Understudy.Provider.Basic

/-!
# Understudy.Drafting

Drafting: finding the values that stand for fields, with a provider at hand. A session keeps the
state of the provider, the draws made from it and the events on the way.
-/

namespace Understudy

/-- What a draft has led to so far. -/
structure Session (σ : Type) where
  /-- The state of the provider. -/
  state : σ
  /-- The draws made, in order. -/
  draws : List Draw := []
  /-- The events, in order. -/
  events : List Event := []

/-- A piece of drafting. -/
abbrev Drafting (σ : Type) := StateM (Session σ)

namespace Drafting

variable {σ : Type}

/-- Draws a value. -/
def draw (p : Provider σ) (d : Draw) : Drafting σ d.Answer := fun s =>
  let (answer, state) := p.answer d s.state
  (answer, { s with state, draws := s.draws ++ [d] })

/-- Reports an event. -/
def report (e : Event) : Drafting σ Unit := fun s => ((), { s with events := s.events ++ [e] })

end Drafting

open Drafting

variable {σ : Type}

/-- The bounds of a plain number. -/
def numberDraw : Draw := .integer 0 99999

/-- The bounds of a postal code. -/
def zipDraw : Draw := .integer 10000 99999

/-- The bounds of a house number. -/
def houseNumberDraw : Draw := .integer 1 200

/-- A value of a kind. A reference is the first constant of its interface; a street is a street
name and then a house number. -/
def Kind.literal (p : Provider σ) : Kind → Drafting σ Literal
  | number => do return .integer (← draw p numberDraw)
  | string => do return .quoted (← draw p .word)
  | zip => do
    let n : Int ← draw p zipDraw
    return .quoted (toString n)
  | street => do
    let name : String ← draw p .streetName
    let n : Int ← draw p houseNumberDraw
    return .quoted (name ++ " " ++ toString n)
  | email => do return .quoted (← draw p .email)
  | country => do return .quoted (← draw p .country)
  | city => do return .quoted (← draw p .city)
  | name => do return .quoted (← draw p .firstName)
  | boolean => do return .boolean (← draw p .boolean)
  | date => do
    let d : Date ← draw p .date
    return .quoted d.text
  | null => return .null
  | reference interface => return .constant ⟨interface, 1⟩

/-- A constant becomes its spread; other values stay. -/
def Literal.spreadConstant : Literal → Literal
  | constant mock => spread mock
  | value => value

/-- The value that stands for a field, given which interfaces are known. A field without a kind is
reported, and null stands for it. -/
def Field.literal (p : Provider σ) (known : String → Bool) (field : Field) :
    Drafting σ Literal := do
  let kind ← match field.kind? known with
    | some kind => pure kind
    | none => do
      report (.unresolved field)
      pure .null
  let value ← kind.literal p
  return value.spreadConstant.arrayIf field.isArray

end Understudy
