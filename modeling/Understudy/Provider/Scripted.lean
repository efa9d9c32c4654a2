import Understudy.Provider.Basic

/-!
# Understudy.Provider.Scripted

A provider that answers from prepared lists, one for each sort of value. A list is used in order and
again from its start once it is used up; an empty list stands for a fixed answer.
-/

namespace Understudy

/-- Prepared answers. -/
structure Script where
  words : List String := []
  integers : List Int := []
  dates : List Date := []
  emails : List String := []
  streetNames : List String := []
  countries : List String := []
  cities : List String := []
  firstNames : List String := []
  booleans : List Bool := []
  deriving Repr

namespace Script

/-- How many answers of each list have been given. -/
structure Position where
  words : Nat := 0
  integers : Nat := 0
  dates : Nat := 0
  emails : Nat := 0
  streetNames : Nat := 0
  countries : Nat := 0
  cities : Nat := 0
  firstNames : Nat := 0
  booleans : Nat := 0
  deriving Repr, DecidableEq

/-- The answer at a position of a list that starts again when it is used up. -/
def cyclic {α : Type} (answers : List α) (default : α) (n : Nat) : α :=
  (answers[n % answers.length]?).getD default

/-- The provider of a script. -/
def provider (s : Script) : Provider Position where
  answer
    | .word, n => (cyclic s.words "lorem" n.words, { n with words := n.words + 1 })
    | .integer low _, n =>
      (cyclic s.integers (low + 1) n.integers, { n with integers := n.integers + 1 })
    | .date, n => (cyclic s.dates ⟨2024, 3, 7⟩ n.dates, { n with dates := n.dates + 1 })
    | .email, n => (cyclic s.emails "jane@example.org" n.emails, { n with emails := n.emails + 1 })
    | .streetName, n =>
      (cyclic s.streetNames "Main Street" n.streetNames,
        { n with streetNames := n.streetNames + 1 })
    | .country, n =>
      (cyclic s.countries "Côte d\x27Ivoire" n.countries, { n with countries := n.countries + 1 })
    | .city, n => (cyclic s.cities "Springfield" n.cities, { n with cities := n.cities + 1 })
    | .firstName, n =>
      (cyclic s.firstNames "Jane" n.firstNames, { n with firstNames := n.firstNames + 1 })
    | .boolean, n => (cyclic s.booleans true n.booleans, { n with booleans := n.booleans + 1 })

end Script

end Understudy
