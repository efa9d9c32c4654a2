import Understudy.Declaration.Basic

/-!
# Understudy.Kind

The kind of value that stands for a field. The name of a field decides first, then its type if that
is built in, and last whether the type is a known interface.
-/

namespace Understudy

/-- A kind of value. -/
inductive Kind
  | number
  | string
  | boolean
  | date
  | zip
  | street
  | email
  | country
  | city
  | name
  | null
  /-- A value of another interface. -/
  | reference (interface : String)
  deriving Repr, DecidableEq

namespace Kind

/-- The kind that a field name asks for, whatever the type. -/
def ofName? : String → Option Kind
  | "dateOfBirth" | "expiration" | "createdAt" | "start" | "end" => some .date
  | "street" => some .street
  | "postalCode" | "zip" => some .zip
  | "email" | "email1" | "email2" => some .email
  | "country" => some .country
  | "city" | "town" => some .city
  | "firstName" | "lastName" | "name" => some .name
  | _ => none

/-- The kind of a built-in type. -/
def ofType? : String → Option Kind
  | "number" => some .number
  | "string" => some .string
  | "boolean" => some .boolean
  | "Date" => some .date
  | "any" | "null" | "undefined" | "unknown" => some .null
  | _ => none

/-- The interface that a kind refers to. -/
def target? : Kind → Option String
  | reference interface => some interface
  | _ => none

end Kind

/-- The kind of a field, given which interfaces are known. There is none if its name asks for
nothing and its type is neither built in nor known. -/
def Field.kind? (known : String → Bool) (field : Field) : Option Kind :=
  (Kind.ofName? field.name).or <| (Kind.ofType? field.typeName).or <|
    if known field.typeName then some (.reference field.typeName) else none

end Understudy
