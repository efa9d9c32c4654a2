import Understudy.Text.Order

/-!
# Understudy.Path

Paths as texts, and the parts they are made of. Repeated and trailing separators and inner `.` parts
do not count, a leading `.` and every `..` do. Paths are ordered part by part, not as texts.
-/

namespace Understudy

/-- A path, as it was spelled. -/
structure Path where
  text : String
  deriving Repr, DecidableEq, Inhabited

namespace Path

/-- A part of a path. -/
inductive Part
  /-- The root directory. -/
  | root
  /-- A `.` at the start of a relative path. -/
  | current
  /-- A `..`. -/
  | parent
  /-- The name of an entry. -/
  | name (n : String)
  deriving Repr, DecidableEq

/-- The spelling of a part. -/
def Part.text : Part → String
  | root => "/"
  | current => "."
  | parent => ".."
  | name n => n

/-- The texts between the separators. -/
def segments (p : Path) : List String := (p.text.toList.splitOn '/').map String.ofList

/-- Whether a path starts at the root. -/
def isAbsolute (p : Path) : Bool := p.text.toList.head? == some '/'

/-- The part that a segment stands for, if it counts. -/
def part? (segment : String) : Option Part :=
  if segment = "" ∨ segment = "." then none
  else if segment = ".." then some .parent
  else some (.name segment)

/-- The parts of a path. -/
def parts (p : Path) : List Part :=
  if p.isAbsolute then .root :: p.segments.filterMap part?
  else if p.segments.head? = some "." then .current :: p.segments.filterMap part?
  else p.segments.filterMap part?

/-- The path with the given parts. -/
def ofParts : List Part → Path
  | .root :: rest => ⟨"/" ++ "/".intercalate (rest.map Part.text)⟩
  | parts => ⟨"/".intercalate (parts.map Part.text)⟩

/-- The path without its last part; there is none for the root and the empty path. -/
def parent? (p : Path) : Option Path :=
  match p.parts.getLast? with
  | none | some .root => none
  | some _ => some (ofParts p.parts.dropLast)

/-- A path followed by another one, which replaces it if it starts at the root. -/
def join (p : Path) (next : String) : Path :=
  if (Path.mk next).isAbsolute then ⟨next⟩
  else if p.text = "" ∨ p.text.toList.getLast? = some '/' then ⟨p.text ++ next⟩
  else ⟨p.text ++ "/" ++ next⟩

/-- The place of a part in the order of parts: names come last, by their code points. -/
def Part.key : Part → List Nat
  | root => [0]
  | current => [1]
  | parent => [2]
  | name n => 3 :: n.toList.map Char.toNat

/-- The place of a path in the order of paths. -/
def key (p : Path) : List (List Nat) := p.parts.map Part.key

/-- Whether a path comes before another one or is on a par with it. -/
def le (p q : Path) : Bool := Text.lexLe (Text.lexLe Nat.ble) p.key q.key

theorem keyLe_total (as bs : List Nat) :
    (Text.lexLe Nat.ble as bs || Text.lexLe Nat.ble bs as) = true := by
  refine Text.lexLe_total (fun a b => ?_) as bs
  simpa using Nat.le_total a b

theorem keyLe_trans (as bs cs : List Nat) (h₁ : Text.lexLe Nat.ble as bs = true)
    (h₂ : Text.lexLe Nat.ble bs cs = true) : Text.lexLe Nat.ble as cs = true := by
  refine Text.lexLe_trans (fun a b c hab hbc => ?_) h₁ h₂
  rw [Nat.ble_eq] at *
  exact Nat.le_trans hab hbc

theorem le_total (p q : Path) : (p.le q || q.le p) = true :=
  Text.lexLe_total keyLe_total p.key q.key

theorem le_trans {p q r : Path} (h₁ : p.le q = true) (h₂ : q.le r = true) : p.le r = true :=
  Text.lexLe_trans keyLe_trans h₁ h₂

end Path

end Understudy
