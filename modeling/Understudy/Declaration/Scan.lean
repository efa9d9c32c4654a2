import Understudy.Declaration.Basic

/-!
# Understudy.Declaration.Scan

The lines of a text, and what the lines of a declaration file say together: the first name they bring
and all their fields. A file declares an interface if some line names one; its fields are then all
fields of the file, wherever they stand.

A line feed ends a line and takes one carriage return before it along; a last line without a line
feed counts if it is not empty, and keeps its carriage return.
-/

namespace Understudy

namespace Text

/-- Puts a character in front of the first of some lines, which it opens if there is none. -/
def consFirst (c : Char) : List (List Char) → List (List Char)
  | [] => [[c]]
  | line :: rest => (c :: line) :: rest

/-- The lines of a text, without their ends. -/
def lines : List Char → List (List Char)
  | [] => []
  | '\n' :: rest => [] :: lines rest
  | '\r' :: '\n' :: rest => [] :: lines rest
  | c :: rest => consFirst c (lines rest)

@[simp] theorem lines_feed (rest : List Char) : lines ('\n' :: rest) = [] :: lines rest := rfl

@[simp] theorem lines_return_feed (rest : List Char) :
    lines ('\r' :: '\n' :: rest) = [] :: lines rest := rfl

/-- A character that ends no line belongs to the first line of what follows. -/
theorem lines_cons {c : Char} (rest : List Char) (h₁ : c ≠ '\n')
    (h₂ : c ≠ '\r' ∨ rest.head? ≠ some '\n') : lines (c :: rest) = consFirst c (lines rest) := by
  rw [lines.eq_def]
  split
  · contradiction
  · simp_all
  · simp_all
  · simp_all

end Text

/-- What some lines say together. -/
structure Scan where
  name : Option String
  fields : List Field
  deriving Repr, DecidableEq

namespace Scan

/-- Reads lines in order. The first name that a line brings is kept. -/
def ofLines (lines : List (List Char)) : Scan where
  name := lines.findSome? fun line => (Line.read line).name?
  fields := lines.filterMap fun line => (Line.read line).field?

/-- Reads a text. -/
def ofText (text : List Char) : Scan := ofLines (Text.lines text)

/-- One scan continued by another. -/
def append (s t : Scan) : Scan := ⟨s.name.or t.name, s.fields ++ t.fields⟩

theorem ofLines_append (xs ys : List (List Char)) :
    ofLines (xs ++ ys) = (ofLines xs).append (ofLines ys) := by
  simp [ofLines, append, List.findSome?_append]

/-- The declaration that a file with this content makes. -/
def declaration? (s : Scan) (path : Path) : Option Declaration :=
  s.name.map fun name => ⟨name, path, s.fields⟩

end Scan

/-- The declaration that a file makes, if a line of it names an interface. -/
def Declaration.parse? (path : Path) (text : String) : Option Declaration :=
  (Scan.ofText text.toList).declaration? path

end Understudy
