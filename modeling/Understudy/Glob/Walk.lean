import Understudy.FileTree.Operations
import Understudy.Glob.Pattern

/-!
# Understudy.Glob.Walk

The paths of a file tree that a wildcard pattern stands for. The pattern is taken apart at its
separators. A component without wildcards leads on by itself; any other is held against the names
that a directory lists, and `**` leads into all directories below, through links too. A directory that
cannot be read is found as such.
-/

namespace Understudy.Glob

/-- A pattern for paths, taken apart. -/
structure Query where
  isAbsolute : Bool
  components : List Pattern
  /-- Whether the pattern ends in a separator, so that it stands for directories alone. -/
  onlyDirectories : Bool
  deriving Repr, DecidableEq

/-- The texts between separators; an empty one at the end does not count. -/
def componentTexts (text : List Char) : List (List Char) :=
  let parts := text.splitOn '/'
  if parts.getLast? = some [] then parts.dropLast else parts

/-- Reads a pattern for paths. It must be a pattern as a whole and in each component. -/
def Query.parse (text : List Char) : Except Fault Query := do
  let _ ← Glob.parse text
  let isAbsolute := text.head? == some '/'
  let components ← (componentTexts (if isAbsolute then text.tail else text)).mapM Glob.parse
  return ⟨isAbsolute, components, text.getLast? == some '/'⟩

/-- Whether a path is the directory where the walk of a relative pattern starts. It is left out of
the paths found. -/
def isStart (p : Path) : Bool := p.parts = [.current]

/-- The path of an entry below a directory. -/
def below (directory : Path) (name : String) : Path :=
  if isStart directory then ⟨name⟩ else directory.join name

/-- A path that a walk has come to, and whether it is that of a directory. -/
structure Spot where
  path : Path
  isDirectory : Bool
  deriving Repr, DecidableEq

/-- What a walk finds. -/
inductive Find
  /-- A path that the pattern stands for. -/
  | path (p : Path)
  /-- A directory that cannot be read. -/
  | unreadable (directory : Path) (cause : Understudy.Fault)
  deriving Repr, DecidableEq

def Find.path? : Find → Option Path
  | path p => some p
  | unreadable _ _ => none

/-- A path that is looked up. -/
def Spot.ofPath (t : FileTree) (p : Path) : Spot := ⟨p, t.isDirectory p⟩

/-- An entry by the path under which its directory lists it. Only a link is looked up. -/
def Spot.ofEntry (t : FileTree) (l : Location) (p : Path) : Spot where
  path := p
  isDirectory :=
    match t.get? l with
    | some .directory => true
    | some (.link _) => t.isDirectory p
    | some (.file _) | none => false

/-- The entries that a directory lists, in the order of their names. -/
def children (refusals : Refusals) (t : FileTree) (directory : Path) :
    Except Understudy.Fault (List (String × Spot)) := do
  let l ← t.openDirectory refusals directory
  let names ← (t.listing refusals l).mapM id
  return (names.mergeSort Text.textLe).map fun name =>
    (name, Spot.ofEntry t (l ++ [name]) (below directory name))

section Step

variable (refusals : Refusals) (t : FileTree) (onlyDirectories : Bool)
  (next : List Pattern → Spot → List Find)

/-- Goes on from a path that fits all components so far. -/
def arrive (rest : List Pattern) (spot : Spot) : List Find :=
  if rest.isEmpty then if onlyDirectories && !spot.isDirectory then [] else [.path spot.path]
  else next rest spot

/-- Holds a component against the name of an entry. -/
def compare (pattern : Pattern) (rest : List Pattern) (name : String) (spot : Spot) : List Find :=
  if pattern.covers name.toList then arrive onlyDirectories next rest spot else []

/-- Visits an entry of a directory. Several `**` in a row are as good as the last of them. -/
def visit (pattern : Pattern) (rest : List Pattern) (name : String) (spot : Spot) : List Find :=
  if pattern.isRecursive then
    let rest := rest.dropWhile Pattern.isRecursive
    let deeper := if spot.isDirectory then next (pattern :: rest) spot else []
    match rest with
    | [] => if spot.isDirectory then .path spot.path :: deeper else []
    | pattern :: rest => compare onlyDirectories next pattern rest name spot ++ deeper
  else compare onlyDirectories next pattern rest name spot

/-- One step of the walk, given how to go on. A component that starts with a dot may also stand for
`.` or `..`. -/
def step : List Pattern → Spot → List Find
  | [], _ => []
  | pattern :: rest, here =>
    match pattern.literal? with
    | some text =>
      let name := String.ofList text
      let p := below here.path name
      let isThere := if name = "." ∨ name = ".." then here.isDirectory else t.hasEntry p
      if isThere then arrive onlyDirectories next rest (.ofPath t p) else []
    | none =>
      if here.isDirectory then
        match children refusals t here.path with
        | .error cause => [.unreadable here.path cause]
        | .ok entries =>
          let dots := if pattern.head? = some (.char '.') then ["..", "."] else []
          let special := (dots.filter fun name => pattern.covers name.toList).flatMap fun name =>
            arrive onlyDirectories next rest (.ofPath t (here.path.join name))
          special ++ entries.flatMap fun (name, spot) =>
            visit onlyDirectories next pattern rest name spot
      else []

end Step

/-- The walk, for a number of steps on one way. -/
def walk (refusals : Refusals) (t : FileTree) (onlyDirectories : Bool) :
    Nat → List Pattern → Spot → List Find
  | 0 => fun _ _ => []
  | steps + 1 => step refusals t onlyDirectories (walk refusals t onlyDirectories steps)

/-- A number of steps that no way of a walk exceeds: each goes on to the next component or one
directory down, and between two links no directory is met twice. -/
def Query.steps (q : Query) (t : FileTree) : Nat :=
  q.components.length + (t.entries.length + 1) * (FileTree.maxLinks + 1) + 1

/-- What is found in a file tree by a pattern. -/
def Query.finds (q : Query) (t : FileTree) (refusals : Refusals := fun _ => none) : List Find :=
  walk refusals t q.onlyDirectories (q.steps t) q.components
    (.ofPath t ⟨if q.isAbsolute then "/" else "."⟩)

/-- The paths of a file tree that a pattern stands for. -/
def Query.paths (q : Query) (t : FileTree) (refusals : Refusals := fun _ => none) : List Path :=
  (q.finds t refusals).filterMap Find.path?

end Understudy.Glob
