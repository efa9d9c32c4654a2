import Understudy.FileTree.Resolve

/-!
# Understudy.FileTree.Operations

Reading and changing a file tree by paths. The system may refuse to list a directory, to go on with
the listing at one of its entries, or to let an entry go.
-/

namespace Understudy.FileTree

/-- The bytes of the file that a path leads to. -/
def readBytes (t : FileTree) (p : Path) : Except Fault ByteArray := do
  match t.get? (← t.resolve p) with
  | some (.file bytes) => .ok bytes
  | some .directory => .error .isADirectory
  | some (.link _) | none => .error .notFound

/-- The text of the file that a path leads to. -/
def readText (t : FileTree) (p : Path) : Except Fault String := do
  match String.fromUTF8? (← t.readBytes p) with
  | some text => .ok text
  | none => .error .notText

/-- Writes a file, in place of its content if it is there. -/
def writeBytes (t : FileTree) (p : Path) (bytes : ByteArray) : Except Fault FileTree := do
  checkText p
  return t.set (← t.fileLocation maxLinks (t.startOf p) p.segments) (.file bytes)

/-- Writes a file with a text. -/
def writeText (t : FileTree) (p : Path) (text : String) : Except Fault FileTree :=
  t.writeBytes p text.toUTF8

/-- The free place that a path leads to. -/
def freePlace (t : FileTree) (p : Path) : Except Fault Place := do
  checkText p
  match ← t.place? maxLinks (t.startOf p) p.segments with
  | none => .error .alreadyExists
  | some place =>
    match t.get? place.location with
    | some _ => .error .alreadyExists
    | none => .ok place

/-- Makes a directory. -/
def makeDirectory (t : FileTree) (p : Path) : Except Fault FileTree := do
  return t.set (← t.freePlace p).location .directory

/-- Makes a symbolic link that holds a text. -/
def makeLink (t : FileTree) (p : Path) (target : String) : Except Fault FileTree := do
  checkText ⟨target⟩
  let place ← t.freePlace p
  if place.slash then .error .notFound
  else return t.set place.location (.link target)

/-- The paths of the directories above a path, the nearest first, without the root. -/
def above (p : Path) : List Path :=
  let parts := p.parts
  ((List.range' 1 (parts.length - 1)).reverse.map parts.take).filterMap fun parts =>
    if parts = [.root] then none else some (.ofParts parts)

/-- Makes the first of some directories. Where its own directory is missing, the others are made
before it. A directory that is there already will do. What has been made stays if a later step
fails. -/
def makeFirst (t : FileTree) : List Path → Except Fault Unit × FileTree
  | [] => (.ok (), t)
  | p :: above =>
    match t.makeDirectory p with
    | .ok made => (.ok (), made)
    | .error .notFound =>
      match t.makeFirst above with
      | (.error fault, t) => (.error fault, t)
      | (.ok (), t) =>
        match t.makeDirectory p with
        | .ok made => (.ok (), made)
        | .error fault => (if t.isDirectory p then .ok () else .error fault, t)
    | .error fault => (if t.isDirectory p then .ok () else .error fault, t)

/-- Makes a directory and all directories above it that are missing. -/
def makeDirectories (t : FileTree) (p : Path) : Except Fault Unit × FileTree :=
  if p.parts = [] ∨ p.parts = [.root] then (.ok (), t) else t.makeFirst (p :: above p)

/-- What is asked of the system that it may refuse. -/
inductive Request
  /-- To remove an entry, a directory with all that is below it. -/
  | remove (l : Location)
  /-- To list a directory. -/
  | list (l : Location)
  /-- To list an entry of a directory. -/
  | entry (l : Location)
  deriving Repr, DecidableEq

end FileTree

/-- The requests that the system refuses, and why. -/
abbrev Refusals := FileTree.Request → Option Fault

namespace FileTree

/-- The directory that a path leads to, opened to be listed. -/
def openDirectory (refusals : Refusals) (t : FileTree) (p : Path) : Except Fault Location := do
  let l ← t.resolve p
  match t.get? l with
  | some .directory =>
    match refusals (.list l) with
    | some fault => .error fault
    | none => .ok l
  | some _ => .error .notADirectory
  | none => .error .notFound

/-- Lists names of a directory in order. A fault ends the listing. -/
def listNames (refusals : Refusals) (directory : Location) : List String → List (Except Fault String)
  | [] => []
  | name :: rest =>
    match refusals (.entry (directory ++ [name])) with
    | some fault => [.error fault]
    | none => .ok name :: listNames refusals directory rest

/-- What a directory lists: names, and where the listing breaks off the fault. -/
def listing (refusals : Refusals) (t : FileTree) (directory : Location) :
    List (Except Fault String) :=
  listNames refusals directory (t.names directory)

/-- What a path leads to, a link itself. -/
def entryAt (t : FileTree) (p : Path) : Except Fault Entry := do
  match t.get? (← t.resolveLink p) with
  | some e => .ok e
  | none => .error .notFound

/-- The location of what a path leads to, a link itself, if the system lets it go. -/
def released (refusals : Refusals) (t : FileTree) (p : Path) : Except Fault Location := do
  let l ← t.resolveLink p
  match refusals (.remove l) with
  | some fault => .error fault
  | none => .ok l

/-- Removes a file or a link. -/
def removeFile (refusals : Refusals) (t : FileTree) (p : Path) : Except Fault FileTree := do
  return t.erase (← t.released refusals p)

/-- Removes a directory. What is below it goes first, and then the path is walked once more. If it
does not lead there any longer, the empty directory stays, and that is no fault. -/
def removeDirectory (refusals : Refusals) (t : FileTree) (p : Path) : Except Fault FileTree := do
  let emptied := t.empty (← t.released refusals p)
  match emptied.resolveLink p with
  | .ok l => .ok (emptied.erase l)
  | .error _ => .ok emptied

/-- The path that leads to the same place through no link, no `.` and no `..`. -/
def canonical (t : FileTree) (p : Path) : Except Fault Path := do
  return (← t.resolve p).path

end Understudy.FileTree
