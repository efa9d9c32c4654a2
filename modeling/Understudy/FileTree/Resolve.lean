import Understudy.FileTree.Basic

/-!
# Understudy.FileTree.Resolve

From paths to locations. A path is walked segment by segment: `.` and an empty segment stay, `..`
goes up, a name goes down, and a link is walked in its place. All but the last step must lead to a
directory.
-/

namespace Understudy.FileTree

/-- The number of links that may be followed on the way of one path. -/
def maxLinks : Nat := 40

/-- The number of bytes that a name may have. -/
def maxNameBytes : Nat := 255

/-- The number of bytes that a path may have. -/
def maxPathBytes : Nat := 4095

/-- Where the text of a link starts to be walked, if the link stands in a given directory. -/
def linkStart (directory : Location) (target : Path) : Location :=
  if target.isAbsolute then [] else directory

/-- Walks segments from a location, given how to walk on from a link. A link at the very end is
only followed if asked for. -/
def walkWith (t : FileTree) (follow : Bool)
    (onLink : Location → List String → Except Fault Location) :
    Location → List String → Except Fault Location
  | here, [] => .ok here
  | here, segment :: rest =>
    match t.get? here with
    | some .directory =>
      if segment = "" ∨ segment = "." then walkWith t follow onLink here rest
      else if segment = ".." then walkWith t follow onLink here.dropLast rest
      else if maxNameBytes < segment.utf8ByteSize then .error .nameTooLong
      else
        match t.get? (here ++ [segment]) with
        | none => .error .notFound
        | some (.link target) =>
          if rest = [] ∧ follow = false then .ok (here ++ [segment])
          else onLink (linkStart here ⟨target⟩) ((Path.mk target).segments ++ rest)
        | some _ => walkWith t follow onLink (here ++ [segment]) rest
    | some _ => .error .notADirectory
    | none => .error .notFound

/-- Walks segments from a location, with a number of links that may be followed. -/
def walk (t : FileTree) (follow : Bool) : Nat → Location → List String → Except Fault Location
  | 0 => t.walkWith follow fun _ _ => .error .tooManyLinks
  | links + 1 => t.walkWith follow (t.walk follow links)

/-- Where the segments of a path start to be walked. -/
def startOf (t : FileTree) (p : Path) : Location := if p.isAbsolute then [] else t.workDir

/-- Refuses a path that holds the null character, is empty or is too long. -/
def checkText (p : Path) : Except Fault Unit :=
  if p.text.toList.contains '\x00' then .error .nullCharacter
  else if p.text = "" then .error .notFound
  else if maxPathBytes < p.text.utf8ByteSize then .error .nameTooLong
  else .ok ()

/-- The location that a path leads to. -/
def resolve (t : FileTree) (p : Path) : Except Fault Location := do
  checkText p
  t.walk true maxLinks (t.startOf p) p.segments

/-- Goes up from a directory as long as segments say so. That can be done even if the directory was
removed in the meantime. -/
def ascend : Location → List String → Location × List String
  | here, [] => (here, [])
  | here, segment :: rest =>
    if segment = "" ∨ segment = "." then ascend here rest
    else if segment = ".." then ascend here.dropLast rest
    else (here, segment :: rest)

/-- The location that a path leads to, without following a link at its end. -/
def resolveLink (t : FileTree) (p : Path) : Except Fault Location := do
  checkText p
  let (start, segments) := ascend (t.startOf p) p.segments
  t.walk false maxLinks start segments

/-- What a path leads to. -/
def find? (t : FileTree) (p : Path) : Option Entry :=
  match t.resolve p with
  | .ok l => t.get? l
  | .error _ => none

/-- Whether a path leads to a directory. -/
def isDirectory (t : FileTree) (p : Path) : Bool := t.find? p = some .directory

/-- Whether a path leads to a file. -/
def isFile (t : FileTree) (p : Path) : Bool :=
  match t.find? p with
  | some (.file _) => true
  | _ => false

/-- Whether a path leads anywhere, be it to a link that leads nowhere. -/
def hasEntry (t : FileTree) (p : Path) : Bool :=
  match t.resolveLink p with
  | .ok _ => true
  | .error _ => false

/-- The entry that a path is to have: its directory and its name there. -/
structure Place where
  directory : Location
  name : String
  /-- Whether a separator follows the name, as it may for a directory. -/
  slash : Bool

/-- The location of an entry. -/
def Place.location (p : Place) : Location := p.directory ++ [p.name]

/-- The entry that segments are to have when they are walked from a location. There is none for the
root and where the last segment is a `.` or a `..`. -/
def place? (t : FileTree) (links : Nat) (start : Location) (segments : List String) :
    Except Fault (Option Place) :=
  let kept := (segments.reverse.dropWhile (· = "")).reverse
  match kept.getLast? with
  | none => .ok none
  | some name => do
    let directory ← t.walk true links start kept.dropLast
    match t.get? directory with
    | some .directory =>
      if name = "." ∨ name = ".." then .ok none
      else if maxNameBytes < name.utf8ByteSize then .error .nameTooLong
      else .ok (some ⟨directory, name, decide (kept.length < segments.length)⟩)
    | some _ => .error .notADirectory
    | none => .error .notFound

/-- The location to which a file is written that segments lead to. It may be free; a link is
followed even if it leads to a free place. -/
def fileLocation (t : FileTree) : Nat → Location → List String → Except Fault Location
  | links, start, segments => do
    match ← t.place? links start segments with
    | none => .error .isADirectory
    | some place =>
      if place.slash then .error .isADirectory
      else
        match t.get? place.location with
        | none | some (.file _) => .ok place.location
        | some .directory => .error .isADirectory
        | some (.link target) =>
          match links with
          | 0 => .error .tooManyLinks
          | links + 1 =>
            t.fileLocation links (linkStart place.directory ⟨target⟩) (Path.mk target).segments

end Understudy.FileTree
