import Std.Time.DateTime.Timestamp
import Understudy.CommandLine.Execution
import Understudy.Provider.Seeded

/-!
# Understudy.Main

The program. It takes a picture of the directories that its arguments name, asks
`CommandLine.execute` what is to be done, and makes the disk look like the files that come out.
-/

namespace Understudy.Disk

/-- Whether the content of a file matters: it may be a declaration file. Of other files only their
being there counts. -/
def isWanted (extension name : String) : Bool :=
  extension.contains '/' || (name.splitOn ".interface.").length > 1

/-- Adds a location, and the directories above it, to a picture. -/
def addDirectories (t : FileTree) (l : Location) : FileTree :=
  (List.range l.length).foldl (fun t n =>
    if (t.get? (l.take (n + 1))).isSome then t else t.set (l.take (n + 1)) .directory) t

/-- The location of a path without links and dots. -/
def locationOf (text : String) : Location := (text.splitOn "/").filter (· ≠ "")

/-- Adds what stands at a location, and all below it, to a picture. What a link leads to is added
with the link, once. A link that leads nowhere becomes a link to itself. -/
partial def addBelow (extension : String) (t : FileTree) (l : Location) : IO FileTree := do
  let path := (← IO.FS.realPath "/") / (Location.path l).text
  match (← path.symlinkMetadata).type with
  | .dir =>
    let mut tree := addDirectories t l
    for child in ← path.readDir do
      tree ← addBelow extension tree (l ++ [child.fileName])
    return tree
  | .symlink =>
    if (t.get? l).isSome then return t
    match ← (IO.FS.realPath path).toBaseIO with
    | .ok target =>
      let goal := locationOf target.toString
      addBelow extension (addDirectories (t.set l (.link target.toString)) goal.dropLast) goal
    | .error _ => return t.set l (.link (Location.path l).text)
  | _ =>
    let bytes ← if isWanted extension (l.getLastD "") then IO.FS.readBinFile path
      else pure ByteArray.empty
    return t.set l (.file bytes)

/-- Adds the way along a path, and all below its end, to a picture. -/
def addPath (extension : String) (t : FileTree) (p : Path) : IO FileTree := do
  let mut tree := t
  for n in List.range p.parts.length do
    let step := Path.ofParts (p.parts.take (n + 1))
    try
      let above := match Path.parent? step with
        | some above => if above.text = "" then "." else above.text
        | none => "/"
      let directory := locationOf (← IO.FS.realPath above).toString
      tree := addDirectories tree directory
      let goal := locationOf (← IO.FS.realPath step.text).toString
      match step.parts.getLast? with
      | some (.name name) =>
        if directory ++ [name] ≠ goal then
          tree := tree.set (directory ++ [name]) (.link (Location.path goal).text)
      | _ => pure ()
      if n + 1 = p.parts.length then
        tree ← addBelow extension (addDirectories tree goal.dropLast) goal
      else tree := addDirectories tree goal
    catch _ => return tree
  return tree

/-- A picture of the disk, as far as some paths need it. -/
def picture (extension : String) (paths : List Path) : IO FileTree := do
  let workDir := locationOf (← IO.FS.realPath ".").toString
  paths.foldlM (addPath extension) (addDirectories { entries := [], workDir } workDir)

/-- Whether an entry has to go before another one, or none, can take its place. -/
def mustGo : Entry → Option Entry → Bool
  | .file _, some (.file _) => false
  | old, new => some old != new

/-- Makes the disk, which looks like the first tree, look like the second one. -/
def update (before after : FileTree) : IO Unit := do
  for (l, e) in before.entries do
    if mustGo e (after.get? l) && after.get? l.dropLast == some .directory then
      match e with
      | .directory => IO.FS.removeDirAll (Location.path l).text
      | _ => IO.FS.removeFile (Location.path l).text
  for (l, e) in after.entries do
    if before.get? l ≠ some e then
      match e with
      | .directory => IO.FS.createDirAll (Location.path l).text
      | .file bytes => IO.FS.writeBinFile (Location.path l).text bytes
      | .link _ => pure ()

/-- The words for a usage error. -/
def stopMessage : CommandLine.Stop → String
  | .unknownArgument => "error: unexpected argument"
  | .invalidValue => "error: a value is missing or does not fit its option"
  | .conflict => "error: options exclude each other, or one is given twice"
  | .tooManyValues => "error: a value for an option that takes none"
  | .help | .version => ""

def help : List String := [
  "generate mock data modules from `*.interface.<ext>` declaration files",
  "",
  "Options:",
  "      --src <SRC>        directory scanned (recursively) for declaration files",
  "      --dst <DST>        output directory, created if missing and emptied before generation",
  "      --ext <EXT>        extension of declaration and generated files [default: ts]",
  "      --mode <MODE>      `linked` emits one mock per interface, `pair` emits two",
  "      --clear-recursive  also remove subdirectories when clearing the destination",
  "      --dump-registry    parse only and print the interface registry as JSON",
  "  -v, --verbose...       more logging (-v debug, -vv trace)",
  "  -q, --quiet            only warnings and errors",
  "      --no-op            show the options and do nothing",
  "  -h, --help             print help",
  "  -V, --version          print version"]

/-- The moment, in seconds from the start of 1970. -/
def now : IO Int := do return (← Std.Time.Timestamp.now).toSecondsSinceUnixEpoch.val

/-- A number that differs from run to run. -/
def seed : IO UInt64 := do
  return (← IO.getRandomBytes 8).foldl (fun n b => n * 256 + b.toUInt64) 0

/-- Does what the arguments ask for. -/
def perform (a : CommandLine.Arguments) : IO UInt32 := do
  let program ← IO.appPath
  let destination := (program.parent.getD program) / "tmp"
  let extension := a.extension
  let before ← if a.noOp then pure { entries := [] }
    else picture extension (a.source.toList ++ [a.destination.getD ⟨destination.toString⟩])
  let first ← seed
  let transcript := CommandLine.execute (fun _ => none) a ⟨destination.toString⟩ before
    (Seeded.provider (← now)) fun d => Seeded.mix (first ^^^ hash d.name)
  for event in transcript.events do IO.eprintln event.text
  for line in transcript.errors do IO.eprintln line
  update before transcript.tree
  for line in transcript.output do IO.println line
  return transcript.exitCode.toUInt32

end Understudy.Disk

open Understudy in
/-- The program. -/
def main (args : List String) : IO UInt32 := do
  match CommandLine.Arguments.parse args with
  | .error .help =>
    for line in Disk.help do IO.println line
    return 0
  | .error .version =>
    IO.println "understudy 0.1.0"
    return 0
  | .error stop =>
    IO.eprintln (Disk.stopMessage stop)
    return 2
  | .ok arguments =>
    try Disk.perform arguments
    catch e =>
      IO.eprintln ("error: " ++ toString e)
      return 1
