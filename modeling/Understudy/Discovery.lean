import Understudy.Declaration.Scan
import Understudy.FileTree.Operations
import Understudy.Glob.Walk
import Understudy.Registry

/-!
# Understudy.Discovery

Finding and reading declaration files. They are taken in the order of their paths, whatever order a
directory lists them in, so that of two declarations of one name it is settled which one is later.
-/

namespace Understudy.Discovery

/-- The pattern of the declaration files below a directory. The extension may hold wildcards. -/
def pattern (source : Path) (extension : String) : List Char :=
  Glob.escape source.text.toList ++ "/**/*.interface.".toList ++ extension.toList

/-- The files among some paths, in the order of paths. -/
def ordered (t : FileTree) (paths : List Path) : List Path :=
  (paths.filter t.isFile).mergeSort Path.le

/-- The declaration files below a directory. -/
def files (t : FileTree) (source : Path) (extension : String)
    (refusals : Refusals := fun _ => none) : Except Failure (List Path) :=
  match Glob.Query.parse (pattern source extension) with
  | .ok query => .ok (ordered t (query.paths t refusals))
  | .error fault => .error (.discovery fault)

/-- The event of what is found, if it cannot be read. -/
def event? : Glob.Find → Option Event
  | .path _ => none
  | .unreadable directory cause => some (.skipped directory cause)

/-- The events of looking for the declaration files below a directory. -/
def skipped (t : FileTree) (source : Path) (extension : String)
    (refusals : Refusals := fun _ => none) : List Event :=
  match Glob.Query.parse (pattern source extension) with
  | .ok query => (query.finds t refusals).filterMap event?
  | .error _ => []

/-- The text of a declaration file. -/
def read (t : FileTree) (p : Path) : Except Failure String :=
  match t.readText p with
  | .ok text => .ok text
  | .error fault => .error (.read p fault)

/-- The declaration of a file, and the event of reading it. -/
def declaration (t : FileTree) (p : Path) : Option Declaration × Event :=
  match read t p with
  | .ok text =>
    let declaration := Declaration.parse? p text
    (declaration, .ofParse p declaration)
  | .error failure => (none, .unreadable failure)

/-- The declarations of some files. -/
def declarations (t : FileTree) (files : List Path) : List Declaration :=
  files.filterMap fun p => (declaration t p).1

/-- The registry of some files. -/
def registryOf (t : FileTree) (files : List Path) : Registry :=
  Registry.ofList (declarations t files)

/-- The events of making a registry of some files. -/
def events (t : FileTree) (files : List Path) : List Event :=
  .discovered files.length :: files.map (fun p => (declaration t p).2)
    ++ Registry.empty.registerAllEvents (declarations t files)

/-- The registry of the declaration files below a directory, with the events of making it. -/
def registry (t : FileTree) (source : Path) (extension : String)
    (refusals : Refusals := fun _ => none) : Except Failure (Registry × List Event) :=
  match files t source extension refusals with
  | .ok files =>
    .ok (registryOf t files, skipped t source extension refusals ++ events t files)
  | .error failure => .error failure

end Understudy.Discovery
