import Understudy.Declaration.Basic
import Understudy.Failure

/-!
# Understudy.Event

What a run reports on the way, as data; the words are chosen only when an event is written.
-/

namespace Understudy

/-- How much an event matters. -/
inductive Severity
  | error
  | warn
  | info
  | debug
  | trace
  deriving Repr, DecidableEq

namespace Severity

/-- The number of severities that matter more. -/
def rank : Severity → Nat
  | error => 0
  | warn => 1
  | info => 2
  | debug => 3
  | trace => 4

def text : Severity → String
  | error => "ERROR"
  | warn => "WARN"
  | info => "INFO"
  | debug => "DEBUG"
  | trace => "TRACE"

end Severity

/-- Something worth reporting. -/
inductive Event
  /-- A file declares an interface. -/
  | parsed (declaration : Declaration)
  /-- A file names no interface. -/
  | headerless (path : Path)
  /-- A declaration gives way to a later one of the same name. -/
  | replaced (previous : Declaration)
  /-- The type of a field is neither built in nor known. -/
  | unresolved (field : Field)
  /-- A field of the first constant refers to that constant. -/
  | selfReference (interface : String) (field : Field)
  /-- A directory that cannot be read while declaration files are looked for. -/
  | skipped (directory : Path) (cause : Fault)
  /-- The number of declaration files found. -/
  | discovered (files : Nat)
  /-- A declaration file that cannot be read. -/
  | unreadable (failure : Failure)
  /-- An entry of the destination that cannot be listed. -/
  | unlisted (destination : Path) (cause : Fault)
  /-- An entry of the destination that cannot be removed. -/
  | kept (path : Path) (cause : Fault)
  | cleared (removed failed : Nat) (destination : Path)
  | wrote (interface : String) (path : Path)
  | unwritten (interface : String) (failure : Failure)
  | finished (interfaces written failed : Nat)
  deriving Repr, DecidableEq

namespace Event

/-- How much an event matters. -/
def severity : Event → Severity
  | parsed _ | headerless _ | replaced _ | wrote _ _ => .debug
  | unresolved _ | selfReference _ _ | skipped _ _ | unreadable _ | unlisted _ _ | kept _ _ => .warn
  | discovered _ | cleared _ _ _ | finished _ _ _ => .info
  | unwritten _ _ => .error

/-- The description of an event, without its details. -/
def message : Event → String
  | parsed _ => "parsed declaration"
  | headerless _ => "no interface header, skipped"
  | replaced _ => "interface declared more than once, last declaration wins"
  | unresolved _ => "property type not found, emitting null"
  | selfReference _ _ => "self-referencing field in the primary mock, emitting null"
  | skipped _ _ => "skipping unreadable entry during discovery"
  | discovered _ => "discovered declaration files"
  | unreadable _ => "skipping declaration"
  | unlisted _ _ => "cannot list destination entry"
  | kept _ _ => "could not remove stale output, skipping"
  | cleared _ _ _ => "destination cleared"
  | wrote _ _ => "wrote mock module"
  | unwritten interface _ => "Error writing " ++ interface ++ "!"
  | finished _ _ _ => "generation finished"

/-- The details of an event, each with its label. -/
def details : Event → List (String × String)
  | parsed d => [("interface", d.name), ("fields", toString d.fields.length), ("path", d.path.text)]
  | headerless path => [("path", path.text)]
  | replaced d => [("interface", d.name), ("replaced", d.path.text)]
  | unresolved field => [("field", field.name), ("declared_type", field.typeName)]
  | selfReference interface field => [("interface", interface), ("field", field.name)]
  | skipped directory cause =>
    [("error", "attempting to read \x60" ++ directory.text ++ "\x60 resulted in an error: "
      ++ cause.message)]
  | discovered files => [("files", toString files)]
  | unreadable failure => [("error", failure.message)]
  | unlisted destination cause => [("error", cause.message), ("dst", destination.text)]
  | kept path cause => [("error", cause.message), ("path", path.text)]
  | cleared removed failed destination =>
    [("removed", toString removed), ("failed", toString failed), ("dst", destination.text)]
  | wrote interface path => [("interface", interface), ("path", path.text)]
  | unwritten interface failure => [("interface", interface), ("error", failure.message)]
  | finished interfaces written failed =>
    [("interfaces", toString interfaces), ("written", toString written),
      ("failed", toString failed)]

/-- An event as a line: its severity, its description and its details. -/
def text (e : Event) : String :=
  e.severity.text ++ " " ++ e.message
    ++ String.join (e.details.map fun (label, value) => " " ++ label ++ "=" ++ value)

end Event

/-- The event of reading a file that makes a declaration, or none. -/
def Event.ofParse (path : Path) : Option Declaration → Event
  | some declaration => .parsed declaration
  | none => .headerless path

end Understudy
