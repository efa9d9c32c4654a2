import Understudy.CommandLine.Arguments
import Understudy.Dump
import Understudy.Text.Shown

/-!
# Understudy.CommandLine.Execution

What the program does with its arguments, as a function: the texts it writes, the events it shows,
its exit code, and the files after it.
-/

namespace Understudy.CommandLine

/-- What the program leaves behind. -/
structure Transcript where
  exitCode : Nat
  /-- The lines on standard output. -/
  output : List String := []
  /-- The lines on standard error, events apart. -/
  errors : List String := []
  /-- The events that are shown. -/
  events : List Event := []
  tree : FileTree

/-- A path option as it is shown. -/
def shownPath : Option Path → List String
  | none => ["None"]
  | some p => ["Some(", "        " ++ Text.Shown.path p.text ++ ",", "    )"]

/-- A line for an option, or several if its value takes them. -/
def shownOption (name : String) : List String → List String
  | [] => []
  | [value] => ["    " ++ name ++ ": " ++ value ++ ","]
  | first :: rest => ("    " ++ name ++ ": " ++ first) :: rest.dropLast
      ++ [rest.getLastD "" ++ ","]

def shownBool (b : Bool) : List String := [if b then "true" else "false"]

/-- The options as they are shown on request. -/
def Arguments.shown (a : Arguments) : List String :=
  ["CommandLineInterface \x7b"]
    ++ shownOption "src" (shownPath a.source)
    ++ shownOption "dst" (shownPath a.destination)
    ++ shownOption "ext" [Text.Shown.plain a.extension]
    ++ shownOption "mode" [match a.mode with | .linked => "Linked" | .pair => "Pair"]
    ++ shownOption "clear_recursive" (shownBool a.clearRecursive)
    ++ shownOption "dump_registry" (shownBool a.dumpRegistry)
    ++ shownOption "verbose" [toString a.verbosity]
    ++ shownOption "quiet" (shownBool a.quiet)
    ++ shownOption "no_op" (shownBool a.noOp)
    ++ ["\x7d"]

/-- The lines about a finished run. -/
def summaryLines (s : Summary) : List String :=
  [toString s.cleared.removed ++ " files removed from destination."]
    ++ (if 0 < s.cleared.failed then
      [toString s.cleared.failed ++ " stale entries could not be removed."] else [])
    ++ ["Found " ++ toString s.interfaces ++ " interfaces."]
    ++ (if s.failed.isEmpty then []
      else [toString s.failed.length ++ " mock modules could not be written."])
    ++ ["done"]

/-- The end of a program that fails. -/
def failed (failure : Failure) (events : List Event) (t : FileTree) : Transcript where
  exitCode := 1
  errors := ["error: " ++ failure.report]
  events
  tree := t

/-- The registry of the source, written out. -/
def dump (s : Settings) (t : FileTree) : Transcript :=
  match Discovery.registry t s.source s.layout.extension with
  | .error failure => failed failure [] t
  | .ok (registry, events) => { exitCode := 0, output := [registry.dump], events, tree := t }

variable {σ : Type}

/-- A run with its summary. -/
def generate (refusals : Refusals) (s : Settings) (t : FileTree) (p : Provider σ)
    (start : Declaration → σ) : Transcript :=
  let run := Generation.run refusals t s p start
  match run.result with
  | .error failure => failed failure run.events run.tree
  | .ok summary =>
    { exitCode := 0, output := summaryLines summary, events := run.events, tree := run.tree }

/-- What is to be done with options that could be read, all events included. -/
def perform (refusals : Refusals) (a : Arguments) (defaultDestination : Path) (t : FileTree)
    (p : Provider σ) (start : Declaration → σ) : Transcript :=
  if a.noOp then { exitCode := 0, errors := a.shown, tree := t }
  else
    match a.settings t defaultDestination with
    | .error failure => failed failure [] t
    | .ok settings =>
      if a.dumpRegistry then dump settings t else generate refusals settings t p start

/-- What the program does with options that could be read: only events of a severity that is asked
for are shown. -/
def execute (refusals : Refusals) (a : Arguments) (defaultDestination : Path) (t : FileTree)
    (p : Provider σ) (start : Declaration → σ) : Transcript :=
  let transcript := perform refusals a defaultDestination t p start
  { transcript with
    events := transcript.events.filter fun e => e.severity.rank ≤ a.threshold.rank }

end Understudy.CommandLine
