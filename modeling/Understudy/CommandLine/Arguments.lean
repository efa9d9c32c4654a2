import Understudy.Generation

/-!
# Understudy.CommandLine.Arguments

The options of the command line and how arguments are read. The value of an option may follow it
after an equals sign or as the next argument. A value given as the next argument is only looked at
when something else is read that may stand, so what cannot stand at all is noticed before a bad
value.
-/

namespace Understudy.CommandLine

/-- An option that takes a value. -/
inductive ValueOption
  | source
  | destination
  | extension
  | mode
  deriving Repr, DecidableEq

/-- An option without a value. -/
inductive Flag
  | clearRecursive
  | dumpRegistry
  | verbose
  | quiet
  | noOp
  | help
  | version
  deriving Repr, DecidableEq

/-- Why reading arguments ends early. -/
inductive Stop
  | unknownArgument
  /-- A value that is missing or does not fit. -/
  | invalidValue
  /-- Two options that exclude each other, or one option twice. -/
  | conflict
  /-- A value for an option that takes none. -/
  | tooManyValues
  | help
  | version
  deriving Repr, DecidableEq

/-- What the arguments ask for. -/
structure Arguments where
  source : Option Path := none
  destination : Option Path := none
  extension : String := "ts"
  mode : Mode := .linked
  clearRecursive : Bool := false
  dumpRegistry : Bool := false
  /-- How often more events were asked for. -/
  verbosity : Nat := 0
  quiet : Bool := false
  /-- Whether the options are only to be shown. -/
  noOp : Bool := false
  deriving Repr, DecidableEq

/-- The largest count of verbosity; it stays there. -/
def maxVerbosity : Nat := 255

/-- An option by its long name. -/
inductive Name
  | value (option : ValueOption)
  | flag (flag : Flag)

def Name.ofLong? : String → Option Name
  | "src" => some (.value .source)
  | "dst" => some (.value .destination)
  | "ext" => some (.value .extension)
  | "mode" => some (.value .mode)
  | "clear-recursive" => some (.flag .clearRecursive)
  | "dump-registry" => some (.flag .dumpRegistry)
  | "verbose" => some (.flag .verbose)
  | "quiet" => some (.flag .quiet)
  | "no-op" => some (.flag .noOp)
  | "help" => some (.flag .help)
  | "version" => some (.flag .version)
  | _ => none

/-- A flag by its letter. -/
def Flag.ofLetter? : Char → Option Flag
  | 'v' => some .verbose
  | 'q' => some .quiet
  | 'h' => some .help
  | 'V' => some .version
  | _ => none

/-- Arguments that are being read. -/
structure Reading where
  arguments : Arguments := {}
  /-- The options whose values are settled. -/
  settled : List ValueOption := []
  /-- The last option that takes its value from the next argument, with that value. -/
  pending : Option (ValueOption × Option String) := none
  /-- Whether a `--` was read, after which no argument is an option. -/
  ended : Bool := false
  deriving Repr, DecidableEq

/-- Stores a value if it fits. A path must not be empty, and a mode must be one of the two. -/
def Arguments.store (a : Arguments) (option : ValueOption) (value : String) :
    Except Stop Arguments :=
  match option with
  | .source => if value = "" then .error .invalidValue else .ok { a with source := some ⟨value⟩ }
  | .destination =>
    if value = "" then .error .invalidValue else .ok { a with destination := some ⟨value⟩ }
  | .extension => .ok { a with extension := value }
  | .mode =>
    match value with
    | "linked" => .ok { a with mode := .linked }
    | "pair" => .ok { a with mode := .pair }
    | _ => .error .invalidValue

/-- Turns a flag on. Only verbosity may be asked for more than once. -/
def Arguments.turnOn (a : Arguments) : Flag → Except Stop Arguments
  | .clearRecursive =>
    if a.clearRecursive then .error .conflict else .ok { a with clearRecursive := true }
  | .dumpRegistry => if a.dumpRegistry then .error .conflict else .ok { a with dumpRegistry := true }
  | .verbose => .ok { a with verbosity := min (a.verbosity + 1) maxVerbosity }
  | .quiet => if a.quiet then .error .conflict else .ok { a with quiet := true }
  | .noOp => if a.noOp then .error .conflict else .ok { a with noOp := true }
  | .help => .error .help
  | .version => .error .version

namespace Reading

/-- Settles the value of an option. -/
def assign (r : Reading) (option : ValueOption) (value : String) : Except Stop Reading :=
  if option ∈ r.settled then .error .conflict
  else do
    let arguments ← r.arguments.store option value
    return { r with arguments, settled := option :: r.settled }

/-- Settles the pending option, which must have its value by now. -/
def settle (r : Reading) : Except Stop Reading :=
  match r.pending with
  | none => .ok r
  | some (_, none) => .error .invalidValue
  | some (option, some value) => { r with pending := none }.assign option value

/-- Reads a flag. -/
def flag (r : Reading) (f : Flag) : Except Stop Reading := do
  let r ← r.settle
  return { r with arguments := ← r.arguments.turnOn f }

/-- Reads letters, each of which must be a flag. -/
def letters (r : Reading) : List Char → Except Stop Reading
  | [] => .ok r
  | c :: rest =>
    match Flag.ofLetter? c with
    | none => .error .unknownArgument
    | some f => do (← r.flag f).letters rest

/-- Reads an option by its long name, with the value after its equals sign if there is one. -/
def long (r : Reading) (name : String) (value : Option String) : Except Stop Reading :=
  match Name.ofLong? name, value with
  | none, _ => .error .unknownArgument
  | some (.flag _), some _ => .error .tooManyValues
  | some (.flag f), none => r.flag f
  | some (.value option), some value => do (← r.settle).assign option value
  | some (.value option), none => do return { ← r.settle with pending := some (option, none) }

/-- Reads an argument that is no option. -/
def plain (r : Reading) (argument : String) : Except Stop Reading :=
  match r.pending, r.ended with
  | some (option, none), false => .ok { r with pending := some (option, some argument) }
  | _, _ => .error .unknownArgument

/-- Splits the text of a long option at its first equals sign. -/
def splitValue (text : List Char) : String × Option String :=
  match text.dropWhile (· ≠ '=') with
  | [] => (String.ofList text, none)
  | _ :: value => (String.ofList (text.takeWhile (· ≠ '=')), some (String.ofList value))

/-- Reads one argument. -/
def argument (r : Reading) (text : String) : Except Stop Reading :=
  if r.ended then r.plain text
  else
    match text.toList with
    | ['-', '-'] => .ok { r with ended := true }
    | '-' :: '-' :: rest => r.long (splitValue rest).1 (splitValue rest).2
    | '-' :: c :: rest => r.letters (c :: rest)
    | _ => r.plain text

/-- Ends the reading. Asking for fewer events excludes asking for more. -/
def finish (r : Reading) : Except Stop Arguments := do
  let r ← r.settle
  if r.arguments.quiet ∧ 0 < r.arguments.verbosity then .error .conflict else .ok r.arguments

end Reading

/-- Reads arguments. -/
def Arguments.parse (arguments : List String) : Except Stop Arguments := do
  (← arguments.foldlM Reading.argument {}).finish

namespace Arguments

/-- The settings that arguments ask for. The source must be a directory; dots in front of the
extension do not count. -/
def settings (a : Arguments) (t : FileTree) (defaultDestination : Path) :
    Except Failure Settings :=
  match a.source with
  | none => .error .missingSource
  | some source =>
    match Generation.ensureSource t source with
    | .error failure => .error failure
    | .ok () => .ok {
        source
        destination := a.destination.getD defaultDestination
        layout := {
          mode := a.mode
          extension := String.ofList (a.extension.toList.dropWhile (· = '.')) }
        clearRecursive := a.clearRecursive }

/-- The least severity of the events that are shown. -/
def threshold (a : Arguments) : Severity :=
  if a.quiet then .warn
  else
    match a.verbosity with
    | 0 => .info
    | 1 => .debug
    | _ => .trace

end Arguments

end Understudy.CommandLine
