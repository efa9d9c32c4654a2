import Understudy.FileTree.Basic
import Understudy.Glob.Pattern

/-!
# Understudy.Failure

Why a run, or a part of it, fails.
-/

namespace Understudy

/-- Why a run, or a part of it, fails. -/
inductive Failure
  /-- No source directory was given. -/
  | missingSource
  /-- The source is no directory. -/
  | sourceNotFound (path : Path)
  /-- The destination cannot be made or listed. -/
  | destinationSetup (path : Path) (cause : Fault)
  /-- The extension makes no pattern for declaration files. -/
  | discovery (cause : Glob.Fault)
  | read (path : Path) (cause : Fault)
  | write (path : Path) (cause : Fault)
  deriving Repr, DecidableEq

namespace Failure

/-- The description of what lies behind a failure. -/
def cause? : Failure → Option String
  | missingSource | sourceNotFound _ => none
  | discovery cause => some cause.message
  | destinationSetup _ cause | read _ cause | write _ cause => some cause.message

/-- The description of a failure. -/
def message : Failure → String
  | missingSource => "No source path set. Example: \"--src=/path/to/source/files\""
  | sourceNotFound path => "Source path does not exist: " ++ path.text
  | destinationSetup path cause =>
    "failed to prepare destination " ++ path.text ++ ": " ++ cause.message
  | discovery cause => "invalid discovery pattern: " ++ cause.message
  | read path cause => "failed to read " ++ path.text ++ ": " ++ cause.message
  | write path cause => "failed to write " ++ path.text ++ ": " ++ cause.message

/-- The description of a failure, and of what lies behind it once more. -/
def report (f : Failure) : String :=
  match f.cause? with
  | some cause => f.message ++ ": " ++ cause
  | none => f.message

end Failure

end Understudy
