import Understudy.Event
import Understudy.FileTree.Operations
import Understudy.MockModule

/-!
# Understudy.Destination

The directory that modules are written to: clearing it, and writing to it. An entry that cannot be
looked up or removed stays, and a module that cannot be written is left out; neither stops the others.
-/

namespace Understudy

/-- How many entries were removed, and how many could not be. -/
structure ClearReport where
  removed : Nat := 0
  failed : Nat := 0
  deriving Repr, DecidableEq

/-- A clearing under way. -/
structure Clearing where
  tree : FileTree
  report : ClearReport := {}
  events : List Event := []

namespace Clearing

/-- Counts an entry that stays. -/
def keep (c : Clearing) (p : Path) (cause : Fault) : Clearing where
  tree := c.tree
  report := { c.report with failed := c.report.failed + 1 }
  events := c.events ++ [.kept p cause]

/-- Counts an entry that was removed, by the tree without it. -/
def remove (c : Clearing) (t : FileTree) : Clearing where
  tree := t
  report := { c.report with removed := c.report.removed + 1 }
  events := c.events

/-- The tree without the entry at a path. A directory is passed over unless asked for, and then there
is no other tree; a link is removed itself, wherever it leads. -/
def removal (refusals : Refusals) (recursive : Bool) (t : FileTree) (p : Path) :
    Except Fault (Option FileTree) := do
  match ← t.entryAt p with
  | .directory => if recursive then some <$> t.removeDirectory refusals p else return none
  | _ => some <$> t.removeFile refusals p

/-- Clears one entry of a directory. It is looked up by its path in what is left of the tree, and it
stays if that or its removal fails. -/
def clearName (refusals : Refusals) (recursive : Bool) (p : Path) (c : Clearing) (name : String) :
    Clearing :=
  match removal refusals recursive c.tree (p.join name) with
  | .ok (some t) => c.remove t
  | .ok none => c
  | .error fault => c.keep (p.join name) fault

/-- Clears entries of a directory in a given order. -/
def clearNames (refusals : Refusals) (recursive : Bool) (p : Path) (c : Clearing)
    (names : List String) : Clearing :=
  names.foldl (clearName refusals recursive p) c

/-- The fault in place of an entry that is not listed. -/
def fault? : Except Fault String → Option Fault
  | .error fault => some fault
  | .ok _ => none

/-- Clears what a directory lists. What is not listed counts as an entry that stays. -/
def clear (refusals : Refusals) (recursive : Bool) (p : Path) (t : FileTree)
    (listing : List (Except Fault String)) : Clearing :=
  let unlisted := listing.filterMap fault?
  clearNames refusals recursive p
    { tree := t, report := { failed := unlisted.length }, events := unlisted.map (.unlisted p) }
    (listing.filterMap Except.toOption)

end Clearing

namespace Destination

/-- Makes a directory if it is missing, and clears it. -/
def prepare (refusals : Refusals) (t : FileTree) (p : Path) (recursive : Bool) :
    Except Failure ClearReport × FileTree × List Event :=
  match t.makeDirectories p with
  | (.error fault, t) => (.error (.destinationSetup p fault), t, [])
  | (.ok (), t) =>
    match t.openDirectory refusals p with
    | .error fault => (.error (.destinationSetup p fault), t, [])
    | .ok l =>
      let c := Clearing.clear refusals recursive p t (t.listing refusals l)
      (.ok c.report, c.tree, c.events)

/-- What became of a module. -/
structure Outcome where
  interface : String
  path : Path
  /-- Why it was not written. -/
  failure? : Option Failure
  deriving Repr, DecidableEq

/-- Whether a module was written. -/
def Outcome.isWritten (o : Outcome) : Bool := o.failure?.isNone

/-- The event of an outcome. -/
def Outcome.event (o : Outcome) : Event :=
  match o.failure? with
  | none => .wrote o.interface o.path
  | some failure => .unwritten o.interface failure

/-- Writes a module. -/
def writeModule (directory : Path) (t : FileTree) (m : MockModule) : Outcome × FileTree :=
  let p := directory.join m.fileName
  match t.writeText p m.content with
  | .ok t => (⟨m.interface, p, none⟩, t)
  | .error fault => (⟨m.interface, p, some (.write p fault)⟩, t)

/-- Writes modules in order. -/
def writeModules (directory : Path) (t : FileTree) : List MockModule → List Outcome × FileTree
  | [] => ([], t)
  | m :: rest =>
    let (outcome, t) := writeModule directory t m
    let (outcomes, t) := writeModules directory t rest
    (outcome :: outcomes, t)

end Destination

end Understudy
