import Understudy.Destination
import Understudy.Discovery

/-!
# Understudy.Generation

A whole run: the destination is cleared, the declarations below the source are read, and the module
of each is written. Drafting starts when all declarations are known.
-/

namespace Understudy

/-- What a run is to do. -/
structure Settings where
  source : Path
  destination : Path
  layout : Layout := {}
  /-- Whether directories in the destination are removed as well. -/
  clearRecursive : Bool := false
  deriving Repr, DecidableEq

/-- What a run has done. -/
structure Summary where
  cleared : ClearReport
  interfaces : Nat
  outcomes : List Destination.Outcome
  deriving Repr, DecidableEq

namespace Summary

/-- The number of modules written. -/
def written (s : Summary) : Nat := (s.outcomes.filter Destination.Outcome.isWritten).length

/-- What became of the modules that could not be written. -/
def failed (s : Summary) : List Destination.Outcome := s.outcomes.filter (!·.isWritten)

/-- The event of a finished run. -/
def event (s : Summary) : Event := .finished s.interfaces s.written s.failed.length

end Summary

/-- How a run ends: its result, the files after it, and its events. -/
structure Run where
  result : Except Failure Summary
  tree : FileTree
  events : List Event

namespace Generation

/-- Refuses a source that is no directory. -/
def ensureSource (t : FileTree) (source : Path) : Except Failure Unit :=
  if t.isDirectory source then .ok () else .error (.sourceNotFound source)

/-- The source and the destination, by the paths that lead there without a detour. -/
def canonicalPaths (t : FileTree) (s : Settings) : Except Failure (Path × Path) :=
  match t.canonical s.source, t.canonical s.destination with
  | .error _, _ => .error (.sourceNotFound s.source)
  | _, .error fault => .error (.destinationSetup s.destination fault)
  | .ok source, .ok destination => .ok (source, destination)

variable {σ : Type}

/-- The part of a run after clearing: reads the declarations and writes their modules. -/
def generate (t : FileTree) (s : Settings) (cleared : ClearReport) (p : Provider σ)
    (start : Declaration → σ) (refusals : Refusals := fun _ => none) : Run :=
  match canonicalPaths t s with
  | .error failure => ⟨.error failure, t, []⟩
  | .ok (source, destination) =>
    match Discovery.registry t source s.layout.extension refusals with
    | .error failure => ⟨.error failure, t, []⟩
    | .ok (registry, events) =>
      let drafts := registry.drafts { s.layout with directory := some destination } p start
      let (outcomes, t) := Destination.writeModules destination t (drafts.map Prod.fst)
      let summary : Summary := ⟨cleared, registry.size, outcomes⟩
      ⟨.ok summary, t, events ++ drafts.flatMap Prod.snd
        ++ outcomes.map Destination.Outcome.event ++ [summary.event]⟩

/-- A whole run. -/
def run (refusals : Refusals) (t : FileTree) (s : Settings) (p : Provider σ)
    (start : Declaration → σ) : Run :=
  match ensureSource t s.source with
  | .error failure => ⟨.error failure, t, []⟩
  | .ok () =>
    match Destination.prepare refusals t s.destination s.clearRecursive with
    | (.error failure, t, events) => ⟨.error failure, t, events⟩
    | (.ok cleared, t, events) =>
      let rest := generate t s cleared p start refusals
      { rest with
        events := events ++ .cleared cleared.removed cleared.failed s.destination :: rest.events }

end Generation

end Understudy
