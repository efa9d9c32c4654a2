import Understudy.Proofs.Conservation
import Understudy.Proofs.Writing

/-!
# Understudy.Proofs.Delivery

What a run that succeeds leaves behind. Its steps are laid open (`Generation.Course`, and
`run_eq_ok_iff`): the destination is cleared, the registry is read from the cleared tree, and the
modules of the whole registry are written. The modules have file names of their own, so each is
written or not by itself (`writeModules_eq`), and the files that lie right in the destination
afterwards are the modules that were written and what the clearing has left.

A run that succeeds has found the destination again behind the clearing, so nothing has cut the way
to it. What the clearing has left are files whose paths the system does not take, and all of them are
reported (`Course.left_of_file`).
-/

namespace Understudy

open FileTree

namespace FileTree

variable {t : FileTree} {l : Location} {p : Path}

/-- A text that was written is read back. -/
theorem readText_of_get? {text : String} (hresolve : t.resolve p = .ok l)
    (hl : t.get? l = some (.file text.toUTF8)) : t.readText p = .ok text := by
  have htext : String.fromUTF8? text.toUTF8 = some text := by
    unfold String.fromUTF8?
    rw [String.toUTF8_eq_toByteArray, dif_pos text.isValidUTF8]
    rfl
  unfold readText readBytes
  simp only [hresolve, bind, Except.bind, hl, htext]

end FileTree

/-! ### The steps of a run -/

namespace Generation

variable {σ : Type} {refusals : Refusals} {t u v : FileTree} {s : Settings} {p : Provider σ}
  {start : Declaration → σ} {source directory : Path} {r : Registry} {summary : Summary}

/-- The source and the destination are both there. -/
theorem canonicalPaths_eq_ok_iff : canonicalPaths t s = .ok (source, directory) ↔
    t.canonical s.source = .ok source ∧ t.canonical s.destination = .ok directory := by
  unfold canonicalPaths
  cases t.canonical s.source with
  | error fault => simp
  | ok found => cases t.canonical s.destination <;> simp

/-- How a run comes to succeed: the tree as it is cleared, the paths and the registry that are found
in it, and what is written. -/
structure Course (refusals : Refusals) (t : FileTree) (s : Settings) (p : Provider σ)
    (start : Declaration → σ) (u : FileTree) (source directory : Path) (r : Registry)
    (summary : Summary) (v : FileTree) : Prop where
  isDirectory : t.isDirectory s.source = true
  prepared : ∃ events, Destination.prepare refusals t s.destination s.clearRecursive =
    (.ok summary.cleared, u, events)
  paths : canonicalPaths u s = .ok (source, directory)
  read : ∃ events, Discovery.registry u source s.layout.extension refusals = .ok (r, events)
  interfaces : summary.interfaces = r.size
  written : Destination.writeModules directory u
    (r.modules { s.layout with directory := some directory } p start) = (summary.outcomes, v)

theorem Course.of_generate {cleared : ClearReport}
    (hsource : t.isDirectory s.source = true)
    (hprepared : ∃ events, Destination.prepare refusals t s.destination s.clearRecursive =
      (.ok cleared, u, events))
    (h : (generate u s cleared p start refusals).result = .ok summary) :
    ∃ source directory r,
      Course refusals t s p start u source directory r summary
        (generate u s cleared p start refusals).tree := by
  unfold generate at h ⊢
  cases hpaths : canonicalPaths u s with
  | error failure =>
      rw [hpaths] at h
      cases h
  | ok paths =>
      obtain ⟨source, directory⟩ := paths
      cases hregistry : Discovery.registry u source s.layout.extension refusals with
      | error failure =>
          simp only [hpaths, hregistry] at h
          cases h
      | ok found =>
          obtain ⟨r, events⟩ := found
          simp only [hpaths, hregistry] at h ⊢
          cases h
          exact ⟨source, directory, r, hsource, hprepared, hpaths, ⟨events, hregistry⟩, rfl, rfl⟩

/-- A run that succeeds does so by its steps. -/
theorem run_eq_ok_iff :
    (run refusals t s p start).result = .ok summary ∧ (run refusals t s p start).tree = v ↔
      ∃ u source directory r, Course refusals t s p start u source directory r summary v := by
  constructor
  · intro h
    obtain ⟨hresult, rfl⟩ := h
    unfold run ensureSource at hresult ⊢
    by_cases hsource : t.isDirectory s.source = true
    · rw [if_pos hsource] at hresult ⊢
      cases hprepare : Destination.prepare refusals t s.destination s.clearRecursive with
      | mk result rest =>
          obtain ⟨u, events⟩ := rest
          cases result with
          | error failure =>
              simp only [hprepare] at hresult
              cases hresult
          | ok cleared =>
              simp only [hprepare] at hresult ⊢
              exact ⟨u, Course.of_generate hsource ⟨events, hprepare⟩ hresult⟩
    · rw [if_neg hsource] at hresult
      cases hresult
  · intro h
    obtain ⟨u, source, directory, r, h⟩ := h
    obtain ⟨events, hprepared⟩ := h.prepared
    obtain ⟨found, hread⟩ := h.read
    obtain ⟨cleared, interfaces, outcomes⟩ := summary
    obtain rfl : interfaces = r.size := h.interfaces
    have hwritten := h.written
    unfold Registry.modules at hwritten
    unfold run ensureSource
    simp only [if_pos h.isDirectory, hprepared, generate, h.paths, hread, hwritten, and_self]

/-- The modules of a run are written to what its destination leads to, before and after it is
cleared. -/
theorem Course.destination (ht : t.Plain)
    (h : Course (fun _ => none) t s p start u source directory r summary v) :
    ∃ l, directory = l.path ∧ u.resolve s.destination = .ok l ∧
      t.makeDirectories s.destination = (.ok (), (t.makeDirectories s.destination).2) ∧
      (t.makeDirectories s.destination).2.resolve s.destination = .ok l ∧
      Clearing.Leaves (Clearing.Takes (fun _ => none) s.clearRecursive s.destination
        (t.makeDirectories s.destination).2 l) (t.makeDirectories s.destination).2 u := by
  obtain ⟨events, hprepared⟩ := h.prepared
  obtain ⟨hok, l, hmade, hleaves⟩ := Destination.prepared_of_prepare_ok ht hprepared
  obtain ⟨hplain, -⟩ := ht.makeDirectories s.destination
  obtain ⟨-, hdestination⟩ := canonicalPaths_eq_ok_iff.mp h.paths
  obtain ⟨k, hk, rfl⟩ := canonical_eq_ok_iff.mp hdestination
  have hsame := hleaves.plain.resolve_within hplain hleaves.partOf.within hk
  rw [hmade] at hsame
  cases hsame
  exact ⟨l, rfl, hk, Prod.ext hok rfl, hmade, hleaves⟩

/-- All that is left by the clearing is there in the end. -/
theorem Course.within (hu : u.Plain)
    (h : Course refusals t s p start u source directory r summary v) : v.Plain ∧ u.Within v := by
  have hspec := Destination.get?_writeModules hu directory
    (r.modules { s.layout with directory := some directory } p start)
  rw [h.written] at hspec
  exact ⟨hspec.1, hspec.2.1⟩

/-- Without a separator in the extension, the modules of a run have names that entries can have. -/
theorem Course.isName (h : Course refusals t s p start u source directory r summary v)
    (hextension : '/' ∉ s.layout.extension.toList) :
    ∀ m ∈ r.modules { s.layout with directory := some directory } p start, IsName m.fileName := by
  intro m hm
  obtain ⟨events, hread⟩ := h.read
  unfold Discovery.registry at hread
  split at hread
  · cases hread
    obtain ⟨hinterface, hfile⟩ := Registry.of_mem_modules hm
    rw [hfile]
    exact MockModule.isName_fileNameOf (Discovery.not_mem_of_mem_names hinterface) hextension
  · cases hread

end Generation

/-! ### What is delivered -/

/-- Why a module is not written, by what comes of its write. -/
def Destination.failureOf (p : Path) : Except Fault FileTree → Option Failure
  | .ok _ => none
  | .error fault => some (.write p fault)

namespace Registry

variable {σ : Type} (r : Registry) (layout : Layout) (p : Provider σ) (start : Declaration → σ)

/-- The module of a declaration in a run, drafted among all declarations of the registry. -/
def moduleOf (d : Declaration) : MockModule :=
  ((d.mockModule r layout p).run { state := start d }).1

theorem modules_eq_map : r.modules layout p start = r.declarations.map (r.moduleOf layout p start) :=
  r.modules_eq layout p start

end Registry

namespace Generation

variable {σ : Type}

/-- What is delivered into a directory of a cleared tree: the module of each declaration of a
registry, written or not by itself. -/
structure Delivery (u : FileTree) (directory : Location) (r : Registry) (layout : Layout)
    (p : Provider σ) (start : Declaration → σ) (summary : Summary) (v : FileTree) : Prop where
  interfaces : summary.interfaces = r.size ∧ summary.outcomes.length = r.size
  order : summary.outcomes.map (fun o => (o.interface, o.path)) = r.names.map fun name =>
    (name, directory.path.join (MockModule.fileNameOf name layout.extension))
  counts : summary.written + summary.failed.length = summary.interfaces
  /-- A module is not written just if its own write fails. -/
  failure : ∀ d (o : Destination.Outcome), (d, o) ∈ r.declarations.zip summary.outcomes →
    o.failure? =
      Destination.failureOf o.path (u.writeText o.path (r.moduleOf layout p start d).content)
  /-- A module that is written has the content that is drafted among all declarations. -/
  content : ∀ d (o : Destination.Outcome), (d, o) ∈ r.declarations.zip summary.outcomes →
    o.isWritten = true → v.readText o.path = .ok (r.moduleOf layout p start d).content
  /-- What else is a file right in the directory was there before the modules were written. -/
  only : ∀ name bytes, v.get? (directory ++ [name]) = some (.file bytes) →
    (∃ o ∈ summary.outcomes, o.isWritten = true ∧ v.resolve o.path = .ok (directory ++ [name])) ∨
      u.get? (directory ++ [name]) = some (.file bytes)

end Generation

/-- Every module was written or not. -/
theorem Summary.written_add_length_failed (summary : Summary) :
    summary.written + summary.failed.length = summary.outcomes.length :=
  (List.length_eq_length_filter_add Destination.Outcome.isWritten).symm

namespace Destination

variable {σ : Type} {t u : FileTree} {p : Provider σ} {start : Declaration → σ} {layout : Layout}
  {m : MockModule} {ms : List MockModule} {directory : Path} {l : Location}

theorem outcome_writeModule (directory : Path) (t : FileTree) (m : MockModule) :
    (writeModule directory t m).1 = ⟨m.interface, directory.join m.fileName,
      failureOf (directory.join m.fileName)
        (t.writeText (directory.join m.fileName) m.content)⟩ := by
  unfold writeModule
  cases hwrite : t.writeText (directory.join m.fileName) m.content with
  | error fault => simp only [hwrite, failureOf]
  | ok u => simp only [hwrite, failureOf]

/-- A module is written just if it has a place. -/
theorem isWritten_writeModule_iff :
    (writeModule directory t m).1.isWritten = true ↔ ∃ l, place directory t m = .ok l := by
  rw [writeModule_eq]
  cases place directory t m with
  | error fault => simp [Outcome.isWritten]
  | ok l => simp [Outcome.isWritten]

section Write

variable (hnames : ∀ m ∈ ms, IsName m.fileName) (hnodup : (ms.map MockModule.fileName).Nodup)
  (hlinks : t.Linkless directory)

include hnames hnodup hlinks

/-- In the end, the path of a module that has a place leads to it, and the module is there. -/
theorem delivered_of_place (hm : m ∈ ms) (h : place directory t m = .ok l) :
    (writeModules directory t ms).2.resolve (directory.join m.fileName) = .ok l ∧
      (writeModules directory t ms).2.get? l = some (.file m.content.toUTF8) := by
  rw [writeModules_eq hnames hnodup hlinks]
  have hfile : (ms.foldl (put directory t) t).get? l = some (.file m.content.toUTF8) :=
    get?_foldl_put_of_mem hnames hnodup hlinks hm h
  have hkeeps := keeps_foldl_put hnames hlinks (Keeps.refl t)
  exact ⟨resolve_of_place (hnames m hm) hlinks h hkeeps hfile, hfile⟩

/-- A location where there was something else before is that of a module that has a place. -/
theorem exists_place_of_ne (h : (writeModules directory t ms).2.get? l ≠ t.get? l) :
    ∃ m ∈ ms, place directory t m = .ok l := by
  by_contra hnone
  refine h ?_
  rw [writeModules_eq hnames hnodup hlinks]
  refine get?_foldl_put_of_forall_ne hnames hlinks fun m hm hplace => ?_
  exact hnone ⟨m, hm, hplace⟩

end Write

end Destination

namespace Registry

variable {σ : Type} {u : FileTree} {r : Registry} {layout : Layout} {p : Provider σ}
  {start : Declaration → σ} {directory : Location}

/-- The modules of a registry are written each by itself, and their outcomes are in its order. -/
theorem outcomes_eq (hu : u.Plain) (hnames : ∀ m ∈ r.modules layout p start, IsName m.fileName) :
    (Destination.writeModules directory.path u (r.modules layout p start)).1 =
      r.declarations.map fun d =>
        (Destination.writeModule directory.path u (r.moduleOf layout p start d)).1 := by
  rw [Destination.writeModules_eq hnames (r.nodup_fileNames layout p start)
    (hu.linkless directory.path), modules_eq_map, List.map_map]
  rfl

/-- A declaration is paired with the outcome of its own module. -/
theorem of_mem_zip_outcomes {outcomes : List Destination.Outcome} {d : Declaration}
    {o : Destination.Outcome} {outcome : Declaration → Destination.Outcome}
    (heach : outcomes = r.declarations.map outcome) (h : (d, o) ∈ r.declarations.zip outcomes) :
    d ∈ r.declarations ∧ o = outcome d := by
  rw [heach, List.zip_map_right, List.zip_eq_zipWith, List.zipWith_self, List.map_map] at h
  obtain ⟨_, hd, heq⟩ := List.mem_map.mp h
  cases heq
  exact ⟨hd, rfl⟩

theorem moduleOf_mem_modules {d : Declaration} (hd : d ∈ r.declarations) :
    r.moduleOf layout p start d ∈ r.modules layout p start := by
  rw [modules_eq_map]
  exact List.mem_map_of_mem hd

end Registry

namespace Generation

variable {σ : Type} {t u v : FileTree} {s : Settings} {p : Provider σ} {start : Declaration → σ}
  {summary : Summary} {r : Registry} {layout : Layout} {directory : Location}

/-- Writing the modules of a registry into a directory delivers them. -/
theorem Delivery.of_writeModules (hu : u.Plain)
    (hnames : ∀ m ∈ r.modules layout p start, IsName m.fileName)
    (hsize : summary.interfaces = r.size)
    (hwritten : Destination.writeModules directory.path u (r.modules layout p start) =
      (summary.outcomes, v)) : Delivery u directory r layout p start summary v := by
  have hnodup := r.nodup_fileNames layout p start
  have hlinks := hu.linkless directory.path
  have heach : summary.outcomes = r.declarations.map fun d =>
      (Destination.writeModule directory.path u (r.moduleOf layout p start d)).1 :=
    (congrArg Prod.fst hwritten).symm.trans (Registry.outcomes_eq hu hnames)
  have hlength : summary.outcomes.length = r.size := by
    rw [heach, List.length_map, Registry.size]
  constructor
  case interfaces => exact ⟨hsize, hlength⟩
  case order =>
    rw [heach, List.map_map, Registry.names, List.map_map]
    refine List.map_congr_left fun d _ => ?_
    simp only [Function.comp_apply, Destination.outcome_writeModule]
    rfl
  case counts => rw [Summary.written_add_length_failed, hlength, hsize]
  case failure =>
    intro d o h
    obtain ⟨-, rfl⟩ := Registry.of_mem_zip_outcomes heach h
    rw [Destination.outcome_writeModule]
  case content =>
    intro d o h hdone
    obtain ⟨hd, rfl⟩ := Registry.of_mem_zip_outcomes heach h
    obtain ⟨l, hplace⟩ := Destination.isWritten_writeModule_iff.mp hdone
    obtain ⟨hresolve, hfile⟩ :=
      Destination.delivered_of_place hnames hnodup hlinks (Registry.moduleOf_mem_modules hd) hplace
    rw [hwritten] at hresolve hfile
    rw [Destination.outcome_writeModule]
    exact readText_of_get? hresolve hfile
  case only =>
    intro name bytes hfile
    by_cases hbefore : u.get? (directory ++ [name]) = some (.file bytes)
    · exact Or.inr hbefore
    have hnew : (Destination.writeModules directory.path u (r.modules layout p start)).2.get?
        (directory ++ [name]) ≠ u.get? (directory ++ [name]) := by
      rw [hwritten, hfile]
      exact Ne.symm hbefore
    obtain ⟨m, hm, hplace⟩ := Destination.exists_place_of_ne hnames hnodup hlinks hnew
    obtain ⟨hresolve, -⟩ := Destination.delivered_of_place hnames hnodup hlinks hm hplace
    rw [hwritten] at hresolve
    rw [Registry.modules_eq_map] at hm
    obtain ⟨d, hd, rfl⟩ := List.mem_map.mp hm
    refine Or.inl ⟨_, heach ▸ List.mem_map_of_mem hd, ?_, ?_⟩
    · exact Destination.isWritten_writeModule_iff.mpr ⟨_, hplace⟩
    · rwa [Destination.outcome_writeModule]

/-- The events of preparing the destination are among those of the run. -/
theorem mem_events_of_prepare {refusals : Refusals} {cleared : ClearReport} {events : List Event}
    (hsource : t.isDirectory s.source = true)
    (hprepare : Destination.prepare refusals t s.destination s.clearRecursive =
      (.ok cleared, u, events)) {event : Event} (h : event ∈ events) :
    event ∈ (run refusals t s p start).events := by
  unfold run ensureSource
  rw [if_pos hsource]
  simp only [hprepare]
  exact List.mem_append_left _ h

/-- What is delivered stands right in the destination, and so do the files that the clearing has left
there: those whose paths the system does not take, all of them counted and reported. -/
theorem Course.left_of_file {directory : Location} {source path : Path} (ht : t.Plain)
    (h : Course (fun _ => none) t s p start u source path r summary v)
    (hresolve : u.resolve s.destination = .ok directory) {name : String} {bytes : ByteArray}
    (hfile : u.get? (directory ++ [name]) = some (.file bytes)) :
    (t.makeDirectories s.destination).2.get? (directory ++ [name]) = some (.file bytes) ∧
      ¬s.destination.Admits name ∧ 0 < summary.cleared.failed ∧
      ∃ cause, .kept (s.destination.join name) cause ∈ (run (fun _ => none) t s p start).events := by
  obtain ⟨events, hprepare⟩ := h.prepared
  obtain ⟨hbefore, hlong, hfailed, cause, hkept⟩ :=
    Destination.of_file_left ht hprepare hresolve hfile
  exact ⟨hbefore, hlong, hfailed, cause, mem_events_of_prepare h.isDirectory hprepare hkept⟩

/-- **Delivery.** Whatever a plain tree holds and whatever the settings, the provider and its states,
if the extension holds no separator: a run that succeeds has delivered, into the directory that its
destination leads to, the modules of the registry that is read from the tree as it was cleared. The
only files that the clearing has left right in this directory were there before the run, under names
with which the path of the destination is not taken by the system; the run counts them and reports
them as kept. -/
theorem delivery_of_run (ht : t.Plain) (hextension : '/' ∉ s.layout.extension.toList)
    (h : (run (fun _ => none) t s p start).result = .ok summary) :
    ∃ u source directory r,
      Course (fun _ => none) t s p start u source (Location.path directory) r summary
        (run (fun _ => none) t s p start).tree ∧
      (run (fun _ => none) t s p start).tree.resolve s.destination = .ok directory ∧
      Delivery u directory r { s.layout with directory := some directory.path } p start summary
        (run (fun _ => none) t s p start).tree ∧
      ∀ name bytes, u.get? (directory ++ [name]) = some (.file bytes) →
        (t.makeDirectories s.destination).2.get? (directory ++ [name]) = some (.file bytes) ∧
          ¬s.destination.Admits name ∧ 0 < summary.cleared.failed ∧
          ∃ cause, .kept (s.destination.join name) cause ∈
            (run (fun _ => none) t s p start).events := by
  obtain ⟨u, source, path, r, hcourse⟩ := run_eq_ok_iff.mp ⟨h, rfl⟩
  obtain ⟨directory, rfl, hresolve, -, -, hleaves⟩ := hcourse.destination ht
  refine ⟨u, source, directory, r, hcourse, ?_, ?_, fun name bytes => hcourse.left_of_file ht hresolve⟩
  · obtain ⟨hplain, hwithin⟩ := hcourse.within hleaves.plain
    exact hleaves.plain.resolve_within hplain hwithin hresolve
  · exact Delivery.of_writeModules hleaves.plain (hcourse.isName hextension) hcourse.interfaces
      hcourse.written

/-- A source with a declaration, and a destination with a file and with a directory in the way of the
module. -/
def blocked : FileTree where
  entries := [(["src"], .directory),
    (["src", "A.interface.ts"], .file "export interface A \x7b\n\x7d\n".toUTF8),
    (["out"], .directory), (["out", "old.txt"], .file "old".toUTF8),
    (["out", "A.stubs.ts"], .directory)]

/-- A run from one directory to another one beside it. -/
def runBeside (t : FileTree) : Run :=
  run (fun _ => none) t ⟨⟨"src"⟩, ⟨"out"⟩, {}, false⟩ (Script.provider {}) fun _ => {}

/-- What a run has done that has one interface and clears one file. -/
def summaryOf (failure? : Option Failure) : Summary :=
  ⟨⟨1, 0⟩, 1, [⟨"A", ⟨"/out/A.stubs.ts"⟩, failure?⟩]⟩

/-- A module that is written, and one that is not as a directory is in its way. -/
theorem delivery_of_run_blocked :
    (apart.Plain ∧ '/' ∉ "ts".toList ∧ (runBeside apart).result = .ok (summaryOf none) ∧
      ∃ u source directory r,
        Course (fun _ => none) apart ⟨⟨"src"⟩, ⟨"out"⟩, {}, false⟩ (Script.provider {}) (fun _ => {})
          u source (Location.path directory) r (summaryOf none) (runBeside apart).tree ∧
        (runBeside apart).tree.resolve ⟨"out"⟩ = .ok directory ∧
        Delivery u directory r { directory := some directory.path } (Script.provider {})
          (fun _ => {}) (summaryOf none) (runBeside apart).tree) ∧
    (blocked.Plain ∧ (runBeside blocked).result =
        .ok (summaryOf (some (.write ⟨"/out/A.stubs.ts"⟩ .isADirectory))) ∧
      ∀ name bytes, (runBeside blocked).tree.get? (["out"] ++ [name]) ≠ some (.file bytes)) := by
  have hapart : apart.Plain := by decide
  have hwritten : (runBeside apart).result = .ok (summaryOf none) := by decide +kernel
  have hblocked : blocked.Plain := by decide
  have hunwritten : (runBeside blocked).result =
      .ok (summaryOf (some (.write ⟨"/out/A.stubs.ts"⟩ .isADirectory))) := by decide +kernel
  have hextension : '/' ∉ "ts".toList := by decide
  obtain ⟨u, source, directory, r, hcourse, hresolve, hdelivery, -⟩ :=
    delivery_of_run hapart hextension hwritten
  refine ⟨⟨hapart, hextension, hwritten, u, source, directory, r, hcourse, hresolve, hdelivery⟩,
    hblocked, hunwritten, ?_⟩
  intro name bytes hfile
  obtain ⟨u, source, directory, r, -, hdirectory, hdelivery, hleft⟩ :=
    delivery_of_run hblocked hextension hunwritten
  have hout : (runBeside blocked).tree.resolve ⟨"out"⟩ = .ok ["out"] := by decide +kernel
  unfold runBeside at hout hfile
  rw [hout] at hdirectory
  cases hdirectory
  rcases hdelivery.only name bytes hfile with ⟨o, ho, hdone, -⟩ | hbefore
  · -- no outcome is that of a module that was written
    rw [summaryOf, List.mem_singleton] at ho
    rw [ho] at hdone
    cases hdone
  · -- nothing could not be cleared
    exact absurd (hleft name bytes hbefore).2.2.1 (Nat.lt_irrefl 0)

/-- What is there when the module of the only declaration was written beside what was there before. -/
def delivered : FileTree :=
  (Destination.writeModules ⟨"/out"⟩ apart
    ((Discovery.registryOf apart [⟨"/src/A.interface.ts"⟩]).modules
      { directory := some ⟨"/out"⟩ } (Script.provider {}) fun _ => {})).2

/-- If nothing is cleared, the module is all that changes. -/
theorem run_apart {path : Path} {report : ClearReport} {events : List Event}
    (hresolve : apart.resolve path = .ok ["out"])
    (hprepare : Destination.prepare (fun _ => none) apart path false =
      (.ok report, apart, events)) :
    (run (fun _ => none) apart ⟨⟨"src"⟩, path, {}, false⟩ (Script.provider {})
        fun _ => {}).result = .ok ⟨report, 1, [⟨"A", ⟨"/out/A.stubs.ts"⟩, none⟩]⟩ ∧
      (run (fun _ => none) apart ⟨⟨"src"⟩, path, {}, false⟩ (Script.provider {})
        fun _ => {}).tree = delivered := by
  have hfiles : Discovery.files apart ⟨"/src"⟩ "ts" = .ok [⟨"/src/A.interface.ts"⟩] := by
    decide +kernel
  have hsource : apart.canonical ⟨"src"⟩ = .ok ⟨"/src"⟩ := by decide +kernel
  have hdestination : apart.canonical path = .ok ⟨"/out"⟩ :=
    canonical_eq_ok_iff.mpr ⟨_, hresolve, by decide⟩
  have hcourse : Course (fun _ => none) apart ⟨⟨"src"⟩, path, {}, false⟩ (Script.provider {})
      (fun _ => {}) apart ⟨"/src"⟩ ⟨"/out"⟩
      (Discovery.registryOf apart [⟨"/src/A.interface.ts"⟩])
      ⟨report, 1, [⟨"A", ⟨"/out/A.stubs.ts"⟩, none⟩]⟩ delivered := by
    constructor
    case isDirectory =>
      show apart.isDirectory ⟨"src"⟩ = true
      decide +kernel
    case prepared => exact ⟨events, hprepare⟩
    case paths => simp only [canonicalPaths, hsource, hdestination]
    case read => exact ⟨_, by rw [Discovery.registry, hfiles]⟩
    case interfaces =>
      show 1 = (Discovery.registryOf apart [⟨"/src/A.interface.ts"⟩]).size
      decide +kernel
    case written =>
      refine Prod.ext ?_ ?_
      · show (Destination.writeModules ⟨"/out"⟩ apart
          ((Discovery.registryOf apart [⟨"/src/A.interface.ts"⟩]).modules
            { directory := some ⟨"/out"⟩ } (Script.provider {}) fun _ => {})).1 =
              [⟨"A", ⟨"/out/A.stubs.ts"⟩, none⟩]
        decide +kernel
      · rw [delivered]
  exact run_eq_ok_iff.mpr ⟨_, _, _, _, hcourse⟩

/-- A way to a directory that is so long that the system does not take the path of anything in it. -/
def detour : Path := .dotted "out" 2045

/-- A run with this way to the destination. -/
def runDetour : Run :=
  run (fun _ => none) apart ⟨⟨"src"⟩, detour, {}, false⟩ (Script.provider {}) fun _ => {}

/-- A file that is right in the destination stays there. -/
theorem not_cleared_detour :
    apart.Plain ∧ '/' ∉ "ts".toList ∧
      runDetour.result = .ok ⟨⟨0, 1⟩, 1, [⟨"A", ⟨"/out/A.stubs.ts"⟩, none⟩]⟩ ∧
      runDetour.tree.resolve detour = .ok ["out"] ∧
      runDetour.tree.get? ["out", "B.stubs.ts"] = some (.file "".toUTF8) := by
  have hresolve : apart.resolve detour = .ok ["out"] :=
    resolve_dotted (by decide) (by decide +kernel) rfl
  have hlong : ∀ name ∈ apart.names ["out"], ¬detour.Admits name := by
    intro name hname
    have hnames : apart.names ["out"] = ["B.stubs.ts"] := by decide
    rw [hnames, List.mem_singleton] at hname
    rw [hname]
    exact not_admits_dotted (by decide) (by decide)
  obtain ⟨events, hprepare⟩ : ∃ events, Destination.prepare (fun _ => none) apart detour false =
      (.ok ⟨0, (apart.listing (fun _ => none) ["out"]).length⟩, apart, events) :=
    Destination.prepare_of_forall_not_admits (by decide) hresolve rfl rfl hlong
  have hcount : (apart.listing (fun _ => none) ["out"]).length = 1 := by decide +kernel
  rw [hcount] at hprepare
  obtain ⟨hresult, htree⟩ := run_apart hresolve hprepare
  refine ⟨by decide, by decide, hresult, ?_, ?_⟩
  · rw [runDetour, htree]
    exact resolve_dotted (by decide) (by decide +kernel) (by decide +kernel)
  · rw [runDetour, htree]
    decide +kernel

end Generation

end Understudy
