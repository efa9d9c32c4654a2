import Understudy.Generation
import Understudy.Proofs.Clearing
import Understudy.Proofs.Line
import Understudy.Proofs.Outline
import Understudy.Proofs.Registry
import Understudy.Provider.Scripted

/-!
# Understudy.Proofs.Preservation

What a run does to the files that are there, if the system lets go of every entry. A run changes the
tree three times: it makes the destination, which only adds directories; it clears the destination,
which takes away files that `Clearing.Reaches` describes and keeps all others; and it writes modules,
each where its path leads to (`run_cases`, `generate_cases`). So a file survives if it is out of reach
of the clearing and no module takes its place, wherever source and destination lie in each other. A
source that is its own destination loses its declarations, but for those in entries that the clearing
could not look up and has reported.

An extension may hold a separator. Only then can a module be written anywhere but right in the
destination (`exists_of_writes`).
-/

namespace Understudy

open FileTree

/-! ### Clearing -/

namespace Clearing

/-- The locations that clearing a directory reaches: right in it, or at any depth if asked for. -/
def Reaches (recursive : Bool) (directory l : Location) : Prop :=
  ∃ name rest, l = directory ++ name :: rest ∧ (rest = [] ∨ recursive = true)

/-- What a clearing leaves of a tree: all that it does not reach, and of the files that it reaches
those in entries that are reported as kept. -/
structure Cleared (t : FileTree) (recursive : Bool) (p : Path) (directory : Location) (u : FileTree)
    (events : List Event) : Prop where
  plain : u.Plain
  partOf : u.PartOf t
  kept : ∀ l e, t.get? l = some e → ¬ Reaches recursive directory l → u.get? l = some e
  reported : ∀ name rest bytes, u.get? (directory ++ name :: rest) = some (.file bytes) →
    rest = [] ∨ recursive = true → ∃ cause, .kept (p.join name) cause ∈ events

variable {t u : FileTree} {recursive : Bool} {p : Path} {directory : Location}
  {report : ClearReport} {events : List Event}

/-- What a clearing takes away it reaches, apart from what was not there. -/
theorem Takes.reaches {refusals : Refusals} (ht : t.Plain) (hresolve : t.resolve p = .ok directory)
    (hdirectory : t.get? directory = some .directory) {l : Location} {e : Entry}
    (hl : t.get? l = some e) (h : Takes refusals recursive p t directory l) :
    Reaches recursive directory l := by
  obtain ⟨name, entry, rest, rfl, -, hentry, hasked, -⟩ := h.exists_entry ht hresolve hdirectory
  refine ⟨name, rest, rfl, ?_⟩
  cases rest with
  | nil => exact Or.inl rfl
  | cons other rest =>
      rw [List.append_cons] at hl
      have hholds := ht.rooted.get?_of_append_cons (hl.trans_ne (Option.some_ne_none e))
      rw [hentry, Option.some_inj] at hholds
      exact Or.inr (hasked hholds)

/-- A destination that is prepared is cleared. -/
theorem cleared_of_prepare_ok (ht : t.Plain)
    (h : Destination.prepare (fun _ => none) t p recursive = (.ok report, u, events)) :
    (t.makeDirectories p).1 = .ok () ∧ ∃ directory,
      (t.makeDirectories p).2.resolve p = .ok directory ∧
      Cleared (t.makeDirectories p).2 recursive p directory u events := by
  obtain ⟨hplain, -⟩ := ht.makeDirectories p
  obtain ⟨hmade, directory, fs, hresolve, rfl, rfl, -, hevents⟩ := Destination.of_prepare_ok ht h
  have hdirectory := ht.directory_of_makeDirectories (Prod.ext hmade rfl) hresolve
  refine ⟨hmade, directory, hresolve, plain_left hplain, partOf_left, fun l e hl hreaches => ?_,
    fun name rest bytes hfile hreach => ?_⟩
  · rw [get?_left_of_not_taken fun htaken => hreaches ?_, hl]
    exact Takes.reaches hplain hresolve hdirectory hl htaken
  · -- the directory lists the entry that the file is in
    have hbefore := partOf_left.entry _ _ hfile
    have hlisted := mem_listed_of_get? hplain.rooted (hbefore.trans_ne (Option.some_ne_none _))
    obtain ⟨cause, hkept⟩ := exists_kept_of_get?_left hlisted
      (isName_of_mem_listed hplain.named hlisted) hreach
      (fun _ => way_of_resolve hplain.rooted hresolve hdirectory) hfile
    exact ⟨cause, hevents name cause hkept⟩

end Clearing

namespace Destination

/-! ### Writing modules -/

section Write

variable {t : FileTree}

/-- Whether one of some outcomes is that of a module written to a location. -/
def Writes (outcomes : List Outcome) (t : FileTree) (l : Location) : Prop :=
  ∃ o ∈ outcomes, o.isWritten = true ∧ t.resolve o.path = .ok l

theorem writeModules_cons (directory : Path) (m : MockModule) (rest : List MockModule) :
    writeModules directory t (m :: rest) =
      ((writeModule directory t m).1 :: (writeModules directory (writeModule directory t m).2 rest).1,
        (writeModules directory (writeModule directory t m).2 rest).2) := by
  cases hstep : writeModule directory t m with
  | mk outcome u => simp only [writeModules, hstep]

/-- Writing a module leaves all as it is, or it writes a file where its path leads to afterwards. -/
theorem writeModule_cases (ht : t.Plain) (directory : Path) (m : MockModule) :
    (writeModule directory t m).2 = t ∨
      ∃ l e, l ≠ [] ∧ t.get? l ≠ some .directory ∧ (writeModule directory t m).2 = t.set l e ∧
        (t.set l e).Plain ∧ (writeModule directory t m).1.isWritten = true ∧
        (t.set l e).resolve (writeModule directory t m).1.path = .ok l := by
  unfold writeModule
  cases hwrite : t.writeText (directory.join m.fileName) m.content with
  | error fault => exact Or.inl (by simp only [hwrite])
  | ok u =>
      obtain ⟨l, hne, hfree, rfl, hplain, hresolve⟩ := ht.of_writeText hwrite
      simp only [hwrite]
      exact Or.inr ⟨l, _, hne, hfree, rfl, hplain, rfl, hresolve⟩

/-- Writing modules changes nothing where no module is written. -/
theorem get?_writeModules (ht : t.Plain) (directory : Path) (ms : List MockModule) :
    (writeModules directory t ms).2.Plain ∧ t.Within (writeModules directory t ms).2 ∧
      ∀ l, (writeModules directory t ms).2.get? l = t.get? l ∨
        Writes (writeModules directory t ms).1 (writeModules directory t ms).2 l := by
  induction ms generalizing t with
  | nil => exact ⟨ht, Within.refl t, fun _ => Or.inl rfl⟩
  | cons m rest ih =>
      have hcases := writeModule_cases ht directory m
      rw [writeModules_cons]
      generalize writeModule directory t m = step at hcases ⊢
      obtain ⟨outcome, u⟩ := step
      rcases hcases with rfl | ⟨k, e, hne, hfree, rfl, hstep, hwritten, hresolve⟩
      · obtain ⟨hplain, hrest, hsteps⟩ := ih ht
        refine ⟨hplain, hrest, fun l => (hsteps l).imp_right fun hwrites => ?_⟩
        obtain ⟨o, ho, hwritten⟩ := hwrites
        exact ⟨o, List.mem_cons_of_mem _ ho, hwritten⟩
      · obtain ⟨hplain, hrest, hsteps⟩ := ih hstep
        refine ⟨hplain, (within_set hne hfree).trans hrest, fun l => ?_⟩
        rcases hsteps l with hl | ⟨o, ho, hwritten⟩
        · by_cases hk : l = k
          · -- the path still leads where the module was written, as no directory is lost
            subst hk
            exact Or.inr ⟨outcome, List.mem_cons_self, hwritten,
              hstep.resolve_within hplain hrest hresolve⟩
          · exact Or.inl (hl.trans (by rw [get?_set t hne, if_neg hk]))
        · exact Or.inr ⟨o, List.mem_cons_of_mem _ ho, hwritten⟩

/-- A module is written, if at all, under its file name. -/
theorem path_of_mem_writeModules {directory : Path} {ms : List MockModule} {o : Outcome}
    (h : o ∈ (writeModules directory t ms).1) : ∃ m ∈ ms, o.path = directory.join m.fileName := by
  induction ms generalizing t with
  | nil => cases h
  | cons m rest ih =>
      rcases List.mem_cons.mp h with rfl | h
      · refine ⟨m, List.mem_cons_self, ?_⟩
        split <;> rfl
      · obtain ⟨m', hm', hpath⟩ := ih h
        exact ⟨m', List.mem_cons_of_mem _ hm', hpath⟩

end Write

end Destination

/-! ### Names of modules -/

theorem not_mem_of_declaredName? {text name : String} (h : declaredName? text = some name) :
    '/' ∉ name.toList := by
  obtain ⟨line, -, hline⟩ := List.exists_of_findSome?_eq_some h
  obtain ⟨hheader, -⟩ := Option.filter_eq_some_iff.mp hline
  simp only [Line.header?, Option.bind_eq_bind, Option.bind_eq_some_iff] at hheader
  obtain ⟨_, -, _, -, _, -, rest, -, hname⟩ := hheader
  cases hname
  -- the name is a run of word characters, and the separator is none
  rw [String.toList_ofList]
  exact not_mem_of_forall (List.all_eq_true.mp List.all_takeWhile) (by decide)

/-- The names of a registry that was read from files hold no separator. -/
theorem Discovery.not_mem_of_mem_names {t : FileTree} {files : List Path} {name : String}
    (h : name ∈ (registryOf t files).names) : '/' ∉ name.toList := by
  rw [registryOf, Registry.names_ofList, List.mem_eraseDups] at h
  obtain ⟨d, hd, rfl⟩ := List.mem_map.mp h
  obtain ⟨p, -, hp⟩ := List.mem_filterMap.mp hd
  unfold declaration at hp
  split at hp
  · rw [Declaration.parse?_eq] at hp
    obtain ⟨name, hname, rfl⟩ := Option.map_eq_some_iff.mp hp
    exact not_mem_of_declaredName? hname
  · cases hp

/-- What is discovered is a file. -/
theorem Discovery.file_of_mem_files {t : FileTree} {source : Path} {extension : String}
    {files : List Path} (hfiles : Discovery.files t source extension = .ok files) {found : Path}
    (hfound : found ∈ files) :
    ∃ l bytes, t.resolve found = .ok l ∧ t.get? l = some (.file bytes) := by
  unfold Discovery.files at hfiles
  split at hfiles
  · cases hfiles
    have hfile : t.isFile found = true :=
      (List.mem_filter.mp (List.mem_mergeSort.mp hfound)).2
    obtain ⟨bytes, hfind⟩ := isFile_iff.mp hfile
    obtain ⟨l, hresolve, hentry⟩ := find?_eq_some_iff.mp hfind
    exact ⟨l, bytes, hresolve, hentry⟩
  · cases hfiles

/-- The file name of a module is a name that an entry can have, unless a separator is put in. -/
theorem MockModule.isName_fileNameOf {interface extension : String}
    (hinterface : '/' ∉ interface.toList) (hextension : '/' ∉ extension.toList) :
    IsName (fileNameOf interface extension) := by
  have hstubs : ".stubs.".toList.length = 7 := by decide
  refine isName_of_length ?_ (by simp [fileNameOf, hinterface, hextension])
  rw [fileNameOf, String.toList_append, String.toList_append, List.length_append,
    List.length_append, hstubs]
  omega

/-! ### Runs -/

/-- The locations that a run clears, by the tree it starts with. It clears none if the source is no
directory or the destination cannot be made. -/
def Settings.Clears (s : Settings) (t : FileTree) (l : Location) : Prop :=
  t.isDirectory s.source = true ∧ (t.makeDirectories s.destination).1 = .ok () ∧
    ∃ directory, (t.makeDirectories s.destination).2.resolve s.destination = .ok directory ∧
      Clearing.Reaches s.clearRecursive directory l

/-- Whether a run reports that it has kept the entry of its destination that a location is in. -/
def Settings.Retains {σ : Type} (s : Settings) (t : FileTree) (p : Provider σ)
    (start : Declaration → σ) (l : Location) : Prop :=
  ∃ directory name rest cause,
    (t.makeDirectories s.destination).2.resolve s.destination = .ok directory ∧
    l = directory ++ name :: rest ∧
    .kept (s.destination.join name) cause ∈ (Generation.run (fun _ => none) t s p start).events

/-- Whether a run has written a module to a location. -/
def Run.Writes (r : Run) (l : Location) : Prop :=
  ∃ summary, r.result = .ok summary ∧ Destination.Writes summary.outcomes r.tree l

namespace Generation

variable {σ : Type} {t : FileTree} {s : Settings} {l : Location} {e : Entry} {p : Provider σ}
  {start : Declaration → σ}

/-- After clearing, a run fails and leaves the tree alone, or it writes modules to the destination. -/
theorem generate_cases (t : FileTree) (s : Settings) (cleared : ClearReport) (p : Provider σ)
    (start : Declaration → σ) :
    ((generate t s cleared p start).tree = t ∧
      ∃ failure, (generate t s cleared p start).result = .error failure) ∨
    ∃ directory files ms, t.resolve s.destination = .ok directory ∧
      ms = (Discovery.registryOf t files).modules
        { s.layout with directory := some directory.path } p start ∧
      (generate t s cleared p start).tree =
        (Destination.writeModules directory.path t ms).2 ∧
      ∃ summary, (generate t s cleared p start).result = .ok summary ∧
        summary.outcomes = (Destination.writeModules directory.path t ms).1 := by
  unfold generate canonicalPaths Discovery.registry
  cases t.canonical s.source with
  | error fault => exact Or.inl ⟨rfl, _, rfl⟩
  | ok source =>
      cases hdestination : t.canonical s.destination with
      | error fault => exact Or.inl ⟨rfl, _, rfl⟩
      | ok destination =>
          obtain ⟨directory, hresolve, rfl⟩ := canonical_eq_ok_iff.mp hdestination
          cases hfiles : Discovery.files t source s.layout.extension with
          | error failure =>
              refine Or.inl ?_
              simp only [hfiles, true_and]
              exact ⟨_, rfl⟩
          | ok files =>
              refine Or.inr ⟨directory, files, _, hresolve, rfl, ?_⟩
              simp only [hfiles]
              exact ⟨rfl, _, rfl, rfl⟩

/-- Without a separator in the extension, modules are written right in the destination. -/
theorem exists_of_writes (ht : t.Plain) {cleared : ClearReport}
    (hextension : '/' ∉ s.layout.extension.toList)
    (h : (generate t s cleared p start).Writes l) :
    ∃ directory name, t.resolve s.destination = .ok directory ∧ l = directory ++ [name] := by
  obtain ⟨summary, hresult, o, ho, -, hresolve⟩ := h
  rcases generate_cases t s cleared p start with
    ⟨-, failure, hfailure⟩ | ⟨directory, files, ms, hdirectory, hms, htree, summary', hok, houtcomes⟩
  · rw [hfailure] at hresult
    cases hresult
  · rw [hok] at hresult
    cases hresult
    rw [houtcomes] at ho
    rw [htree] at hresolve
    obtain ⟨hplain, -, -⟩ := Destination.get?_writeModules ht directory.path ms
    obtain ⟨m, hm, hpath⟩ := Destination.path_of_mem_writeModules ho
    have hnames := ht.isName_of_resolve hdirectory
    obtain ⟨hinterface, hfile⟩ := Registry.of_mem_modules (hms ▸ hm)
    have hname : IsName m.fileName := by
      rw [hfile]
      exact MockModule.isName_fileNameOf (Discovery.not_mem_of_mem_names hinterface) hextension
    rw [hpath, Location.path_join hnames hname] at hresolve
    exact ⟨directory, m.fileName, hdirectory,
      hplain.eq_of_resolve_path (isName_of_mem_concat hnames hname) hresolve⟩

/-- After clearing, a run changes nothing where it writes no module. -/
theorem get?_generate (ht : t.Plain) (cleared : ClearReport) (l : Location) :
    (generate t s cleared p start).tree.get? l = t.get? l ∨
      (generate t s cleared p start).Writes l := by
  rcases generate_cases t s cleared p start with
    ⟨htree, -⟩ | ⟨directory, files, ms, -, -, htree, summary, hok, houtcomes⟩
  · exact Or.inl (by rw [htree])
  · obtain ⟨-, -, hspec⟩ := Destination.get?_writeModules ht directory.path ms
    rw [htree]
    refine (hspec l).imp_right fun hwrites => ⟨summary, hok, ?_⟩
    rwa [houtcomes, htree]

/-- A run that does not come to clearing has only made directories; any other one clears the
destination and goes on from there. -/
theorem run_cases (ht : t.Plain) (s : Settings) (p : Provider σ) (start : Declaration → σ) :
    (t.PartOf (run (fun _ => none) t s p start).tree ∧ ∀ l, ¬ s.Clears t l) ∨
    ∃ directory u cleared events,
      (t.makeDirectories s.destination).2.resolve s.destination = .ok directory ∧
      Clearing.Cleared (t.makeDirectories s.destination).2 s.clearRecursive s.destination directory u
        events ∧
      (∀ l, s.Clears t l ↔ Clearing.Reaches s.clearRecursive directory l) ∧
      (run (fun _ => none) t s p start).tree = (generate u s cleared p start).tree ∧
      (run (fun _ => none) t s p start).result = (generate u s cleared p start).result ∧
      ∀ event ∈ events, event ∈ (run (fun _ => none) t s p start).events := by
  unfold run ensureSource
  by_cases hsource : t.isDirectory s.source = true
  · rw [if_pos hsource]
    cases hprepare : Destination.prepare (fun _ => none) t s.destination s.clearRecursive with
    | mk result rest =>
        obtain ⟨u, events⟩ := rest
        cases result with
        | error failure =>
            obtain ⟨rfl, hfailed, -⟩ := Destination.of_prepare_error hprepare
            refine Or.inl ⟨(ht.makeDirectories s.destination).2, fun l hclears => ?_⟩
            obtain ⟨-, hmade, directory, hresolve, -⟩ := hclears
            have hdirectory := ht.directory_of_makeDirectories (Prod.ext hmade rfl) hresolve
            exact hfailed hmade directory (openDirectory_eq_ok_iff.mpr ⟨hresolve, hdirectory, rfl⟩)
        | ok cleared =>
            obtain ⟨hmade, directory, hdirectory, hcleared⟩ :=
              Clearing.cleared_of_prepare_ok ht hprepare
            refine Or.inr ⟨directory, u, cleared, events, hdirectory, hcleared, fun l => ?_, rfl, rfl,
              fun event hevent => List.mem_append_left _ hevent⟩
            constructor
            · intro hclears
              obtain ⟨-, -, other, hother, hreaches⟩ := hclears
              rw [hdirectory] at hother
              cases hother
              exact hreaches
            · intro hreaches
              exact ⟨hsource, hmade, directory, hdirectory, hreaches⟩
  · rw [if_neg hsource]
    exact Or.inl ⟨PartOf.refl t, fun l hclears => hsource hclears.1⟩

/-- A run keeps what it does not clear, unless it writes a module there, which it only can if the
extension holds a separator. -/
theorem get?_run_of_not_clears (ht : t.Plain) (hl : t.get? l = some e) (hclear : ¬ s.Clears t l) :
    (run (fun _ => none) t s p start).tree.get? l = some e ∨
      '/' ∈ s.layout.extension.toList ∧ (run (fun _ => none) t s p start).Writes l := by
  rcases run_cases ht s p start with
    ⟨hpart, -⟩ | ⟨directory, u, cleared, _, hdirectory, hcleared, hclears, htree, hresult, -⟩
  · exact Or.inl (hpart.entry l e hl)
  · obtain ⟨hmade, hpart⟩ := ht.makeDirectories s.destination
    have hkept : u.get? l = some e :=
      hcleared.kept l e (hpart.entry l e hl) (mt (hclears l).mpr hclear)
    unfold Run.Writes
    rw [htree, hresult]
    rcases get?_generate hcleared.plain cleared l with hsame | hwrites
    · exact Or.inl (hsame.trans hkept)
    · refine Or.inr ⟨?_, hwrites⟩
      -- else the module lies right in the destination, which was cleared
      by_contra hextension
      obtain ⟨other, name, hother, rfl⟩ := exists_of_writes hcleared.plain hextension hwrites
      have hsame := hcleared.plain.resolve_within hmade hcleared.partOf.within hother
      rw [hdirectory] at hsame
      cases hsame
      exact hclear ((hclears _).mpr ⟨name, [], rfl, Or.inl rfl⟩)

/-- A run leaves none of the files that it clears, unless it writes a module there, or it has reported
that the entry of its destination that the file is in is kept. -/
theorem get?_run_of_clears (ht : t.Plain) {bytes : ByteArray}
    (hl : t.get? l = some (.file bytes)) (hclear : s.Clears t l) :
    (run (fun _ => none) t s p start).tree.get? l = none ∨
      (run (fun _ => none) t s p start).Writes l ∨
      (run (fun _ => none) t s p start).tree.get? l = some (.file bytes) ∧ s.Retains t p start l := by
  rcases run_cases ht s p start with
    ⟨-, hclears⟩ | ⟨directory, u, cleared, events, hdirectory, hcleared, hclears, htree, hresult,
      hevents⟩
  · exact absurd hclear (hclears l)
  · obtain ⟨-, hpart⟩ := ht.makeDirectories s.destination
    unfold Run.Writes
    rw [htree, hresult]
    rcases get?_generate hcleared.plain cleared l with hsame | hwrites
    · rw [hsame]
      obtain ⟨name, rest, rfl, hreach⟩ := (hclears l).mp hclear
      cases hkept : u.get? (directory ++ name :: rest) with
      | none => exact Or.inl rfl
      | some e =>
          have hbefore := hcleared.partOf.entry _ e hkept
          rw [hpart.entry _ _ hl] at hbefore
          cases hbefore
          obtain ⟨cause, hreported⟩ := hcleared.reported name rest bytes hkept hreach
          exact Or.inr (Or.inr
            ⟨rfl, directory, name, rest, cause, hdirectory, rfl, hevents _ hreported⟩)
    · exact Or.inr (Or.inl hwrites)

/-- **Preservation.** Whatever a plain tree holds, whatever the settings, the provider and its
states, and whether the run succeeds or fails: every declaration file that would have been found
before the run is a file of the tree; it is there afterwards with the same content unless it lies
where the run clears the destination, or the extension holds a separator and a module is written in
its place; and if it lies where the run clears, it is gone unless a module is written there, or it is
unchanged and the run reports that the entry of the destination that it is in is kept. -/
theorem discovered_kept (ht : t.Plain) {files : List Path}
    (hfiles : Discovery.files t s.source s.layout.extension = .ok files) {found : Path}
    (hfound : found ∈ files) (p : Provider σ) (start : Declaration → σ) :
    ∃ l bytes, t.resolve found = .ok l ∧ t.get? l = some (.file bytes) ∧
      (¬ s.Clears t l →
        (run (fun _ => none) t s p start).tree.get? l = some (.file bytes) ∨
          '/' ∈ s.layout.extension.toList ∧ (run (fun _ => none) t s p start).Writes l) ∧
      (s.Clears t l →
        (run (fun _ => none) t s p start).tree.get? l = none ∨
          (run (fun _ => none) t s p start).Writes l ∨
          (run (fun _ => none) t s p start).tree.get? l = some (.file bytes) ∧
            s.Retains t p start l) := by
  obtain ⟨l, bytes, hresolve, hl⟩ := Discovery.file_of_mem_files hfiles hfound
  exact ⟨l, bytes, hresolve, hl, get?_run_of_not_clears ht hl, get?_run_of_clears ht hl⟩

/-- A source and a destination beside each other. -/
def apart : FileTree where
  entries := [(["src"], .directory),
    (["src", "A.interface.ts"], .file "export interface A \x7b\n\x7d\n".toUTF8),
    (["out"], .directory), (["out", "B.stubs.ts"], .file "".toUTF8)]

/-- A run from one directory to another one beside it keeps the declarations. -/
theorem discovered_kept_apart :
    apart.Plain ∧ Discovery.files apart ⟨"src"⟩ "ts" = .ok [⟨"src/A.interface.ts"⟩] ∧
      (run (fun _ => none) apart ⟨⟨"src"⟩, ⟨"out"⟩, {}, true⟩ (Script.provider {})
        fun _ => {}).tree.get? ["src", "A.interface.ts"] =
          some (.file "export interface A \x7b\n\x7d\n".toUTF8) := by
  have hplain : apart.Plain := by decide
  have hfiles : Discovery.files apart ⟨"src"⟩ "ts" = .ok [⟨"src/A.interface.ts"⟩] := by
    decide +kernel
  refine ⟨hplain, hfiles, ?_⟩
  obtain ⟨l, bytes, hresolve, hl, hkept, -⟩ :=
    discovered_kept (s := ⟨⟨"src"⟩, ⟨"out"⟩, {}, true⟩) hplain hfiles List.mem_cons_self
      (Script.provider {}) fun _ => {}
  have hlocation : apart.resolve ⟨"src/A.interface.ts"⟩ = .ok ["src", "A.interface.ts"] := by
    decide +kernel
  rw [hlocation] at hresolve
  cases hresolve
  cases hl
  have hclear : ¬ Settings.Clears ⟨⟨"src"⟩, ⟨"out"⟩, {}, true⟩ apart ["src", "A.interface.ts"] := by
    intro hclears
    obtain ⟨-, -, directory, hdirectory, name, rest, hreach, -⟩ := hclears
    have hout : (apart.makeDirectories ⟨"out"⟩).2.resolve ⟨"out"⟩ = .ok ["out"] := by decide +kernel
    rw [hout] at hdirectory
    cases hdirectory
    simp at hreach
  exact (hkept hclear).resolve_right fun h => absurd h.1 (by decide)

/-- A source that may be its own destination. -/
def together : FileTree where
  entries := [(["src"], .directory),
    (["src", "A.interface.ts"], .file "export interface A \x7b\n\x7d\n".toUTF8)]

/-- A source with a declaration at the path of the module that is made of it, if the extension holds
the separator. -/
def covered : FileTree where
  entries := [(["src"], .directory), (["src", "A.stubs.[].interface.]"], .directory),
    (["src", "A.stubs.[].interface.]", "b"], .file "export interface A \x7b\n\x7d\n".toUTF8)]

/-- A run from a directory to itself clears the declarations away, and it writes over one that it
has not cleared. -/
theorem discovered_lost_together :
    (together.Plain ∧ Discovery.files together ⟨"src"⟩ "ts" = .ok [⟨"src/A.interface.ts"⟩] ∧
      together.find? ⟨"src/A.interface.ts"⟩ =
        some (.file "export interface A \x7b\n\x7d\n".toUTF8) ∧
      (run (fun _ => none) together ⟨⟨"src"⟩, ⟨"src"⟩, {}, false⟩ (Script.provider {})
        fun _ => {}).tree.find? ⟨"src/A.interface.ts"⟩ = none) ∧
    (covered.Plain ∧ Discovery.files covered ⟨"src"⟩ "[].interface.]/b" =
        .ok [⟨"src/A.stubs.[].interface.]/b"⟩] ∧
      (run (fun _ => none) covered ⟨⟨"src"⟩, ⟨"src"⟩, { extension := "[].interface.]/b" }, false⟩
        (Script.provider {}) fun _ => {}).tree.find? ⟨"src/A.stubs.[].interface.]/b"⟩ ≠
          covered.find? ⟨"src/A.stubs.[].interface.]/b"⟩) := by
  decide +kernel

end Generation

end Understudy
