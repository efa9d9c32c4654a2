import Understudy.Proofs.Line
import Understudy.Proofs.Outline
import Understudy.Proofs.Registry

/-!
# Understudy.Proofs.Conservation

From declaration files to modules nothing is lost, made up or moved. There is one module for each
name that the files declare, in the order in which the names first come (`interfaces_modules`), and
a module is made from the last file that declares its name: it imports the interface from there, and
each of its constants has one property for each property line of that file
(`conserved_of_mem_modules`).

The three stages meet in `Registry.ofFiles`. What a file says is known from `parse?_eq`, which
declarations are left from `last_of_mem_ofList`, and what is drafted from `outlines`.
-/

namespace Understudy

variable {σ : Type}

/-- How a module stems from the files of its run. -/
structure Conserved (files : List (Path × String)) (layout : Layout) (p : Provider σ)
    (start : Declaration → σ) (m : MockModule) : Prop where
  fileName : m.fileName = m.interface ++ ".stubs." ++ layout.extension
  /-- The content of the module comes from the last file that declares its interface. -/
  source : ∃ before path text after, files = before ++ (path, text) :: after ∧
    declaredName? text = some m.interface ∧
    (∀ file ∈ after, declaredName? file.2 ≠ some m.interface) ∧
    ∃ document : Document,
      document = (Registry.ofFiles files).document layout p start
        ⟨m.interface, path, declaredFields text⟩ ∧
      m.content = document.text ∧
      (∃ others, document.imports = ⟨m.interface, Specifier.dropExtension layout.extension
        (layout.directory.elim (Specifier.ofPath path) (Specifier.relative path))⟩ :: others) ∧
      document.constants.map Constant.name =
        (List.range' 1 layout.mode.constantCount).map (MockName.mk m.interface) ∧
      ∀ c ∈ document.constants,
        c.properties.map Property.name = (declaredFields text).map Field.name

theorem Declaration.specifier_eq (d : Declaration) (layout : Layout) :
    d.specifier layout = Specifier.dropExtension layout.extension
      (layout.directory.elim (Specifier.ofPath d.path) (Specifier.relative d.path)) := by
  unfold specifier
  cases layout.directory <;> rfl

namespace Registry

/-! ### What the files declare -/

/-- Files that bring no name do not matter. -/
theorem ofFiles_filter (files : List (Path × String)) :
    ofFiles (files.filter fun file => (declaredName? file.2).isSome) = ofFiles files := by
  unfold ofFiles
  rw [List.filterMap_filter]
  congr 2
  funext file
  rw [Declaration.parse?_eq]
  cases declaredName? file.2 <;> rfl

/-- The names of a run are those that its files bring, in the order in which they first come. -/
theorem names_ofFiles (files : List (Path × String)) :
    (ofFiles files).names = (files.filterMap fun file => declaredName? file.2).eraseDups := by
  rw [ofFiles, names_ofList, List.map_filterMap]
  congr 2
  funext file
  rw [Declaration.parse?_eq]
  cases declaredName? file.2 <;> rfl

/-- A declaration of a run is made by the last file that brings its name. -/
theorem last_of_mem_ofFiles {files : List (Path × String)} {d : Declaration}
    (h : d ∈ (ofFiles files).declarations) :
    ∃ before path text after, files = before ++ (path, text) :: after ∧
      declaredName? text = some d.name ∧ d = ⟨d.name, path, declaredFields text⟩ ∧
      ∀ file ∈ after, declaredName? file.2 ≠ some d.name := by
  obtain ⟨ds, later, hsplit, hlast⟩ := last_of_mem_ofList h
  obtain ⟨before, rest, rfl, -, hrest⟩ := List.filterMap_eq_append_iff.mp hsplit
  obtain ⟨skipped, ⟨path, text⟩, after, rfl, -, hparse, hafter⟩ :=
    List.filterMap_eq_cons_iff.mp hrest
  rw [Declaration.parse?_eq] at hparse
  obtain ⟨name, hname, rfl⟩ := Option.map_eq_some_iff.mp hparse
  refine ⟨before ++ skipped, path, text, after, by rw [List.append_assoc], hname, rfl, ?_⟩
  -- a later file that brings the name would have put a later declaration in
  intro file hfile hbrings
  have hmem : (⟨name, file.1, declaredFields file.2⟩ : Declaration) ∈ later := by
    rw [← hafter]
    exact List.mem_filterMap.mpr ⟨file, hfile, by rw [Declaration.parse?_eq, hbrings]; rfl⟩
  exact hlast _ hmem rfl

/-! ### What the modules say -/

variable (layout : Layout) (p : Provider σ) (start : Declaration → σ)

/-- The constants of a module have one property for each field, in order. -/
theorem propertyNames (r : Registry) {d : Declaration} {c : Constant}
    (h : c ∈ (r.document layout p start d).constants) :
    c.properties.map Property.name = d.fields.map Field.name := by
  have hmem := List.mem_map_of_mem (f := Constant.outline) h
  rw [outlines] at hmem
  obtain ⟨index, -, houtline⟩ := List.mem_map.mp hmem
  have hnames := congrArg (fun outline => outline.2.map Prod.fst) houtline
  simp only [Constant.outline, Declaration.outline, List.map_map] at hnames
  exact hnames.symm

theorem interfaces_modules (r : Registry) :
    (r.modules layout p start).map MockModule.interface = r.names := by
  rw [modules_eq, List.map_map]
  rfl

/-- Modules of a run have file names of their own. -/
theorem nodup_fileNames (r : Registry) :
    ((r.modules layout p start).map MockModule.fileName).Nodup := by
  have hfile : (r.modules layout p start).map MockModule.fileName =
      r.names.map fun name => MockModule.fileNameOf name layout.extension := by
    rw [modules_eq, names, List.map_map, List.map_map]
    rfl
  rw [hfile]
  refine List.Nodup.map (fun one other heq => ?_) r.nodup
  exact (String.append_left_inj _).mp ((String.append_left_inj _).mp heq)

theorem conserved_of_mem_modules (files : List (Path × String)) {m : MockModule}
    (h : m ∈ (ofFiles files).modules layout p start) : Conserved files layout p start m := by
  rw [modules_eq, List.mem_map] at h
  obtain ⟨d, hd, rfl⟩ := h
  obtain ⟨before, path, text, after, hfiles, hname, hdeclared, hlast⟩ := last_of_mem_ofFiles hd
  refine ⟨rfl, before, path, text, after, hfiles, hname, hlast, _, rfl, ?_⟩
  show _ ∧ _
  rw [← hdeclared]
  refine ⟨rfl, ⟨((d.references (ofFiles files).contains).filter (· ≠ d.name)).map
    Declaration.mockImport, ?_⟩, constantNames _ layout p start d, fun c hc => ?_⟩
  · have hpath : d.path = path := congrArg Declaration.path hdeclared
    rw [← hpath, ← Declaration.specifier_eq]
    rfl
  · have hfields : d.fields = declaredFields text := congrArg Declaration.fields hdeclared
    rw [propertyNames layout p start _ hc, hfields]

/-- **Conservation.** Whatever the files of a run are, and whatever the layout, the provider and its
states: the modules correspond in order to the names that the files bring, each where it first
comes, no two have one file name, each stems from the last file that brings its name, and files that
bring no name could as well be left out. -/
theorem modules_conserved (files : List (Path × String)) :
    ((ofFiles files).modules layout p start).map MockModule.interface =
      (files.filterMap fun file => declaredName? file.2).eraseDups ∧
    (((ofFiles files).modules layout p start).map MockModule.fileName).Nodup ∧
    (∀ m ∈ (ofFiles files).modules layout p start, Conserved files layout p start m) ∧
    (ofFiles (files.filter fun file => (declaredName? file.2).isSome)).modules layout p start =
      (ofFiles files).modules layout p start := by
  refine ⟨?_, nodup_fileNames layout p start _, ?_, by rw [ofFiles_filter]⟩
  · rw [interfaces_modules, names_ofFiles]
  · exact fun m hm => conserved_of_mem_modules layout p start files hm

end Registry

end Understudy
