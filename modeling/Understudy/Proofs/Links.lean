import Mathlib.Data.List.Nodup
import Understudy.Proofs.Registry
import Understudy.Proofs.Spelling
import Understudy.Provider.Scripted

/-!
# Understudy.Proofs.Links

**Modules are linked.** A run decides three times over what a field refers to: when it collects the
imports of a module, when it looks for a reference of a declaration to itself, and when it finds the
value. Here they are shown to agree, over all modules of a run: a module imports just the constants
that its first constant spreads, each of them is defined by the one module it is imported from, and
every spread is bound, where it stands, by one import or by one definition.

Names of constants are compared as they are spelled, since that is how one module finds what another
defines. The import of the interface itself binds a name as well. An interface may be called like the
first constant of another one, and if it refers to that one, its module binds the name twice.

## Shape

By `Proofs.Outline`, a constant spreads what `Declaration.link?` says of the fields. Hence everything
is a statement about `Field.target?`, and the only fact about the registry that enters is that a
target is declared in it (`Field.known_of_target?`).
-/

namespace Understudy

variable {σ : Type}

/-! ### What a field refers to -/

theorem Kind.target?_ofName? (name : String) : (Kind.ofName? name).bind Kind.target? = none := by
  unfold Kind.ofName?
  split <;> rfl

theorem Kind.target?_ofType? (typeName : String) : (Kind.ofType? typeName).bind Kind.target? = none := by
  unfold Kind.ofType?
  split <;> rfl

/-- A field refers to nothing but its type, and only if that is known. -/
theorem Field.known_of_target? {known : String → Bool} {field : Field} {interface : String}
    (h : field.target? known = some interface) :
    known interface = true ∧ field.typeName = interface := by
  unfold target? kind? at h
  cases hname : Kind.ofName? field.name with
  | some kind =>
      have hnone := Kind.target?_ofName? field.name
      rw [hname] at h hnone
      exact absurd (h.symm.trans hnone) (by simp)
  | none =>
      cases htype : Kind.ofType? field.typeName with
      | some kind =>
          have hnone := Kind.target?_ofType? field.typeName
          rw [htype] at hnone
          rw [hname, htype] at h
          exact absurd (h.symm.trans hnone) (by simp)
      | none =>
          rw [hname, htype] at h
          cases hknown : known field.typeName with
          | false => simp [hknown] at h
          | true =>
              simp only [hknown, if_true, Option.none_or, Option.bind_some, Kind.target?,
                Option.some.injEq] at h
              exact ⟨h ▸ hknown, h⟩

/-! ### The targets of a module -/

/-- The line that imports the first constant of an interface. -/
def mockImportLine (interface : String) : String :=
  "import \x7b mock" ++ interface ++ "1 \x7d from './" ++ interface ++ ".stubs';\n"

namespace Declaration

theorem text_mockImport (interface : String) :
    (mockImport interface).text = mockImportLine interface := by
  unfold mockImport mockImportLine Import.text
  rw [← MockName.first, MockName.text_first]
  simp only [← String.toList_inj, String.toList_append, List.append_assoc]
  rfl

/-- The interfaces from whose modules a module imports a constant. -/
def targets (d : Declaration) (known : String → Bool) : List String :=
  (d.references known).filter (· ≠ d.name)

theorem mem_targets_iff {d : Declaration} {known : String → Bool} {interface : String} :
    interface ∈ d.targets known ↔
      interface ≠ d.name ∧ ∃ field ∈ d.fields, field.target? known = some interface := by
  unfold targets references
  rw [List.mem_filter, List.mem_eraseDups, List.mem_filterMap, decide_eq_true_eq, and_comm]

theorem nodup_targets (d : Declaration) (known : String → Bool) : (d.targets known).Nodup :=
  (nodup_eraseDups _).filter _

theorem importText_document (d : Declaration) (known : String → Bool) (layout : Layout)
    (p : Provider σ) (s : Session σ) :
    ((d.document known layout p).run s).1.importText =
      (d.ownImport layout).text ++ String.join ((d.targets known).map mockImportLine) := by
  unfold Document.importText
  rw [imports_document]
  have hlines : (d.imports known layout).map Import.text =
      (d.ownImport layout).text :: (d.targets known).map mockImportLine := by
    unfold imports targets
    rw [List.map_cons, List.map_map]
    exact congrArg _ (List.map_congr_left fun interface _ => text_mockImport interface)
  rw [hlines, String.join_cons]

end Declaration

/-! ### Spreads of a constant, read off its outline -/

namespace Constant

/-- How many properties stand before the first one that spreads a name. -/
def firstUse (c : Constant) (name : String) : Nat :=
  c.properties.findIdx fun q => decide (q.Spreads name)

/-- The name that an outline of a property spreads, if any. -/
private def spreadsOutline (name : String) (o : String × Option MockName) : Bool :=
  decide (∃ m, o.2 = some m ∧ m.text = name)

variable {d : Declaration} {known : String → Bool} {index : Nat} {c : Constant}

/-- A constant spreads the first constants that its fields lead to and nothing else. -/
theorem spreads_iff_of_outline (h : c.outline = d.outline known index) {name : String} :
    (∃ q ∈ c.properties, q.Spreads name) ↔
      ∃ field ∈ d.fields, ∃ interface, d.link? known index field = some interface ∧
        (MockName.first interface).text = name := by
  have houtlines : c.properties.map Property.outline = _ := congrArg Prod.snd h
  constructor
  · intro hproperty
    obtain ⟨q, hq, hspreads⟩ := hproperty
    obtain ⟨m, hm, rfl⟩ := Property.spreads_iff.mp hspreads
    have hmem := List.mem_map_of_mem (f := Property.outline) hq
    rw [houtlines] at hmem
    obtain ⟨field, hfield, heq⟩ := List.mem_map.mp hmem
    have hlink : (d.link? known index field).map _ = some m := (congrArg Prod.snd heq).trans hm
    obtain ⟨interface, hinterface, rfl⟩ := Option.map_eq_some_iff.mp hlink
    exact ⟨field, hfield, interface, hinterface, rfl⟩
  · intro hfield
    obtain ⟨field, hfield, interface, hlink, rfl⟩ := hfield
    have hmem : d.fieldOutline known index field ∈ c.properties.map Property.outline := by
      rw [houtlines]
      exact List.mem_map_of_mem hfield
    obtain ⟨q, hq, heq⟩ := List.mem_map.mp hmem
    have hm : q.value.spread? = some (MockName.first interface) := by
      rw [show q.value.spread? = (d.link? known index field).map _ from congrArg Prod.snd heq, hlink]
      rfl
    exact ⟨q, hq, Property.spreads_iff.mpr ⟨_, hm, rfl⟩⟩

/-- The first use of a target in the first constant is the first field that refers to it. -/
theorem firstUse_of_outline (h : c.outline = d.outline known 1) {interface : String}
    (hne : interface ≠ d.name) :
    c.firstUse ((MockName.first interface).text) =
      d.fields.findIdx fun field => decide (field.target? known = some interface) := by
  have houtlines : c.properties.map Property.outline = _ := congrArg Prod.snd h
  have huse : c.firstUse ((MockName.first interface).text) =
      (c.properties.map Property.outline).findIdx
        (spreadsOutline ((MockName.first interface).text)) := by
    rw [List.findIdx_map]
    refine congrArg (c.properties.findIdx ·) (funext fun q => ?_)
    exact decide_eq_decide.mpr Property.spreads_iff
  rw [huse, houtlines, Declaration.outline, List.findIdx_map]
  refine congrArg (d.fields.findIdx ·) (funext fun field => decide_eq_decide.mpr ?_)
  constructor
  · intro hspread
    obtain ⟨m, hm, htext⟩ := hspread
    obtain ⟨target, htarget, rfl⟩ := Option.map_eq_some_iff.mp hm
    cases MockName.text_first_inj.mp htext
    exact ((d.link?_one_eq_some_iff known field interface).mp htarget).1
  · intro htarget
    have hlink := (d.link?_one_eq_some_iff known field interface).mpr ⟨htarget, hne⟩
    exact ⟨MockName.first interface, congrArg (Option.map MockName.first) hlink, rfl⟩

end Constant

/-! ### The modules of a run -/

/-- The names that a module binds: those of its imports, and those of its constants. -/
def Document.boundNames (document : Document) : List String :=
  document.imports.map Import.name ++ document.constants.map fun c => c.name.text

/-- How the module of a declaration is linked, in itself and to the modules of its run, if the
constants it imports are the first ones of the targets. -/
structure Linked (r : Registry) (layout : Layout) (p : Provider σ) (start : Declaration → σ)
    (d : Declaration) (targets : List String) : Prop where
  /-- After the import of the interface itself, there is one line for each target. -/
  imports : (r.document layout p start d).importText =
    (d.ownImport layout).text ++ String.join (targets.map mockImportLine)
  /-- The targets are the other interfaces that the first constant spreads, each once, in the order
  in which it first uses them. -/
  used : ∃ first rest, (r.document layout p start d).constants = first :: rest ∧
    first.name = MockName.first d.name ∧
    (∀ interface, interface ∈ targets ↔ interface ≠ d.name ∧
      ∃ q ∈ first.properties, q.Spreads (MockName.first interface).text) ∧
    targets.Nodup ∧
    targets.Pairwise fun one other =>
      first.firstUse (MockName.first one).text < first.firstUse (MockName.first other).text
  /-- The file that a target is imported from is that of one module of the run, and this module
  defines the constant. -/
  resolved : ∀ interface ∈ targets, ∃ e ∈ r.declarations, e.name = interface ∧
    (r.modules layout p start).filter
        (fun m => m.fileName = interface ++ ".stubs." ++ layout.extension) =
      [⟨interface, interface ++ ".stubs." ++ layout.extension,
        (r.document layout p start e).text⟩] ∧
    ∃ c ∈ (r.document layout p start e).constants, c.name = MockName.first interface
  /-- Of its own constants, the module spreads the first one alone, and in later ones alone. -/
  own : ∀ before c after, (r.document layout p start d).constants = before ++ c :: after →
    ∀ q ∈ c.properties, ∀ e ∈ (r.document layout p start d).constants, q.Spreads e.name.text →
      2 ≤ c.name.index ∧ e.name = MockName.first d.name ∧ e ∈ before
  /-- No imported constant has the name of a constant that the module defines. -/
  disjoint : ∀ interface ∈ targets, ∀ c ∈ (r.document layout p start d).constants,
    (MockName.first interface).text ≠ c.name.text
  /-- Whatever a constant spreads is the first constant of a target or defined before. Nothing else that
  the module imports or defines binds its name; only the import of the interface itself does so as well
  if the interface has that name. -/
  bound : ∀ before c after, (r.document layout p start d).constants = before ++ c :: after →
    ∀ q ∈ c.properties, ∀ name, q.Spreads name →
      name ∈ (targets.map fun interface => (MockName.first interface).text) ++
        (before.map fun e => e.name.text) ∧
      (r.document layout p start d).boundNames.count name = if name = d.name then 2 else 1
  /-- An interface whose own name is spread is called like the first constant of a target. -/
  collision : ∀ c ∈ (r.document layout p start d).constants, ∀ q ∈ c.properties, q.Spreads d.name →
    ∃ interface ∈ targets, d.name = (MockName.first interface).text

namespace Registry

variable (r : Registry) (layout : Layout) (p : Provider σ) (start : Declaration → σ)
variable {d : Declaration}

/-- A module has a first constant. -/
theorem exists_first (d : Declaration) :
    ∃ first rest, (r.document layout p start d).constants = first :: rest ∧
      first.outline = d.outline r.contains 1 := by
  cases h : (r.document layout p start d).constants with
  | nil =>
      have hnames := r.constantNames layout p start d
      rw [h] at hnames
      cases hmode : layout.mode <;> rw [hmode] at hnames <;> cases hnames
  | cons first rest =>
      have hsplit : (r.document layout p start d).constants = [] ++ first :: rest := h
      exact ⟨first, rest, rfl, (r.outline_of_split layout p start hsplit).1⟩

/-- The names of the constants of a module are those of its interface, with numbers of one digit. -/
theorem name_of_mem_constants {c : Constant} (h : c ∈ (r.document layout p start d).constants) :
    c.name.interface = d.name ∧ c.name.index < 10 := by
  have hmem := List.mem_map_of_mem (f := Constant.name) h
  rw [constantNames] at hmem
  obtain ⟨index, hindex, hname⟩ := List.mem_map.mp hmem
  have hcount : layout.mode.constantCount ≤ 2 := by cases layout.mode <;> decide
  obtain ⟨i, hi, rfl⟩ := List.mem_range'.mp hindex
  rw [← hname]
  exact ⟨rfl, by show 1 + 1 * i < 10; omega⟩

/-- A first constant that has the name of a constant of a module is the first one of its interface. -/
theorem eq_first_of_text_eq {c : Constant} {interface : String}
    (h : c ∈ (r.document layout p start d).constants)
    (htext : (MockName.first interface).text = c.name.text) :
    interface = d.name ∧ c.name = MockName.first d.name := by
  obtain ⟨hinterface, hindex⟩ := r.name_of_mem_constants layout p start h
  have hlt : (MockName.first interface).index < 10 := by show 1 < 10; decide
  have hname := (MockName.text_inj hlt hindex).mp htext
  have hd : interface = d.name := by rw [← hinterface, ← hname]; rfl
  exact ⟨hd, by rw [← hname, hd]⟩

/-- Constants of a module have names of their own. -/
theorem nodup_constantTexts (d : Declaration) :
    ((r.document layout p start d).constants.map fun c => c.name.text).Nodup := by
  have hnames : ((r.document layout p start d).constants.map Constant.name).Nodup := by
    rw [constantNames]
    exact (List.nodup_range' 1).map fun m n h => congrArg MockName.index h
  have hmap : ((r.document layout p start d).constants.map fun c => c.name.text) =
      ((r.document layout p start d).constants.map Constant.name).map MockName.text := by
    rw [List.map_map]
    rfl
  rw [hmap]
  refine hnames.map_on fun m hm n hn h => ?_
  obtain ⟨c, hc, rfl⟩ := List.mem_map.mp hm
  obtain ⟨e, he, rfl⟩ := List.mem_map.mp hn
  exact (MockName.text_inj (r.name_of_mem_constants layout p start hc).2
    (r.name_of_mem_constants layout p start he).2).mp h

/-- What a constant of a module spreads: the first constant of a target, or, in a later constant,
the first one of the module itself. -/
theorem cases_of_spreads {before after : List Constant} {c : Constant}
    (h : (r.document layout p start d).constants = before ++ c :: after) {q : Property}
    (hq : q ∈ c.properties) {name : String} (hspreads : q.Spreads name) :
    (∃ interface ∈ d.targets r.contains, name = (MockName.first interface).text) ∨
      (before ≠ [] ∧ name = (MockName.first d.name).text) := by
  obtain ⟨houtline, -⟩ := r.outline_of_split layout p start h
  obtain ⟨field, hfield, interface, hlink, rfl⟩ :=
    (Constant.spreads_iff_of_outline houtline).mp ⟨q, hq, hspreads⟩
  cases before with
  | nil =>
      obtain ⟨htarget, hne⟩ := (d.link?_one_eq_some_iff _ field interface).mp hlink
      exact Or.inl ⟨interface, Declaration.mem_targets_iff.mpr ⟨hne, field, hfield, htarget⟩, rfl⟩
  | cons first rest =>
      rw [d.link?_of_ne_one _ (by simp)] at hlink
      by_cases hname : interface = d.name
      · exact Or.inr ⟨List.cons_ne_nil _ _, by rw [hname]⟩
      · exact Or.inl ⟨interface, Declaration.mem_targets_iff.mpr ⟨hname, field, hfield, hlink⟩, rfl⟩

/-- The first constant of a module stands before every later one. -/
theorem first_mem_of_split {before after : List Constant} {c : Constant}
    (h : (r.document layout p start d).constants = before ++ c :: after) (hne : before ≠ []) :
    ∃ first ∈ before, first.name = MockName.first d.name := by
  obtain ⟨first, rest, hsplit, houtline⟩ := r.exists_first layout p start d
  cases before with
  | nil => exact absurd rfl hne
  | cons a before =>
      rw [hsplit] at h
      obtain ⟨rfl, -⟩ := List.cons.inj h
      exact ⟨first, List.mem_cons_self, congrArg Prod.fst houtline⟩

/-- The first constant of a module spreads the first constants of its targets, and no others. -/
theorem mem_targets_iff_spreads {first : Constant} (h : first.outline = d.outline r.contains 1)
    (interface : String) :
    interface ∈ d.targets r.contains ↔ interface ≠ d.name ∧
      ∃ q ∈ first.properties, q.Spreads (MockName.first interface).text := by
  rw [Declaration.mem_targets_iff, Constant.spreads_iff_of_outline h]
  refine and_congr_right fun hne => ⟨?_, ?_⟩
  · intro hfield
    obtain ⟨field, hfield, htarget⟩ := hfield
    exact ⟨field, hfield, interface,
      (d.link?_one_eq_some_iff _ field interface).mpr ⟨htarget, hne⟩, rfl⟩
  · intro hspread
    obtain ⟨field, hfield, target, hlink, htext⟩ := hspread
    cases MockName.text_first_inj.mp htext
    exact ⟨field, hfield, ((d.link?_one_eq_some_iff _ field interface).mp hlink).1⟩

theorem pairwise_targets {first : Constant} (h : first.outline = d.outline r.contains 1) :
    (d.targets r.contains).Pairwise fun one other =>
      first.firstUse (MockName.first one).text < first.firstUse (MockName.first other).text := by
  have horder := pairwise_eraseDups_filterMap d.fields (Field.target? r.contains)
  refine (horder.filter _).imp_of_mem fun {one other} hone hother hlt => ?_
  have hne := (List.mem_filter.mp hone).2
  have hneOther := (List.mem_filter.mp hother).2
  rw [Constant.firstUse_of_outline h (by simpa using hne),
    Constant.firstUse_of_outline h (by simpa using hneOther)]
  exact hlt

/-- A run makes one module with the file name of an interface that is declared. -/
theorem filter_modules {e : Declaration} (h : e ∈ r.declarations) :
    (r.modules layout p start).filter
        (fun m => m.fileName = e.name ++ ".stubs." ++ layout.extension) =
      [⟨e.name, e.name ++ ".stubs." ++ layout.extension, (r.document layout p start e).text⟩] := by
  rw [modules_eq, List.filter_map]
  have hname : ((fun m : MockModule => decide (m.fileName = e.name ++ ".stubs." ++ layout.extension)) ∘
      fun d => ⟨d.name, MockModule.fileNameOf d.name layout.extension,
        (r.document layout p start d).text⟩) = fun d : Declaration => decide (d.name = e.name) := by
    funext d
    refine decide_eq_decide.mpr ⟨fun hfile => ?_, fun hd => ?_⟩
    · exact (String.append_left_inj _).mp ((String.append_left_inj _).mp hfile)
    · show d.name ++ ".stubs." ++ layout.extension = _
      rw [hd]
  rw [hname, filter_name_eq h]
  rfl

/-- Interfaces that a field refers to are declared. -/
theorem exists_of_mem_targets {interface : String} (h : interface ∈ d.targets r.contains) :
    interface ≠ d.name ∧ ∃ e ∈ r.declarations, e.name = interface := by
  obtain ⟨hne, field, -, htarget⟩ := Declaration.mem_targets_iff.mp h
  exact ⟨hne, (r.contains_iff interface).mp (Field.known_of_target? htarget).1⟩

theorem disjoint_targets {interface : String} (h : interface ∈ d.targets r.contains) {c : Constant}
    (hc : c ∈ (r.document layout p start d).constants) :
    (MockName.first interface).text ≠ c.name.text := fun htext =>
  (r.exists_of_mem_targets h).1 (r.eq_first_of_text_eq layout p start hc htext).1

/-- The constants that a module imports or defines have names of their own. -/
theorem nodup_boundTexts (d : Declaration) :
    (((d.targets r.contains).map fun interface => (MockName.first interface).text) ++
      (r.document layout p start d).constants.map fun c => c.name.text).Nodup := by
  refine List.nodup_append.mpr ⟨?_, r.nodup_constantTexts layout p start d, ?_⟩
  · exact (d.nodup_targets r.contains).map fun one other h => MockName.text_first_inj.mp h
  · intro name hname other hother
    obtain ⟨interface, hinterface, rfl⟩ := List.mem_map.mp hname
    obtain ⟨c, hc, rfl⟩ := List.mem_map.mp hother
    exact r.disjoint_targets layout p start hinterface hc

/-- The import of the interface itself binds its name, beside the names of the constants. -/
theorem boundNames_document (d : Declaration) :
    (r.document layout p start d).boundNames =
      d.name :: (((d.targets r.contains).map fun interface => (MockName.first interface).text) ++
        (r.document layout p start d).constants.map fun c => c.name.text) := by
  have himports : (r.document layout p start d).imports = d.imports r.contains layout :=
    d.imports_document r.contains p layout _
  unfold Document.boundNames
  rw [himports, Declaration.imports, List.map_cons, List.map_map]
  rfl

theorem linked (d : Declaration) : Linked r layout p start d (d.targets r.contains) where
  imports := d.importText_document r.contains layout p _
  used := by
    obtain ⟨first, rest, hsplit, houtline⟩ := r.exists_first layout p start d
    exact ⟨first, rest, hsplit, congrArg Prod.fst houtline, r.mem_targets_iff_spreads houtline,
      d.nodup_targets r.contains, r.pairwise_targets houtline⟩
  resolved := by
    intro interface h
    obtain ⟨-, e, he, rfl⟩ := r.exists_of_mem_targets h
    obtain ⟨first, rest, hsplit, houtline⟩ := r.exists_first layout p start e
    exact ⟨e, he, rfl, r.filter_modules layout p start he, first,
      hsplit ▸ List.mem_cons_self, congrArg Prod.fst houtline⟩
  own := by
    intro before c after hsplit q hq e he hspreads
    rcases r.cases_of_spreads layout p start hsplit hq hspreads with
      ⟨interface, hinterface, htext⟩ | ⟨hne, htext⟩
    · exact absurd htext.symm (r.disjoint_targets layout p start hinterface he)
    · obtain ⟨-, hname⟩ := r.eq_first_of_text_eq layout p start he htext.symm
      obtain ⟨first, hfirst, hfirstName⟩ := r.first_mem_of_split layout p start hsplit hne
      -- constants with one name are one constant, so `e` is the first one
      have hsame : first = e := by
        refine List.inj_on_of_nodup_map (r.nodup_constantTexts layout p start d) ?_ he ?_
        · rw [hsplit]
          exact List.mem_append_left _ hfirst
        · rw [hfirstName, hname]
      have hindex : c.name.index = before.length + 1 :=
        congrArg (fun o => o.1.index) (r.outline_of_split layout p start hsplit).1
      have hlength : 0 < before.length := List.length_pos_iff.mpr hne
      exact ⟨by omega, hname, hsame ▸ hfirst⟩
  disjoint := fun interface h c hc => r.disjoint_targets layout p start h hc
  bound := by
    intro before c after hsplit q hq name hspreads
    have hmem : name ∈ ((d.targets r.contains).map fun interface => (MockName.first interface).text) ++
        before.map fun e => e.name.text := by
      rcases r.cases_of_spreads layout p start hsplit hq hspreads with
        ⟨interface, hinterface, rfl⟩ | ⟨hne, rfl⟩
      · exact List.mem_append_left _ (List.mem_map_of_mem hinterface)
      · obtain ⟨first, hfirst, hname⟩ := r.first_mem_of_split layout p start hsplit hne
        exact List.mem_append_right _ (List.mem_map.mpr ⟨first, hfirst, by rw [hname]⟩)
    have hone := List.count_eq_one_of_mem (r.nodup_boundTexts layout p start d) (a := name) (by
      rw [hsplit, List.map_append, ← List.append_assoc]
      exact List.mem_append_left _ hmem)
    refine ⟨hmem, ?_⟩
    rw [boundNames_document, List.count_cons, hone]
    by_cases hname : name = d.name
    · simp [hname]
    · simp [hname, Ne.symm hname]
  collision := by
    intro c hc q hq hspreads
    obtain ⟨before, after, hsplit⟩ := List.append_of_mem hc
    rcases r.cases_of_spreads layout p start hsplit hq hspreads with h | ⟨-, hname⟩
    · exact h
    · exact absurd hname (MockName.ne_text_first d.name)

/-- **Link closure.** Whatever declarations have been registered, whatever the layout, the provider
and its states: the modules of a run correspond to the declarations one by one, and each of them is
linked. -/
theorem modules_linked (ds : List Declaration) :
    List.Forall₂ (fun d m =>
        m = ⟨d.name, d.name ++ ".stubs." ++ layout.extension,
          ((ofList ds).document layout p start d).text⟩ ∧
        ∃ targets, Linked (ofList ds) layout p start d targets)
      (ofList ds).declarations ((ofList ds).modules layout p start) := by
  rw [modules_eq, List.forall₂_map_right_iff, List.forall₂_same]
  exact fun d _ => ⟨rfl, d.targets _, (ofList ds).linked layout p start d⟩

/-- An interface, and one that refers to it and is called like its first constant. -/
def colliding : List Declaration :=
  [⟨"A", ⟨"A.interface.ts"⟩, []⟩, ⟨"mockA1", ⟨"mockA1.interface.ts"⟩, [⟨"x", "A", false⟩]⟩]

/-- The second module imports the name that it spreads twice: as its own type, and as the constant. -/
theorem boundNames_colliding :
    (((ofList colliding).modules {} (Script.provider {}) fun _ => {}).map MockModule.content =
      ["import \x7b A \x7d from 'A.interface';\n\nexport const mockA1: A = \x7b\x7d;\n",
        "import \x7b mockA1 \x7d from 'mockA1.interface';\n" ++
          "import \x7b mockA1 \x7d from './A.stubs';\n\n" ++
          "export const mockmockA11: mockA1 = \x7b\n    x: \x7b...mockA1\x7d\n\x7d;\n"]) ∧
      ((ofList colliding).document {} (Script.provider {}) (fun _ => {})
        ⟨"mockA1", ⟨"mockA1.interface.ts"⟩, [⟨"x", "A", false⟩]⟩).boundNames =
          ["mockA1", "mockA1", "mockmockA11"] := by
  decide +kernel

end Registry

end Understudy
