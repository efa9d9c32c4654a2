import Understudy.Proofs.Draws
import Understudy.Proofs.Membership
import Understudy.Provider.Scripted

/-!
# Understudy.Proofs.NamedFields

**Names come before types.** Some names of fields settle what stands for the field, and then its type
is not looked at: neither where imports are collected, nor where a reference of a declaration to itself
is looked for, nor where the value is found. So a declaration may be **retyped** at such fields without
any change to its module, to the draws and to the events (`Declaration.draft_of_retyped`).

All three questions are answered by `Field.kind?`. For a named field it is the kind of the name
(`Field.IsNamed.kind?_eq`), which is never a reference, and that is all that is used of the table of
names.
-/

namespace Understudy

variable {σ : Type} {known : String → Bool}

/-! ### Named fields -/

namespace Field

variable {field other : Field}

/-- Whether the name of a field settles what stands for it. -/
def IsNamed (field : Field) : Prop := (Kind.ofName? field.name).isSome

instance (field : Field) : Decidable field.IsNamed := inferInstanceAs (Decidable (_ = true))

theorem IsNamed.kind?_eq (h : field.IsNamed) : field.kind? known = Kind.ofName? field.name := by
  obtain ⟨kind, hkind⟩ := Option.isSome_iff_exists.mp h
  rw [kind?, hkind, Option.some_or]

/-- A named field refers to no interface. -/
theorem IsNamed.target?_eq_none (h : field.IsNamed) : field.target? known = none := by
  rw [target?, h.kind?_eq, Kind.target?_ofName?]

theorem IsNamed.kind?_ne_none (h : field.IsNamed) : field.kind? known ≠ none := by
  rw [h.kind?_eq]
  exact Option.isSome_iff_ne_none.mp h

/-- Whether two fields differ in nothing but the type, and in that only if they are named. -/
structure Retypes (field other : Field) : Prop where
  name : other.name = field.name
  isArray : other.isArray = field.isArray
  typeName : field.IsNamed ∨ other.typeName = field.typeName

namespace Retypes

theorem isNamed (h : field.Retypes other) (hnamed : field.IsNamed) : other.IsNamed := by
  rw [IsNamed, h.name]
  exact hnamed

theorem eq_of_not_isNamed (h : field.Retypes other) (hnamed : ¬field.IsNamed) : other = field := by
  cases field
  cases other
  obtain ⟨rfl, rfl, htype⟩ := h
  obtain rfl := htype.resolve_left hnamed
  rfl

theorem kind?_eq (h : field.Retypes other) : other.kind? known = field.kind? known := by
  by_cases hnamed : field.IsNamed
  · rw [hnamed.kind?_eq, (h.isNamed hnamed).kind?_eq, h.name]
  · rw [h.eq_of_not_isNamed hnamed]

theorem target?_eq (h : field.Retypes other) : other.target? known = field.target? known := by
  rw [target?, target?, h.kind?_eq]

theorem literal_eq (h : field.Retypes other) (p : Provider σ) :
    other.literal p known = field.literal p known := by
  by_cases hnamed : field.IsNamed
  · obtain ⟨kind, hkind⟩ : ∃ kind, field.kind? known = some kind :=
      Option.ne_none_iff_exists'.mp hnamed.kind?_ne_none
    rw [literal, literal, h.kind?_eq, hkind, h.isArray]
  · rw [h.eq_of_not_isNamed hnamed]

theorem filterMap_target?_eq {fields others : List Field} (h : List.Forall₂ Retypes fields others) :
    others.filterMap (target? known) = fields.filterMap (target? known) := by
  induction h with
  | nil => rfl
  | cons hfield _ ih => rw [List.filterMap_cons, List.filterMap_cons, hfield.target?_eq, ih]

end Retypes

end Field

/-! ### Retyped declarations -/

namespace Declaration

variable (d : Declaration) {field : Field} (p : Provider σ)

theorem isSelfReference_of_isNamed (h : field.IsNamed) : d.isSelfReference known field = false := by
  rw [isSelfReference, h.target?_eq_none]
  rfl

theorem property_of_isNamed (h : field.IsNamed) (index : Nat) :
    d.property known p index field = do return ⟨field.name, ← field.literal p known⟩ := by
  rw [property, d.isSelfReference_of_isNamed h, if_neg (by simp)]

end Declaration

/-- Whether two declarations differ in nothing but the types of named fields. -/
structure Declaration.Retypes (d e : Declaration) : Prop where
  name : e.name = d.name
  path : e.path = d.path
  fields : List.Forall₂ Field.Retypes d.fields e.fields

namespace Declaration.Retypes

variable {d e : Declaration} (h : d.Retypes e)

include h

theorem references_eq : e.references known = d.references known := by
  rw [references, references, Field.Retypes.filterMap_target?_eq h.fields]

theorem imports_eq (layout : Layout) : e.imports known layout = d.imports known layout := by
  have hspecifier : e.specifier layout = d.specifier layout := by
    rw [specifier, specifier, h.path]
  rw [imports, imports, ownImport, ownImport, hspecifier, h.name, h.references_eq]

theorem property_eq (p : Provider σ) (index : Nat) {field other : Field}
    (hfield : field.Retypes other) :
    e.property known p index other = d.property known p index field := by
  by_cases hnamed : field.IsNamed
  · rw [property_of_isNamed e p (hfield.isNamed hnamed), property_of_isNamed d p hnamed,
      hfield.literal_eq, hfield.name]
  · rw [hfield.eq_of_not_isNamed hnamed, property, property, isSelfReference, isSelfReference, h.name]

theorem constant_eq (p : Provider σ) (index : Nat) :
    e.constant known p index = d.constant known p index := by
  have hproperties : d.fields.mapM (d.property known p index) =
      e.fields.mapM (e.property known p index) :=
    Drafting.mapM_eq_of_forall₂ <| h.fields.imp fun _ _ hfield => (h.property_eq p index hfield).symm
  rw [constant, constant, h.name, hproperties]

theorem mockModule_eq (r : Registry) (layout : Layout) (p : Provider σ) :
    e.mockModule r layout p = d.mockModule r layout p := by
  have hconstants : e.constant r.contains p = d.constant r.contains p :=
    funext fun index => h.constant_eq p index
  rw [mockModule, mockModule, document, document, h.imports_eq, hconstants, h.name]

end Declaration.Retypes

namespace Declaration

/-- A declaration without its named fields. -/
def withoutNamed (d : Declaration) : Declaration :=
  { d with fields := d.fields.filter fun field => ¬field.IsNamed }

theorem imports_withoutNamed (d : Declaration) (layout : Layout) :
    d.withoutNamed.imports known layout = d.imports known layout := by
  have htargets : d.withoutNamed.fields.filterMap (Field.target? known) =
      d.fields.filterMap (Field.target? known) := by
    rw [withoutNamed, List.filterMap_filter]
    refine List.filterMap_congr fun field _ => ?_
    by_cases hnamed : field.IsNamed
    · rw [if_neg (by simpa using hnamed), hnamed.target?_eq_none]
    · rw [if_pos (by simpa using hnamed)]
  have hreferences : d.withoutNamed.references known = d.references known := by
    rw [references, references, htargets]
  rw [imports, imports, hreferences]
  rfl

/-- A named field reports nothing. -/
theorem eventsIn_of_isNamed (d : Declaration) {field : Field} (h : field.IsNamed) (index : Nat) :
    d.eventsIn known index field = [] := by
  rw [eventsIn, d.isSelfReference_of_isNamed h, if_neg (by simp), Field.events,
    if_neg h.kind?_ne_none]

/-- **Names come before types.** Whatever types the named fields of a declaration are given, drafting
its module goes the same way from every session: it yields the same module, makes the same draws and
reports the same events. The imports are those that the other fields ask for, and a named field is
never a reference of the declaration to itself and never reported. -/
theorem draft_of_retyped {d e : Declaration} (h : d.Retypes e) (r : Registry) (layout : Layout)
    (p : Provider σ) :
    (∀ s : Session σ, (e.mockModule r layout p).run s = (d.mockModule r layout p).run s) ∧
      e.imports r.contains layout = d.imports r.contains layout ∧
      e.imports r.contains layout = e.withoutNamed.imports r.contains layout ∧
      ∀ field ∈ e.fields, field.IsNamed → e.isSelfReference r.contains field = false ∧
        ∀ (index : Nat) (s : Session σ),
          ((e.property r.contains p index field).run s).2.events = s.events := by
  refine ⟨fun s => ?_, h.imports_eq layout, (e.imports_withoutNamed layout).symm,
    fun field _ hnamed => ⟨e.isSelfReference_of_isNamed hnamed, fun index s => ?_⟩⟩
  · rw [h.mockModule_eq]
  · rw [(e.makes_property r.contains p index field s).1, e.eventsIn_of_isNamed hnamed,
      List.append_nil]

/-- A city that is retyped as the declaration itself. -/
theorem draft_of_retyped_self :
    let d : Declaration := ⟨"A", ⟨"A.interface.ts"⟩, [⟨"city", "B", false⟩, ⟨"b", "B", true⟩]⟩
    let e : Declaration := ⟨"A", ⟨"A.interface.ts"⟩, [⟨"city", "A", false⟩, ⟨"b", "B", true⟩]⟩
    let r : Registry := ⟨[e, ⟨"B", ⟨"B.interface.ts"⟩, []⟩], by decide⟩
    let p := Script.provider {}
    d.Retypes e ∧
      (∀ s, (e.mockModule r {} p).run s = (d.mockModule r {} p).run s) ∧
      e.imports r.contains {} = [⟨"A", "A.interface"⟩, ⟨"mockB1", "./B.stubs"⟩] ∧
      e.isSelfReference r.contains ⟨"city", "A", false⟩ = false := by
  intro d e r p
  have hretypes : d.Retypes e :=
    ⟨rfl, rfl, .cons ⟨rfl, rfl, .inl (by decide)⟩ (.cons ⟨rfl, rfl, .inr rfl⟩ .nil)⟩
  obtain ⟨hrun, -, -, hnamed⟩ := draft_of_retyped hretypes r {} p
  exact ⟨hretypes, hrun, by decide +kernel,
    (hnamed ⟨"city", "A", false⟩ List.mem_cons_self (by decide)).1⟩

end Declaration

end Understudy
