import Mathlib.Data.List.Perm.Basic
import Understudy.Proofs.Links

/-!
# Understudy.Proofs.Membership

**What a module depends on.** Of the registry, a draft only uses which names are declared, and of
those only the types of its own **open** fields, the ones that neither their name nor a built-in type
settles. So two registries that say the same of these types lead to the same module, the same draws
and the same events, whatever else they hold (`Declaration.mockModule_congr`).

Everything else is a matter of what a registry holds after some declarations. One that has just been
registered adds its own name and no other, so the modules of declarations that do not refer to it
stay (`Registry.draftsOf_register`). And it only matters in which order the declarations of one name
come: two orders that agree on that lead to the same declarations (`Registry.perm_ofList`).
-/

namespace Understudy

variable {σ : Type}

/-! ### Open fields -/

/-- Whether neither the name of a field nor a built-in type settles what stands for it. -/
def Field.IsOpen (field : Field) : Prop :=
  Kind.ofName? field.name = none ∧ Kind.ofType? field.typeName = none

instance (field : Field) : Decidable field.IsOpen := inferInstanceAs (Decidable (_ ∧ _))

/-- Whether the same open fields of a declaration have a type that is known. -/
def Declaration.SameKnown (d : Declaration) (known known' : String → Bool) : Prop :=
  ∀ field ∈ d.fields, field.IsOpen → known field.typeName = known' field.typeName

variable {known known' : String → Bool}

/-- What is known only matters to an open field. -/
theorem Field.kind?_congr {field : Field}
    (h : field.IsOpen → known field.typeName = known' field.typeName) :
    field.kind? known = field.kind? known' := by
  unfold kind?
  cases hname : Kind.ofName? field.name with
  | some kind => rfl
  | none =>
      cases htype : Kind.ofType? field.typeName with
      | some kind => rfl
      | none => rw [h ⟨hname, htype⟩]

theorem Field.target?_congr {field : Field}
    (h : field.IsOpen → known field.typeName = known' field.typeName) :
    field.target? known = field.target? known' := by
  rw [target?, target?, kind?_congr h]

theorem Field.literal_congr (p : Provider σ) {field : Field}
    (h : field.IsOpen → known field.typeName = known' field.typeName) :
    field.literal p known = field.literal p known' := by
  rw [literal, literal, kind?_congr h]

/-- Two lists lead to the same draft if they do so place by place. -/
theorem Drafting.mapM_eq_of_forall₂ {α β γ : Type} {f : α → Drafting σ γ} {g : β → Drafting σ γ}
    {as : List α} {bs : List β} (h : List.Forall₂ (fun a b => f a = g b) as bs) :
    as.mapM f = bs.mapM g := by
  induction h with
  | nil => rfl
  | cons hhead _ ih => rw [List.mapM_cons, List.mapM_cons, hhead, ih]

theorem Drafting.mapM_congr {α β : Type} {f g : α → Drafting σ β} {as : List α}
    (h : ∀ a ∈ as, f a = g a) : as.mapM f = as.mapM g :=
  mapM_eq_of_forall₂ (List.forall₂_same.mpr h)

/-! ### Drafts -/

namespace Declaration

variable {d : Declaration}

theorem imports_congr (h : d.SameKnown known known') (layout : Layout) :
    d.imports known layout = d.imports known' layout := by
  have htargets : d.fields.filterMap (Field.target? known) =
      d.fields.filterMap (Field.target? known') :=
    List.filterMap_congr fun field hfield => Field.target?_congr (h field hfield)
  unfold imports references
  rw [htargets]

theorem property_congr (h : d.SameKnown known known') (p : Provider σ) (index : Nat) {field : Field}
    (hfield : field ∈ d.fields) :
    d.property known p index field = d.property known' p index field := by
  unfold property isSelfReference
  rw [Field.target?_congr (h field hfield), Field.literal_congr p (h field hfield)]

theorem constant_congr (h : d.SameKnown known known') (p : Provider σ) (index : Nat) :
    d.constant known p index = d.constant known' p index := by
  rw [constant, constant, Drafting.mapM_congr fun field => d.property_congr h p index]

theorem document_congr (h : d.SameKnown known known') (layout : Layout) (p : Provider σ) :
    d.document known layout p = d.document known' layout p := by
  rw [document, document, imports_congr h,
    Drafting.mapM_congr fun index _ => d.constant_congr h p index]

/-- A draft is the same with two registries that say the same of the types of open fields. -/
theorem mockModule_congr {r r' : Registry} (h : d.SameKnown r.contains r'.contains)
    (layout : Layout) (p : Provider σ) : d.mockModule r layout p = d.mockModule r' layout p := by
  rw [mockModule, mockModule, document_congr h]

end Declaration

/-! ### What registries hold -/

namespace Registry

theorem mem_declarations_iff {r : Registry} {d : Declaration} :
    d ∈ r.declarations ↔ r.get? d.name = some d :=
  ⟨get?_of_mem, List.mem_of_find?_eq_some⟩

theorem contains_register_of_ne {r : Registry} {e : Declaration} {name : String}
    (h : name ≠ e.name) : (r.register e).contains name = r.contains name := by
  rw [Bool.eq_iff_iff, contains, contains, names_register, List.contains_iff_mem,
    List.contains_iff_mem]
  split
  · rfl
  · rw [List.mem_append, List.mem_singleton, or_iff_left h]

theorem mem_register_of_ne {r : Registry} {d e : Declaration} (hd : d ∈ r.declarations)
    (h : d.name ≠ e.name) : d ∈ (r.register e).declarations := by
  rw [mem_declarations_iff, get?_register, if_neg h.symm]
  exact get?_of_mem hd

section Order

variable {ds ds' : List Declaration}
  (h : ∀ name, ds.filter (fun d => d.name = name) = ds'.filter (fun d => d.name = name))

include h

/-- What is held for a name only depends on the declarations of that name. -/
theorem get?_ofList_congr (name : String) : (ofList ds).get? name = (ofList ds').get? name := by
  rw [get?_ofList, get?_ofList, ← List.head?_filter, ← List.head?_filter, List.filter_reverse,
    List.filter_reverse, h]

theorem perm_ofList : (ofList ds).declarations.Perm (ofList ds').declarations := by
  refine (List.perm_ext_iff_of_nodup ?_ ?_).mpr fun d => ?_
  · exact List.Nodup.of_map _ (ofList ds).nodup
  · exact List.Nodup.of_map _ (ofList ds').nodup
  · rw [mem_declarations_iff, mem_declarations_iff, get?_ofList_congr h]

theorem contains_ofList_congr : (ofList ds).contains = (ofList ds').contains := by
  funext name
  rw [Bool.eq_iff_iff, contains_iff, contains_iff]
  exact exists_congr fun d => and_congr_left fun _ => (perm_ofList h).mem_iff

end Order

/-! ### The modules of a run -/

variable (layout : Layout) (p : Provider σ) (start : Declaration → σ)

/-- The module of a declaration in a run, with the events of drafting it. -/
def draft (r : Registry) (d : Declaration) : MockModule × List Event :=
  let (mockModule, session) := (d.mockModule r layout p).run { state := start d }
  (mockModule, session.events)

/-- The modules that a run makes for an interface, with the events of drafting them. -/
def draftsOf (r : Registry) (interface : String) : List (MockModule × List Event) :=
  (r.drafts layout p start).filter fun draft => draft.1.interface = interface

theorem drafts_eq (r : Registry) :
    r.drafts layout p start = r.declarations.map (r.draft layout p start) := rfl

theorem draft_congr {r r' : Registry} {d : Declaration} (h : d.SameKnown r.contains r'.contains) :
    r.draft layout p start d = r'.draft layout p start d := by
  rw [draft, draft, Declaration.mockModule_congr h]

theorem draftsOf_eq {r : Registry} {d : Declaration} (h : d ∈ r.declarations) :
    r.draftsOf layout p start d.name = [r.draft layout p start d] := by
  rw [draftsOf, drafts_eq, List.filter_map]
  show (r.declarations.filter fun e => e.name = d.name).map _ = _
  rw [filter_name_eq h]
  rfl

/-- Registering a declaration leaves the module of every other one that does not refer to it. -/
theorem draftsOf_register {r : Registry} {d e : Declaration} (hd : d ∈ r.declarations)
    (hname : d.name ≠ e.name) (h : ∀ field ∈ d.fields, field.IsOpen → field.typeName ≠ e.name) :
    (r.register e).draftsOf layout p start d.name = [r.draft layout p start d] := by
  have hsame : d.SameKnown (r.register e).contains r.contains := fun field hfield hopen =>
    contains_register_of_ne (h field hfield hopen)
  rw [draftsOf_eq layout p start (mem_register_of_ne hd hname), draft_congr layout p start hsame]

/-- It only matters in which order the declarations of each name come. -/
theorem perm_drafts {ds ds' : List Declaration}
    (h : ∀ name, ds.filter (fun d => d.name = name) = ds'.filter (fun d => d.name = name)) :
    ((ofList ds).drafts layout p start).Perm ((ofList ds').drafts layout p start) := by
  have hdraft : (ofList ds).draft layout p start = (ofList ds').draft layout p start := by
    funext d
    exact draft_congr layout p start fun field _ _ => congrFun (contains_ofList_congr h) _
  rw [drafts_eq, drafts_eq, hdraft]
  exact (perm_ofList h).map _

/-- Where every name is declared once, any two orders agree on the declarations of each name. -/
theorem filter_name_of_perm {ds ds' : List Declaration} (hperm : ds.Perm ds')
    (hnodup : (ds.map Declaration.name).Nodup) (name : String) :
    ds.filter (fun d => d.name = name) = ds'.filter (fun d => d.name = name) := by
  have hfilter := hperm.filter fun d => decide (d.name = name)
  by_cases h : ∃ d ∈ ds, d.name = name
  · obtain ⟨d, hd, rfl⟩ := h
    have hone : ds.filter (fun e => e.name = d.name) = [d] := filter_name_eq (r := ⟨ds, hnodup⟩) hd
    rw [hone] at hfilter ⊢
    exact List.singleton_perm.mp hfilter
  · have hnone : ds.filter (fun d => d.name = name) = [] :=
      List.filter_eq_nil_iff.mpr fun d hd hname => h ⟨d, hd, of_decide_eq_true hname⟩
    rw [hnone] at hfilter ⊢
    exact (List.nil_perm.mp hfilter).symm

/-- **Drafts depend on membership alone.** A draft is the same, with its draws and its events, with
any two registries that hold the same of the types of its open fields. So registering a declaration
leaves the one module of every other declaration none of whose open fields has its name for a type;
and declarations can be registered in any order that keeps the order of those of one name, above all
in any order if no two have one name, without a change to any module. -/
theorem drafts_by_membership :
    (∀ (d : Declaration) (r r' : Registry),
      (∀ field ∈ d.fields, field.IsOpen → r.contains field.typeName = r'.contains field.typeName) →
      ∀ s : Session σ, (d.mockModule r layout p).run s = (d.mockModule r' layout p).run s) ∧
    (∀ (r : Registry) (e : Declaration), ∀ d ∈ r.declarations, d.name ≠ e.name →
      (∀ field ∈ d.fields, field.IsOpen → field.typeName ≠ e.name) →
      r.draftsOf layout p start d.name = [r.draft layout p start d] ∧
      (r.register e).draftsOf layout p start d.name = [r.draft layout p start d]) ∧
    (∀ ds ds' : List Declaration,
      (∀ name, ds.filter (fun d => d.name = name) = ds'.filter (fun d => d.name = name)) →
      ((ofList ds).drafts layout p start).Perm ((ofList ds').drafts layout p start)) ∧
    (∀ ds ds' : List Declaration, ds.Perm ds' → (ds.map Declaration.name).Nodup →
      ((ofList ds).drafts layout p start).Perm ((ofList ds').drafts layout p start)) := by
  refine ⟨fun d r r' h s => ?_, fun r e d hd hname h => ?_, fun ds ds' h => ?_,
    fun ds ds' hperm hnodup => ?_⟩
  · rw [Declaration.mockModule_congr h]
  · exact ⟨draftsOf_eq layout p start hd, draftsOf_register layout p start hd hname h⟩
  · exact perm_drafts layout p start h
  · exact perm_drafts layout p start (filter_name_of_perm hperm hnodup)

end Registry

end Understudy
