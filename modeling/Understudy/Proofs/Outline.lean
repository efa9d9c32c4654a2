import Mathlib.Data.List.Basic
import Understudy.MockModule

/-!
# Understudy.Proofs.Outline

The **outline** of a mock constant: its name, and for each of its properties the name of the property
and the constant that its value spreads. A provider decides the values but not the outline, so what
is shown of outlines holds for every provider and from every state of it.

The outline that a declaration asks for is `Declaration.outline`, a function of its fields alone.
`outline_constant` and `outlines_document` say that drafting yields just that one. Whatever is to be
said of the links between modules is read off these two and never off the drafting itself.
-/

namespace Understudy

variable {σ : Type}

/-! ### Drafting a list -/

/-- A view of one draft that is the same from every session is the same for the drafts of a list,
although each of them starts where the one before has ended. -/
theorem Drafting.map_run_mapM {α β γ : Type} {f : α → Drafting σ β} {view : β → γ} {expected : α → γ}
    (h : ∀ a s, view ((f a).run s).1 = expected a) (as : List α) (s : Session σ) :
    ((as.mapM f).run s).1.map view = as.map expected := by
  induction as generalizing s with
  | nil => rfl
  | cons a rest ih =>
      have hcons : (((a :: rest).mapM f).run s).1 =
          ((f a).run s).1 :: ((rest.mapM f).run ((f a).run s).2).1 := by
        rw [List.mapM_cons]
        rfl
      rw [hcons, List.map_cons, h, ih, List.map_cons]

/-! ### Outlines -/

/-- The first constant of an interface, the only one that is ever spread. -/
def MockName.first (interface : String) : MockName := ⟨interface, 1⟩

/-- The constant that a value spreads, be it bare or as the element of an array. -/
def Literal.spread? : Literal → Option MockName
  | spread mock | array (spread mock) => some mock
  | _ => none

/-- The name of a property and the constant that its value spreads. -/
def Property.outline (q : Property) : String × Option MockName := (q.name, q.value.spread?)

/-- The name of a constant and the outlines of its properties. -/
def Constant.outline (c : Constant) : MockName × List (String × Option MockName) :=
  (c.name, c.properties.map Property.outline)

namespace Declaration

/-- The interface that a field leads to in the constant of a given number. The first constant does
not lead to its own interface. -/
def link? (d : Declaration) (known : String → Bool) (index : Nat) (field : Field) : Option String :=
  if index = 1 ∧ d.isSelfReference known field then none else field.target? known

/-- The outline of the property of a field in the constant of a given number. -/
def fieldOutline (d : Declaration) (known : String → Bool) (index : Nat) (field : Field) :
    String × Option MockName :=
  (field.name, (d.link? known index field).map MockName.first)

/-- The outline of the constant of a given number, as the fields ask for it. -/
def outline (d : Declaration) (known : String → Bool) (index : Nat) :
    MockName × List (String × Option MockName) :=
  (⟨d.name, index⟩, d.fields.map (d.fieldOutline known index))

/-- A link of the first constant leads to another interface. -/
theorem link?_one_eq_some_iff (d : Declaration) (known : String → Bool) (field : Field)
    (interface : String) :
    d.link? known 1 field = some interface ↔
      field.target? known = some interface ∧ interface ≠ d.name := by
  unfold link? isSelfReference
  by_cases h : field.target? known = some d.name
  · simp only [h, decide_true, and_self, if_true, reduceCtorEq, Option.some.injEq, false_iff]
    exact fun ⟨hname, hne⟩ => hne hname.symm
  · simp only [h, decide_false, Bool.false_eq_true, and_false, if_false]
    exact ⟨fun hf => ⟨hf, fun hname => h (hname ▸ hf)⟩, And.left⟩

/-- In later constants every reference is a link. -/
theorem link?_of_ne_one (d : Declaration) (known : String → Bool) {index : Nat} (h : index ≠ 1)
    (field : Field) : d.link? known index field = field.target? known := by
  simp [link?, h]

end Declaration

/-! ### Drafts have the outline that is asked for -/

/-- Of all kinds, only a reference leads to a spread. -/
theorem Kind.spread?_literal (p : Provider σ) (kind : Kind) (isArray : Bool) (s : Session σ) :
    (((kind.literal p).run s).1.spreadConstant.arrayIf isArray).spread? =
      kind.target?.map MockName.first := by
  cases kind <;> cases isArray <;> rfl

theorem Field.spread?_literal (p : Provider σ) (known : String → Bool) (field : Field)
    (s : Session σ) :
    ((field.literal p known).run s).1.spread? = (field.target? known).map MockName.first := by
  unfold Field.literal Field.target?
  cases field.kind? known with
  | none => cases field.isArray <;> rfl
  | some kind => exact Kind.spread?_literal p kind field.isArray s

namespace Declaration

variable (d : Declaration) (known : String → Bool) (p : Provider σ)

theorem outline_property (index : Nat) (field : Field) (s : Session σ) :
    ((d.property known p index field).run s).1.outline = d.fieldOutline known index field := by
  unfold property fieldOutline link?
  by_cases h : index = 1 ∧ d.isSelfReference known field = true
  · rw [if_pos h, if_pos h]
    have hnull : (Literal.null.arrayIf field.isArray).spread? = none := by
      cases field.isArray <;> rfl
    exact Prod.ext rfl hnull
  · rw [if_neg h, if_neg h, ← Field.spread?_literal p known field s]
    rfl

/-- A drafted constant has the outline that its declaration asks for. -/
theorem outline_constant (index : Nat) (s : Session σ) :
    ((d.constant known p index).run s).1.outline = d.outline known index := by
  have hproperties := Drafting.map_run_mapM (d.outline_property known p index) d.fields s
  exact Prod.ext rfl hproperties

/-- The constants of a drafted module have the outlines that its declaration asks for, with the
numbers from 1 on. -/
theorem outlines_document (layout : Layout) (s : Session σ) :
    ((d.document known layout p).run s).1.constants.map Constant.outline =
      (List.range' 1 layout.mode.constantCount).map (d.outline known) :=
  Drafting.map_run_mapM (d.outline_constant known p) _ s

theorem imports_document (layout : Layout) (s : Session σ) :
    ((d.document known layout p).run s).1.imports = d.imports known layout := rfl

end Declaration

/-! ### The modules of a run -/

namespace Registry

variable (r : Registry) (layout : Layout) (p : Provider σ) (start : Declaration → σ)

/-- The content of the module of a declaration in a run. -/
def document (d : Declaration) : Document :=
  ((d.document r.contains layout p).run { state := start d }).1

/-- The modules of a run. -/
def modules : List MockModule := (r.drafts layout p start).map Prod.fst

/-- A run makes one module for each declaration, in order. -/
theorem modules_eq : r.modules layout p start = r.declarations.map fun d =>
    ⟨d.name, MockModule.fileNameOf d.name layout.extension, (r.document layout p start d).text⟩ := by
  unfold modules drafts
  rw [List.map_map]
  rfl

variable {r layout p start} in
theorem of_mem_modules {m : MockModule} (h : m ∈ r.modules layout p start) :
    m.interface ∈ r.names ∧ m.fileName = MockModule.fileNameOf m.interface layout.extension := by
  rw [modules_eq] at h
  obtain ⟨d, hd, rfl⟩ := List.mem_map.mp h
  exact ⟨List.mem_map_of_mem hd, rfl⟩

theorem outlines (d : Declaration) :
    (r.document layout p start d).constants.map Constant.outline =
      (List.range' 1 layout.mode.constantCount).map (d.outline r.contains) :=
  d.outlines_document r.contains p layout _

/-- The constants of a module are numbered from 1 on. -/
theorem constantNames (d : Declaration) :
    (r.document layout p start d).constants.map Constant.name =
      (List.range' 1 layout.mode.constantCount).map fun index => ⟨d.name, index⟩ := by
  have h := congrArg (List.map Prod.fst) (r.outlines layout p start d)
  rwa [List.map_map, List.map_map] at h

/-- The constant that stands after some others has the outline of the number that follows theirs. -/
theorem outline_of_split {d : Declaration} {before after : List Constant} {c : Constant}
    (h : (r.document layout p start d).constants = before ++ c :: after) :
    c.outline = d.outline r.contains (before.length + 1) ∧
      before.length + 1 ≤ layout.mode.constantCount := by
  -- both lists of outlines are looked at where the constant stands
  have hat := congrArg (fun l => l[before.length]?) (r.outlines layout p start d)
  simp only [h, List.map_append, List.map_cons, List.getElem?_map] at hat
  rw [List.getElem?_append_right (by simp)] at hat
  simp only [List.length_map, Nat.sub_self, List.getElem?_cons_zero] at hat
  obtain ⟨index, hindex, hc⟩ := Option.map_eq_some_iff.mp hat.symm
  obtain ⟨hlt, rfl⟩ := List.getElem?_eq_some_iff.mp hindex
  rw [List.length_range'] at hlt
  rw [List.getElem_range', Nat.one_mul, Nat.add_comm] at hc
  exact ⟨hc.symm, hlt⟩

end Registry

end Understudy
