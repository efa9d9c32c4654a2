import Understudy.Proofs.Values

/-!
# Understudy.Proofs.Warnings

**No silent null.** Drafting a module reports nothing but warnings, and these are settled before it
starts: one for each reference of a declaration to itself that the first constant leaves out, and one in
each constant for each field without a kind (`Declaration.warnings`). They come in the order of the
constants and, in each constant, of the fields.

Null stands for a field in one of these cases or because its kind is null. It is written for nothing
else, since no other value is written as null is, alone or in an array (`Literal.text_eq_null_iff`,
`Literal.text_eq_array_null_iff`). So whoever reads a null in a module finds the reason in the type of
the field or in just one warning (`Declaration.null_iff_warned`).
-/

namespace Understudy

variable {σ : Type}

/-! ### Null -/

namespace Literal

/-- No value but null is written as null is. -/
theorem text_eq_null_iff {l : Literal} : l.text = "null" ↔ l = null := by
  constructor
  · intro h
    have hlist : l.text.toList = 'n' :: "ull".toList := by
      rw [h]
      rfl
    cases l with
    | null => rfl
    | integer n =>
        have hmem : 'n' ∈ (toString n).toList := by
          rw [text] at hlist
          rw [hlist]
          exact List.mem_cons_self
        rcases isDigit_of_mem_toString hmem with hsign | hdigit
        · exact absurd hsign (by decide)
        · exact absurd hdigit (by decide)
    | boolean b => cases b <;> cases hlist
    | quoted raw =>
        rw [toList_text_quoted] at hlist
        cases hlist
    | constant mock | spread mock | array element =>
        simp only [text, MockName.text, String.toList_append] at hlist
        cases hlist
  · rintro rfl
    rfl

/-- No value but the array of null is written as that is. -/
theorem text_eq_array_null_iff {l : Literal} : l.text = "[null]" ↔ l = array null := by
  constructor
  · intro h
    have hlist : l.text.toList = '[' :: "null]".toList := by
      rw [h]
      rfl
    rcases cases_of_text hlist with ⟨mock, rfl⟩ | ⟨element, rfl⟩ | ⟨-, hbracket⟩
    · rw [text, String.toList_append, String.toList_append] at hlist
      cases hlist
    · have hsplit : "[" ++ element.text ++ "]" = "[" ++ "null" ++ "]" := h
      have helement := (String.append_right_inj "[").mp ((String.append_left_inj "]").mp hsplit)
      rw [text_eq_null_iff.mp helement]
    · exact absurd rfl hbracket
  · rintro rfl
    rfl

/-- A value that is no array is written as null, in an array or not, only if it is null. -/
theorem text_arrayIf_eq_null_iff {value : Literal} (h : ∀ element, value ≠ array element)
    (isArray : Bool) :
    ((value.arrayIf isArray).text = "null" ∨ (value.arrayIf isArray).text = "[null]") ↔
      value = null := by
  rw [text_eq_null_iff, text_eq_array_null_iff]
  cases isArray with
  | false => exact or_iff_left (h null)
  | true => exact (or_iff_right (by simp [arrayIf])).trans (by simp [arrayIf])

end Literal

/-- Null stands for the kind null and for no other. -/
theorem Kind.Shows.eq_null_iff {kind : Kind} {replies : List Reply} {value : Literal}
    (h : kind.Shows replies value) : value = .null ↔ kind = .null := by
  cases h <;> simp

/-! ### Warnings -/

namespace Declaration

variable (d : Declaration) (known : String → Bool)

/-- The warnings that are due for a field in the constant of a given number. -/
def warnings (index : Nat) (field : Field) : List Event :=
  (if index = 1 ∧ field.kind? known = some (.reference d.name) then
    [.selfReference d.name field] else []) ++
  if field.kind? known = none then [.unresolved field] else []

/-- What is logged for these warnings: how much each matters, its words and its details. -/
def warningRecords (index : Nat) (field : Field) :
    List (Severity × String × List (String × String)) :=
  (if index = 1 ∧ field.kind? known = some (.reference d.name) then
    [(.warn, "self-referencing field in the primary mock, emitting null",
      [("interface", d.name), ("field", field.name)])] else []) ++
  if field.kind? known = none then
    [(.warn, "property type not found, emitting null",
      [("field", field.name), ("declared_type", field.typeName)])] else []

variable {d known} {index : Nat} {field : Field}

theorem map_record_warnings :
    (d.warnings known index field).map (fun e => (e.severity, e.message, e.details)) =
      d.warningRecords known index field := by
  rw [warnings, warningRecords, List.map_append, apply_ite (List.map _), apply_ite (List.map _)]
  rfl

theorem isSelfReference_iff :
    d.isSelfReference known field = true ↔ field.kind? known = some (.reference d.name) := by
  rw [isSelfReference, decide_eq_true_eq, Field.target?]
  cases field.kind? known with
  | none => simp
  | some kind => cases kind <;> simp [Kind.target?]

/-- What is reported of a field are the warnings that are due. -/
theorem eventsIn_eq_warnings : d.eventsIn known index field = d.warnings known index field := by
  simp only [eventsIn, warnings, Field.events, isSelfReference_iff]
  by_cases hself : index = 1 ∧ field.kind? known = some (.reference d.name)
  · rw [if_pos hself, if_pos hself, if_neg (by rw [hself.2]; simp), List.append_nil]
  · rw [if_neg hself, if_neg hself, List.nil_append]

theorem length_warnings_eq_one_iff : (d.warnings known index field).length = 1 ↔
    (index = 1 ∧ field.kind? known = some (.reference d.name)) ∨ field.kind? known = none := by
  rw [warnings]
  by_cases hnone : field.kind? known = none
  · simp [hnone]
  · by_cases hself : index = 1 ∧ field.kind? known = some (.reference d.name)
    · simp [hself]
    · simp [hself, hnone]

/-- Null stands for a field if its kind is null or a warning is due. -/
theorem kindIn_eq_null_iff : d.kindIn known index field = .null ↔
    field.kind? known = some .null ∨ (d.warnings known index field).length = 1 := by
  simp only [length_warnings_eq_one_iff, kindIn, isSelfReference_iff]
  by_cases hself : index = 1 ∧ field.kind? known = some (.reference d.name)
  · simp [hself]
  · rw [if_neg hself]
    cases hkind : field.kind? known with
    | none => simp
    | some kind =>
        rw [hkind] at hself
        rw [Option.getD_some, Option.some.injEq,
          or_iff_left (not_or.mpr ⟨hself, Option.some_ne_none kind⟩)]

/-- **No silent null.** Drafting a module reports the warnings that are due, constant by constant and
field by field, and nothing else. In each constant, the value of a field is written as null, in an
array or not, if and only if the kind of the field is null or just one warning is due for it there. -/
theorem null_iff_warned (d : Declaration) (r : Registry) (layout : Layout) (p : Provider σ)
    (s : Session σ) :
    let document := ((d.document r.contains layout p).run s).1
    ((d.mockModule r layout p).run s).1.content = document.text ∧
      ((d.mockModule r layout p).run s).2.events = s.events ++
        ((List.range' 1 layout.mode.constantCount).flatMap fun index =>
          d.fields.flatMap (d.warnings r.contains index)) ∧
      (∀ (index : Nat) (field : Field),
        (d.warnings r.contains index field).map (fun e => (e.severity, e.message, e.details)) =
          d.warningRecords r.contains index field) ∧
      document.constants.map Constant.name =
        (List.range' 1 layout.mode.constantCount).map (fun index => ⟨d.name, index⟩) ∧
      ∀ (i j : Nat) (c : Constant) (field : Field), document.constants[i]? = some c →
        d.fields[j]? = some field →
        ∃ q, c.properties[j]? = some q ∧ q.name = field.name ∧
          ((q.value.text = "null" ∨ q.value.text = "[null]") ↔
            field.kind? r.contains = some .null ∨
              (d.warnings r.contains (i + 1) field).length = 1) := by
  intro document
  obtain ⟨hsession, hshows⟩ := d.makes_document r.contains p layout s
  refine ⟨rfl, ?_, fun _ _ => map_record_warnings, hshows.2.map_eq fun hc => hc.1, ?_⟩
  · have hevents : ((d.mockModule r layout p).run s).2.events =
        s.events ++ d.events r.contains layout.mode := congrArg Session.events hsession
    have hwarnings : ∀ index, d.eventsIn r.contains index = d.warnings r.contains index :=
      fun index => funext fun field => eventsIn_eq_warnings
    rw [hevents, events]
    simp only [hwarnings]
  · intro i j c field hc hfield
    obtain ⟨index, hindex, q, hq, taken, element, helement, rfl⟩ :=
      hshows.exists_propertyShows hc hfield
    obtain ⟨hlt, hindex⟩ := List.getElem?_eq_some_iff.mp hindex
    rw [List.getElem_range', Nat.one_mul, Nat.add_comm] at hindex
    refine ⟨_, hq, rfl, ?_⟩
    rw [Literal.text_arrayIf_eq_null_iff helement.ne_array, helement.eq_null_iff, kindIn_eq_null_iff,
      hindex]

/-- A field that refers to its own declaration is null with a warning in the first constant, and a
spread without one in the second. -/
theorem null_iff_warned_parent :
    let field : Field := ⟨"parent", "A", true⟩
    let d : Declaration := ⟨"A", ⟨"A.interface.ts"⟩, [field]⟩
    let r : Registry := ⟨[d], by decide⟩
    let document := ((d.document r.contains { mode := .pair } (Script.provider {})).run
      { state := {} }).1
    document.constants = [⟨⟨"A", 1⟩, [⟨"parent", .array .null⟩]⟩,
        ⟨⟨"A", 2⟩, [⟨"parent", .array (.spread ⟨"A", 1⟩)⟩]⟩] ∧
      (d.warnings r.contains 1 field).length = 1 ∧ (d.warnings r.contains 2 field).length ≠ 1 := by
  intro field d r document
  have hconstants : document.constants = [⟨⟨"A", 1⟩, [⟨"parent", .array .null⟩]⟩,
      ⟨⟨"A", 2⟩, [⟨"parent", .array (.spread ⟨"A", 1⟩)⟩]⟩] := by decide +kernel
  obtain ⟨-, -, -, -, hnull⟩ :=
    null_iff_warned d r { mode := .pair } (Script.provider {}) { state := {} }
  have hkind : field.kind? r.contains ≠ some .null := by decide +kernel
  refine ⟨hconstants, ?_, ?_⟩
  · obtain ⟨q, hq, -, hiff⟩ := hnull 0 0 _ field (congrArg (·[0]?) hconstants) rfl
    cases hq
    exact (hiff.mp (by decide)).resolve_left hkind
  · obtain ⟨q, hq, -, hiff⟩ := hnull 1 0 _ field (congrArg (·[1]?) hconstants) rfl
    cases hq
    exact fun hlength => absurd (hiff.mpr (Or.inr hlength)) (by decide)

end Declaration

end Understudy
