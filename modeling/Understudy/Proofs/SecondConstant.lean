import Understudy.Proofs.Warnings

/-!
# Understudy.Proofs.SecondConstant

**Two constants extend one.** A module with two constants is drafted as the one with a single constant
is, and then the second constant is drafted from where the first one has ended
(`Declaration.run_mockModule_pair`). So the first constant, the imports and the draws up to there do
not depend on the mode, and the longer module is the shorter one with the second constant behind it.

Property by property, the second constant is a **twin** of the first (`Declaration.Twins`): both values
are of the kind that the field asks for, with replies of their own. Only a reference of the declaration
to itself is left out of the first constant and not of the second. What is written for a value depends
on its kind in all but what it says (`Kind.Shows.form_eq`), so these references are the only fields at
which the two constants differ in form.
-/

namespace Understudy

variable {σ : Type}

/-! ### Forms of values -/

/-- What is written for a value, whatever the value says. -/
inductive Literal.Form
  | null
  | numeral
  | truth
  | quoted
  | constant (mock : MockName)
  | spread (mock : MockName)
  | array (element : Form)
  deriving Repr, DecidableEq

/-- The form of a value. -/
def Literal.form : Literal → Form
  | null => .null
  | integer _ => .numeral
  | boolean _ => .truth
  | quoted _ => .quoted
  | constant mock => .constant mock
  | spread mock => .spread mock
  | array element => .array element.form

/-- The form of the values of a kind. -/
def Kind.form : Kind → Literal.Form
  | number => .numeral
  | boolean => .truth
  | string | date | zip | street | email | country | city | name => .quoted
  | null => .null
  | reference interface => .spread (MockName.first interface)

theorem Kind.Shows.form_eq {kind : Kind} {replies : List Reply} {value : Literal}
    (h : kind.Shows replies value) : value.form = kind.form := by
  cases h <;> rfl

/-- Brackets around both of two values hide no difference in form and make none. -/
theorem Literal.form_arrayIf_eq_iff (isArray : Bool) (value other : Literal) :
    (value.arrayIf isArray).form = (other.arrayIf isArray).form ↔ value.form = other.form := by
  cases isArray with
  | false => exact Iff.rfl
  | true => exact ⟨Form.array.inj, congrArg Form.array⟩

/-- Brackets are read off the first character. -/
theorem Kind.Shows.head?_eq_bracket_iff {kind : Kind} {replies : List Reply} {value : Literal}
    (h : kind.Shows replies value) (isArray : Bool) :
    (value.arrayIf isArray).text.toList.head? = some '[' ↔ isArray = true := by
  cases isArray with
  | false => exact iff_of_false h.head?_ne_bracket Bool.false_ne_true
  | true =>
      rw [Literal.text_arrayIf_eq, if_pos rfl, String.toList_append, String.toList_append]
      exact iff_of_true rfl rfl

/-! ### Twins -/

namespace Declaration

variable (d : Declaration) (known : String → Bool)

/-- How the property of a field in the first constant and the one in the second go together: both
have the name of the field, and both values stand in an array or neither of them does. -/
inductive Twins (field : Field) : Property → Property → Prop
  /-- A field that refers to the declaration itself. -/
  | own (h : field.kind? known = some (.reference d.name)) :
    Twins field ⟨field.name, Literal.null.arrayIf field.isArray⟩
      ⟨field.name, (Literal.spread ⟨d.name, 1⟩).arrayIf field.isArray⟩
  /-- Any other field. Both values are of its kind, or of the kind null if it has none. -/
  | alike (h : field.kind? known ≠ some (.reference d.name)) {taken taken' : List Reply}
    {value value' : Literal} (first : ((field.kind? known).getD .null).Shows taken value)
    (second : ((field.kind? known).getD .null).Shows taken' value') :
    Twins field ⟨field.name, value.arrayIf field.isArray⟩ ⟨field.name, value'.arrayIf field.isArray⟩

variable {d known} {field : Field}

/-- Twins differ in form just where the declaration refers to itself. -/
theorem Twins.form_eq_iff {q q' : Property} (h : d.Twins known field q q') :
    q.value.form = q'.value.form ↔ field.kind? known ≠ some (.reference d.name) := by
  cases h with
  | own h =>
      rw [Literal.form_arrayIf_eq_iff]
      exact iff_of_false Literal.Form.noConfusion fun hne => hne h
  | alike h first second =>
      rw [Literal.form_arrayIf_eq_iff, first.form_eq, second.form_eq]
      exact iff_of_true rfl h

/-- Twins stand in brackets just where the field is an array. -/
theorem Twins.head?_eq_bracket_iff {q q' : Property} (h : d.Twins known field q q') :
    (q.value.text.toList.head? = some '[' ↔ field.isArray = true) ∧
      (q'.value.text.toList.head? = some '[' ↔ field.isArray = true) := by
  cases h with
  | own h =>
      exact ⟨Kind.Shows.null.head?_eq_bracket_iff _, (Kind.Shows.reference _).head?_eq_bracket_iff _⟩
  | alike h first second =>
      exact ⟨first.head?_eq_bracket_iff _, second.head?_eq_bracket_iff _⟩

/-- What the two constants show of one field are twins. -/
theorem twins_of_propertyShows {taken taken' : List Reply} {q q' : Property}
    (h : d.PropertyShows known 1 field taken q) (h' : d.PropertyShows known 2 field taken' q') :
    d.Twins known field q q' := by
  obtain ⟨value, hshows, rfl⟩ := h
  obtain ⟨value', hshows', rfl⟩ := h'
  have hsecond : d.kindIn known 2 field = (field.kind? known).getD .null := by simp [kindIn]
  rw [hsecond] at hshows'
  by_cases hself : field.kind? known = some (.reference d.name)
  · have hfirst : d.kindIn known 1 field = .null := by simp [kindIn, isSelfReference_iff, hself]
    rw [hfirst] at hshows
    rw [hself] at hshows'
    cases hshows
    cases hshows'
    exact .own hself
  · have hfirst : d.kindIn known 1 field = (field.kind? known).getD .null := by
      simp [kindIn, isSelfReference_iff, hself]
    rw [hfirst] at hshows
    exact .alike hself hshows hshows'

/-- At the place of a field both constants have a property, and the two are twins. -/
theorem exists_twins {replies replies' : List Reply} {first second : Constant}
    (h : d.ConstantShows known 1 replies first) (h' : d.ConstantShows known 2 replies' second)
    {j : Nat} (hfield : d.fields[j]? = some field) :
    ∃ q q', first.properties[j]? = some q ∧ second.properties[j]? = some q' ∧
      d.Twins known field q q' := by
  obtain ⟨taken, q, hq, hshows⟩ := h.2.exists_of_getElem? hfield
  obtain ⟨taken', q', hq', hshows'⟩ := h'.2.exists_of_getElem? hfield
  exact ⟨q, q', hq, hq', twins_of_propertyShows hshows hshows'⟩

end Declaration

/-! ### The two modes -/

/-- A second constant stands behind the text with the first one, after a line feed. -/
theorem Document.text_pair (imports : List Import) (first second : Constant) :
    text ⟨imports, [first, second]⟩ = text ⟨imports, [first]⟩ ++ "\n" ++ second.text := by
  simp [text, importText, String.append_assoc]

namespace Declaration

/-- With two constants, a module is drafted as with one, and then the second constant is drafted. -/
theorem run_mockModule_pair (d : Declaration) (r : Registry) (extension : String)
    (directory : Option Path) (p : Provider σ) (s : Session σ) :
    (d.mockModule r ⟨.pair, extension, directory⟩ p).run s =
      let shorter := (d.mockModule r ⟨.linked, extension, directory⟩ p).run s
      let second := (d.constant r.contains p 2).run shorter.2
      ({ shorter.1 with content := shorter.1.content ++ "\n" ++ second.1.text }, second.2) := by
  refine Prod.ext (congrArg (MockModule.mk _ _) ?_) rfl
  exact Document.text_pair _ _ _

/-- **Two constants extend one.** Drafted from one session in both modes, the module with two constants
has the file name, the imports and the first constant of the module with one, and its content is the
content of that, a line feed and the second constant. The second constant is drafted from where the
shorter draft has ended, so the draws of the shorter one come first. It has the properties of the first
in the same order, each with brackets where that has them, and the two values have one form unless the
field refers to the declaration itself; then null stands in the first constant, and the spread of the
first constant in the second. -/
theorem pair_extends_linked (d : Declaration) (r : Registry) (extension : String)
    (directory : Option Path) (p : Provider σ) (s : Session σ) :
    let linked : Layout := ⟨.linked, extension, directory⟩
    let pair : Layout := ⟨.pair, extension, directory⟩
    let shorter := (d.mockModule r linked p).run s
    let longer := (d.mockModule r pair p).run s
    ∃ first second : Constant,
      first.name = ⟨d.name, 1⟩ ∧ second.name = ⟨d.name, 2⟩ ∧
      shorter.1.content = Document.text ⟨d.imports r.contains linked, [first]⟩ ∧
      longer.1.content = Document.text ⟨d.imports r.contains pair, [first, second]⟩ ∧
      d.imports r.contains pair = d.imports r.contains linked ∧
      longer.1 = { shorter.1 with content := shorter.1.content ++ "\n" ++ second.text } ∧
      (d.constant r.contains p 1).run s = (first, shorter.2) ∧
      (d.constant r.contains p 2).run shorter.2 = (second, longer.2) ∧
      shorter.2.draws <+: longer.2.draws ∧
      first.properties.map Property.name = d.fields.map Field.name ∧
      second.properties.map Property.name = d.fields.map Field.name ∧
      ∀ (j : Nat) (field : Field), d.fields[j]? = some field →
        ∃ q q', first.properties[j]? = some q ∧ second.properties[j]? = some q' ∧
          d.Twins r.contains field q q' ∧
          (q.value.text.toList.head? = some '[' ↔ field.isArray = true) ∧
          (q'.value.text.toList.head? = some '[' ↔ field.isArray = true) ∧
          (q.value.form = q'.value.form ↔ field.kind? r.contains ≠ some (.reference d.name)) := by
  intro linked pair shorter longer
  obtain ⟨-, hfirst⟩ := d.makes_constant r.contains p 1 s
  obtain ⟨hlast, hsecond⟩ := d.makes_constant r.contains p 2 shorter.2
  have hlonger : longer = _ := d.run_mockModule_pair r extension directory p s
  rw [hlonger]
  refine ⟨_, _, hfirst.1, hsecond.1, rfl, (Document.text_pair _ _ _).symm, rfl, rfl, rfl, rfl, ?_,
    hfirst.map_name, hsecond.map_name, fun j field hfield => ?_⟩
  · rw [hlast]
    exact List.prefix_append _ _
  · obtain ⟨q, q', hq, hq', htwins⟩ := exists_twins hfirst hsecond hfield
    obtain ⟨hone, htwo⟩ := htwins.head?_eq_bracket_iff
    exact ⟨q, q', hq, hq', htwins, hone, htwo, htwins.form_eq_iff⟩

end Declaration

end Understudy
