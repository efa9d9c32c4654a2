import Understudy.Dump
import Understudy.Proofs.Json
import Understudy.Proofs.Registry

/-!
# Understudy.Proofs.Dump

**A dump tells all.** Read as JSON, the dump of a registry is an object with a member for each
declaration, in order, and the registry can be rebuilt from it by registering what these members say
(`Registry.dump_reads_back`). So a dump belongs to one registry only.

Two facts carry this. What is written for a value is read as that value (`Json.read?_text`), whatever
characters its texts hold. And the names of a registry are distinct, so its own declarations,
registered in order, only ever come at the end, and none gives way to another
(`Registry.ofList_declarations`).
-/

namespace Understudy

/-! ### Decoding -/

/-- The field that a value describes. -/
def Field.ofValue? : Json.Value → Option Field
  | .object [("name", .string name), ("declared_type", .string typeName),
      ("is_array", .bool isArray)] => some ⟨name, typeName, isArray⟩
  | _ => none

/-- The declaration that a value describes. -/
def Declaration.ofValue? : Json.Value → Option Declaration
  | .object [("name", .string name), ("source_path", .string path), ("fields", .array fields)] =>
    (fields.mapM Field.ofValue?).map (⟨name, ⟨path⟩, ·⟩)
  | _ => none

/-- The declaration that a member describes, if it stands under its own name. -/
def Declaration.ofMember? (member : String × Json.Value) : Option Declaration :=
  (ofValue? member.2).filter (·.name = member.1)

namespace Registry

/-- The registry that a value describes: its members are registered one after another. -/
def ofValue? : Json.Value → Option Registry
  | .object members => (members.mapM Declaration.ofMember?).map ofList
  | _ => none

/-- Rebuilds a registry from a text. -/
def read? (text : String) : Option Registry := (Json.read? text).bind ofValue?

end Registry

/-- If each element can be decoded, so can the list. -/
theorem mapM_map_eq_some {α β : Type} {encode : α → β} {decode : β → Option α}
    (h : ∀ a, decode (encode a) = some a) (as : List α) :
    (as.map encode).mapM decode = some as := by
  have hpure : decode ∘ encode = pure := funext h
  rw [List.mapM_map, hpure, List.mapM_pure, List.map_id']
  rfl

/-- What the dump says of a field. -/
def Field.value (f : Field) : Json.Value :=
  .object [("name", .string f.name), ("declared_type", .string f.typeName),
    ("is_array", .bool f.isArray)]

/-- What the dump says of a declaration. -/
def Declaration.value (d : Declaration) : Json.Value :=
  .object [("name", .string d.name), ("source_path", .string d.path.text),
    ("fields", .array (d.fields.map Field.value))]

theorem Field.ofValue?_value (f : Field) : ofValue? f.value = some f := rfl

theorem Declaration.value_json (d : Declaration) : d.json.value = d.value := by
  have hfields : Json.elementValues (d.fields.map Field.json) = d.fields.map Field.value := by
    rw [Json.elementValues_eq_map, List.map_map]
    rfl
  rw [value, ← hfields]
  rfl

theorem Declaration.ofValue?_value (d : Declaration) : ofValue? d.value = some d := by
  have hfields : (d.fields.map Field.value).mapM Field.ofValue? = some d.fields :=
    mapM_map_eq_some Field.ofValue?_value d.fields
  rw [value, ofValue?, hfields]
  rfl

/-! ### The dump -/

namespace Registry

theorem value_json (r : Registry) :
    r.json.value = .object (r.declarations.map fun d => (d.name, d.value)) := by
  rw [json, Json.value, Json.memberValues_eq_map, List.map_map]
  congr 1
  exact List.map_congr_left fun d _ => congrArg (Prod.mk d.name) d.value_json

/-- A registry is rebuilt from its dump. -/
theorem read?_dump (r : Registry) : read? r.dump = some r := by
  have hmember : ∀ d : Declaration, Declaration.ofMember? (d.name, d.value) = some d := by
    intro d
    rw [Declaration.ofMember?, d.ofValue?_value, Option.filter_some, if_pos (decide_eq_true rfl)]
  rw [read?, dump, Json.read?_text, value_json, Option.bind_some, ofValue?,
    mapM_map_eq_some hmember, Option.map_some, ofList_declarations]

/-- **A dump tells all.** Read as JSON, the dump of a registry is an object. Its keys are the names, in
order and each once, and the value of each says the name, the path and the fields of its declaration.
The registry that is rebuilt from it is the same, and no other registry has this dump. -/
theorem dump_reads_back (r : Registry) :
    (∃ members : List (String × Json.Value),
      Json.read? r.dump = some (.object members) ∧
      members.map Prod.fst = r.names ∧ (members.map Prod.fst).Nodup ∧
      members = r.declarations.map fun d => (d.name, .object [("name", .string d.name),
        ("source_path", .string d.path.text),
        ("fields", .array (d.fields.map fun f => .object [("name", .string f.name),
          ("declared_type", .string f.typeName), ("is_array", .bool f.isArray)]))])) ∧
    read? r.dump = some r ∧
    ∀ other : Registry, other.dump = r.dump → other = r := by
  have hnames : (r.declarations.map fun d => (d.name, d.value)).map Prod.fst = r.names := by
    rw [List.map_map]
    rfl
  refine ⟨⟨_, ?_, hnames, hnames ▸ r.nodup, rfl⟩, read?_dump r, fun other h => ?_⟩
  · rw [dump, Json.read?_text, value_json]
  · have hread := read?_dump other
    rw [h, read?_dump] at hread
    exact (Option.some.inj hread).symm

end Registry

end Understudy
