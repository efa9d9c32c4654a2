import Understudy.Declaration.Basic
import Understudy.Event

/-!
# Understudy.Registry

The declarations of a run, by name. A later declaration of a name takes the place of the earlier
one, so names keep the order in which they first came.
-/

namespace Understudy

/-- Declarations with distinct names, in the order in which the names first came. -/
structure Registry where
  declarations : List Declaration
  nodup : (declarations.map Declaration.name).Nodup := by simp
  deriving Repr, DecidableEq

namespace Registry

def empty : Registry := ⟨[], by simp⟩

instance : EmptyCollection Registry := ⟨empty⟩

instance : Inhabited Registry := ⟨empty⟩

/-- The names, in order. -/
def names (r : Registry) : List String := r.declarations.map Declaration.name

/-- The declaration of a name. -/
def get? (r : Registry) (name : String) : Option Declaration :=
  r.declarations.find? fun d => d.name = name

/-- Whether a name is declared. -/
def contains (r : Registry) (name : String) : Bool := r.names.contains name

def size (r : Registry) : Nat := r.declarations.length

/-- Puts a declaration in the place of the one of the same name, or at the end. -/
def place (d : Declaration) : List Declaration → List Declaration
  | [] => [d]
  | e :: rest => if e.name = d.name then d :: rest else e :: place d rest

theorem map_name_place (d : Declaration) (ds : List Declaration) :
    (place d ds).map Declaration.name =
      if d.name ∈ ds.map Declaration.name then ds.map Declaration.name
      else ds.map Declaration.name ++ [d.name] := by
  induction ds with
  | nil => rfl
  | cons e rest ih =>
    by_cases h : e.name = d.name
    · simp [place, h]
    · simp only [place, h, if_false, List.map_cons, ih, List.mem_cons, Ne.symm h, false_or]
      split <;> rfl

theorem nodup_place (d : Declaration) {ds : List Declaration}
    (h : (ds.map Declaration.name).Nodup) : ((place d ds).map Declaration.name).Nodup := by
  rw [map_name_place]
  split
  · exact h
  · rename_i hd
    refine List.nodup_append.2 ⟨h, by simp, ?_⟩
    intro a ha b hb hab
    rw [List.mem_singleton] at hb
    exact hd (hb ▸ hab ▸ ha)

/-- The registry with one more declaration. -/
def register (r : Registry) (d : Declaration) : Registry :=
  ⟨place d r.declarations, nodup_place d r.nodup⟩

/-- The event of registering a declaration, if another one gives way to it. -/
def registerEvents (r : Registry) (d : Declaration) : List Event :=
  (r.get? d.name).toList.map .replaced

/-- Registers declarations in order. -/
def registerAll (r : Registry) : List Declaration → Registry
  | [] => r
  | d :: rest => (r.register d).registerAll rest

/-- The events of registering declarations in order. -/
def registerAllEvents (r : Registry) : List Declaration → List Event
  | [] => []
  | d :: rest => r.registerEvents d ++ (r.register d).registerAllEvents rest

/-- The registry of some declarations. -/
def ofList (ds : List Declaration) : Registry := empty.registerAll ds

end Registry

end Understudy
