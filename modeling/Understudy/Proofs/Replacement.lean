import Mathlib.Data.List.Perm.Basic
import Mathlib.Data.List.ReduceOption
import Understudy.Proofs.Registry

/-!
# Understudy.Proofs.Replacement

What registering gives back. A declaration takes the place of the one that was held for its name, if
there was one, and that one is given back; so at each step no declaration gets lost and none is made
up (`perm_place`), and over a whole run what was given back and what is held in the end are together
what was registered (`perm_registerAll`).

Where a name stands and what is held for it are independent of each other: a name stays where it
came first, while the declaration is the one that came last. `Tracks` puts all of this together, and
it holds of every list of declarations (`tracks_ofList`).
-/

namespace Understudy

namespace Registry

/-! ### What gives way -/

/-- The declaration that gives way when another one is registered. -/
def replaced? (r : Registry) (d : Declaration) : Option Declaration := r.get? d.name

/-- What gives way at each step when declarations are registered in order. -/
def replacements (r : Registry) : List Declaration → List (Option Declaration)
  | [] => []
  | d :: rest => r.replaced? d :: (r.register d).replacements rest

/-- The last declaration of a name among some. -/
def last? (name : String) (ds : List Declaration) : Option Declaration :=
  (ds.filter fun d => d.name = name).getLast?

theorem last?_cons (name : String) (d : Declaration) (ds : List Declaration) :
    last? name (d :: ds) = (last? name ds).or (if d.name = name then some d else none) := by
  unfold last?
  by_cases h : d.name = name
  · rw [List.filter_cons_of_pos (by simpa using h), List.getLast?_cons, if_pos h]
    cases (ds.filter fun e => e.name = name).getLast? <;> rfl
  · rw [List.filter_cons_of_neg (by simpa using h), if_neg h, Option.or_none]

/-- What is held for a name after a run is the last declaration of it, or else what was held
before. -/
theorem get?_registerAll_eq_last? (r : Registry) (ds : List Declaration) (name : String) :
    (r.registerAll ds).get? name = (last? name ds).or (r.get? name) := by
  rw [get?_registerAll, last?, ← List.head?_filter, List.filter_reverse, List.head?_reverse]

/-- What gives way is the last declaration of the same name so far, or else what was held for it
before the run. -/
theorem getElem?_replacements (r : Registry) (ds : List Declaration) (i : Nat) :
    (r.replacements ds)[i]? =
      ds[i]?.map fun d => (last? d.name (ds.take i)).or (r.get? d.name) := by
  induction ds generalizing r i with
  | nil => rfl
  | cons d rest ih =>
      cases i with
      | zero => rfl
      | succ i =>
          rw [replacements, List.getElem?_cons_succ, List.getElem?_cons_succ, ih, List.take_succ_cons]
          refine congrArg (fun f => rest[i]?.map f) (funext fun e => ?_)
          rw [get?_register, last?_cons, Option.or_assoc]
          split <;> rfl

theorem length_replacements (r : Registry) (ds : List Declaration) :
    (r.replacements ds).length = ds.length := by
  induction ds generalizing r with
  | nil => rfl
  | cons d rest ih => rw [replacements, List.length_cons, List.length_cons, ih]

/-- An event is reported for each declaration that gives way. -/
theorem registerAllEvents_eq (r : Registry) (ds : List Declaration) :
    r.registerAllEvents ds = (r.replacements ds).reduceOption.map .replaced := by
  induction ds generalizing r with
  | nil => rfl
  | cons d rest ih =>
      rw [registerAllEvents, replacements, registerEvents, ih, replaced?]
      cases r.get? d.name with
      | none => rw [List.reduceOption_cons_of_none]; rfl
      | some old => rw [List.reduceOption_cons_of_some]; rfl

/-! ### Nothing is lost -/

/-- A declaration that is put in takes the place of at most one other. -/
theorem perm_place (d : Declaration) (ds : List Declaration) :
    (d :: ds).Perm ((ds.find? fun e => e.name = d.name).toList ++ place d ds) := by
  induction ds with
  | nil => exact List.Perm.refl _
  | cons e rest ih =>
      by_cases h : e.name = d.name
      · rw [place, if_pos h, List.find?_cons_of_pos (by simpa using h)]
        exact List.Perm.swap e d rest
      · rw [place, if_neg h, List.find?_cons_of_neg (by simpa using h)]
        have hrest := (List.Perm.swap e d rest).trans (ih.cons e)
        exact hrest.trans List.perm_middle.symm

/-- What was held and what is registered is what gives way and what is held in the end. -/
theorem perm_registerAll (r : Registry) (ds : List Declaration) :
    (r.declarations ++ ds).Perm
      ((r.replacements ds).reduceOption ++ (r.registerAll ds).declarations) := by
  induction ds generalizing r with
  | nil => rw [List.append_nil]; exact List.Perm.refl _
  | cons d rest ih =>
      have hreduce : (r.replacements (d :: rest)).reduceOption =
          (r.replaced? d).toList ++ ((r.register d).replacements rest).reduceOption := by
        rw [replacements]
        cases r.replaced? d with
        | none => exact List.reduceOption_cons_of_none _
        | some old => exact List.reduceOption_cons_of_some old _
      have hstep : (r.declarations ++ d :: rest).Perm
          ((r.replaced? d).toList ++ ((r.register d).declarations ++ rest)) := by
        rw [← List.append_assoc]
        exact List.perm_middle.trans ((perm_place d r.declarations).append_right rest)
      rw [hreduce, registerAll, List.append_assoc]
      exact hstep.trans ((ih (r.register d)).append_left _)

/-! ### Runs -/

/-- What is held after some declarations have been registered, what has given way at each step and
what has been reported. -/
structure Tracks (ds : List Declaration) (r : Registry) (given : List (Option Declaration))
    (events : List Event) : Prop where
  /-- What is held under a name has that name. -/
  key : ∀ name d, r.get? name = some d → d.name = name
  /-- Each name stands once, and there are no others. -/
  nodup : r.names.Nodup
  mem_names : ∀ name, name ∈ r.names ↔ ∃ d ∈ ds, d.name = name
  /-- Names are in the order in which they first came. -/
  order : r.names.Pairwise fun a b =>
    (ds.map Declaration.name).idxOf a < (ds.map Declaration.name).idxOf b
  /-- What is held for a name came last. -/
  get? : ∀ name, r.get? name = last? name ds
  contains : ∀ name, r.contains name = true ↔ ∃ d ∈ ds, d.name = name
  /-- The declarations stand in the order of the names. -/
  declarations : r.declarations.map some = r.names.map r.get?
  /-- Every step gives back the last one of the same name before it, if there is one. -/
  length : given.length = ds.length
  replaced : ∀ i d, ds[i]? = some d → given[i]? = some (last? d.name (ds.take i))
  /-- No declaration is lost, and none is there twice. -/
  perm : ds.Perm (given.reduceOption ++ r.declarations)
  events : events = given.reduceOption.map .replaced

theorem ofList_eq_foldl (ds : List Declaration) : ofList ds = ds.foldl register empty := by
  unfold ofList
  generalize empty = r
  induction ds generalizing r with
  | nil => rfl
  | cons d rest ih => exact ih (r.register d)

theorem pairwise_names_ofList (ds : List Declaration) :
    (ofList ds).names.Pairwise fun a b =>
      (ds.map Declaration.name).idxOf a < (ds.map Declaration.name).idxOf b := by
  have h := pairwise_eraseDups_filterMap (ds.map Declaration.name) some
  rw [List.filterMap_some] at h
  rw [names_ofList]
  refine h.imp fun {a b} hab => ?_
  simpa [List.idxOf, Function.comp_def, beq_eq_decide] using hab

/-- The declarations of a registry are what is held for its names. -/
theorem map_get?_names (r : Registry) : r.declarations.map some = r.names.map r.get? := by
  rw [names, List.map_map]
  exact List.map_congr_left fun d hd => (get?_of_mem hd).symm

/-- **Registering.** Whatever declarations are registered one after another, at first with none
held: each name is held once and stands where it first came, the declaration held for it is the last
one of that name, every step gives back the one that it replaces, and what has been given back is,
with what is held in the end, what was registered, with one event for each that was given back. -/
theorem tracks_ofList (ds : List Declaration) :
    ofList ds = ds.foldl register empty ∧
      Tracks ds (ofList ds) (empty.replacements ds) (empty.registerAllEvents ds) := by
  have hmem : ∀ name, name ∈ (ofList ds).names ↔ ∃ d ∈ ds, d.name = name := by
    intro name
    rw [names_ofList, List.mem_eraseDups, List.mem_map]
  refine ⟨ofList_eq_foldl ds, ?_⟩
  constructor
  case key => exact fun name d hd => by simpa using List.find?_some hd
  case nodup => exact (ofList ds).nodup
  case mem_names => exact hmem
  case order => exact pairwise_names_ofList ds
  case get? =>
    intro name
    rw [ofList, get?_registerAll_eq_last?]
    exact Option.or_none
  case contains =>
    intro name
    rw [Registry.contains, List.contains_iff_mem]
    exact hmem name
  case declarations => exact map_get?_names _
  case length => exact length_replacements empty ds
  case replaced =>
    intro i d hd
    rw [getElem?_replacements, hd]
    exact congrArg some Option.or_none
  case perm => exact perm_registerAll empty ds
  case events => exact registerAllEvents_eq empty ds

end Registry

end Understudy
