import Mathlib.Data.List.Nodup
import Understudy.Declaration.Scan
import Understudy.Registry

/-!
# Understudy.Proofs.Registry

What a registry holds after declarations have been registered in order: each name once, where it
first came (`names_ofList`), and for each name the declaration that came last (`get?_ofList`). The
two are independent of each other, and together they fix the list of declarations. Declarations with
distinct names are held as they come (`ofList_declarations`).

Order of first occurrence is that of `List.eraseDups`; it is used again for the imports of a module,
so its laws are stated for any view of the elements of a list.
-/

namespace Understudy

/-! ### First occurrences -/

section FirstOccurrence

variable {α β : Type} [DecidableEq β]

/-- Without its repetitions, a list is in the order in which its elements first occur. -/
theorem pairwise_eraseDups_filterMap (l : List α) (f : α → Option β) :
    (l.filterMap f).eraseDups.Pairwise fun a b =>
      l.findIdx (fun x => decide (f x = some a)) < l.findIdx (fun x => decide (f x = some b)) := by
  induction l generalizing f with
  | nil => exact List.Pairwise.nil
  | cons x rest ih =>
      cases hx : f x with
      | none =>
          rw [List.filterMap_cons_none hx]
          refine (ih f).imp fun {a b} hab => ?_
          simpa [List.findIdx_cons, hx] using hab
      | some y =>
          rw [List.filterMap_cons_some hx, List.eraseDups_cons, List.filter_filterMap]
          -- the rest is deduplicated without `y`, so the induction is for a view that leaves it out
          have hne : ∀ b ∈ (rest.filterMap fun z => (f z).filter fun c => !c == y).eraseDups,
              b ≠ y := by
            intro b hb
            rw [List.mem_eraseDups, List.mem_filterMap] at hb
            obtain ⟨z, -, hz⟩ := hb
            obtain ⟨-, hby⟩ := Option.filter_eq_some_iff.mp hz
            simpa using hby
          have hview : ∀ b ≠ y, ∀ z,
              decide ((f z).filter (fun c => !c == y) = some b) = decide (f z = some b) := by
            intro b hb z
            rw [decide_eq_decide, Option.filter_eq_some_iff]
            exact ⟨And.left, fun hz => ⟨hz, by simpa using hb⟩⟩
          refine List.Pairwise.cons (fun b hb => ?_) ((ih _).imp_of_mem fun {a b} ha hb hab => ?_)
          · have hyb : y ≠ b := fun h => hne b hb h.symm
            simp [List.findIdx_cons, hx, hyb]
          · have hya : y ≠ a := fun h => hne a ha h.symm
            have hyb : y ≠ b := fun h => hne b hb h.symm
            simp only [hview a (hne a ha), hview b (hne b hb)] at hab
            simpa [List.findIdx_cons, hx, hya, hyb] using hab

theorem nodup_eraseDups (l : List β) : l.eraseDups.Nodup := by
  have h := pairwise_eraseDups_filterMap l some
  rw [List.filterMap_some] at h
  exact h.imp fun {a b} hab heq => absurd hab (by rw [heq]; exact Nat.lt_irrefl _)

theorem eraseDups_of_nodup {l : List β} (h : l.Nodup) : l.eraseDups = l := by
  induction l with
  | nil => rfl
  | cons a rest ih =>
      obtain ⟨ha, hrest⟩ := List.nodup_cons.mp h
      have hfilter : (rest.filter fun b => !b == a) = rest := by
        refine List.filter_eq_self.mpr fun b hb => ?_
        have hba : b ≠ a := fun h => ha (h ▸ hb)
        simpa using hba
      rw [List.eraseDups_cons, hfilter, ih hrest]

/-- What a list holds already adds nothing to it. -/
theorem eraseDups_append_cons_of_mem {as bs : List β} {b : β} (h : b ∈ as) :
    (as ++ b :: bs).eraseDups = (as ++ bs).eraseDups := by
  have hremove : (b :: bs).removeAll as = bs.removeAll as := by
    rw [List.cons_removeAll, if_neg (by simpa using h)]
  rw [List.eraseDups_append, List.eraseDups_append, hremove]

end FirstOccurrence

namespace Registry

/-- The registry of some files, each with its text: those that name an interface, in order. -/
def ofFiles (files : List (Path × String)) : Registry :=
  ofList (files.filterMap fun file => Declaration.parse? file.1 file.2)

/-! ### Names -/

theorem names_register (r : Registry) (d : Declaration) :
    (r.register d).names = if d.name ∈ r.names then r.names else r.names ++ [d.name] :=
  map_name_place d r.declarations

theorem names_registerAll (r : Registry) (ds : List Declaration) :
    (r.registerAll ds).names = (r.names ++ ds.map Declaration.name).eraseDups := by
  induction ds generalizing r with
  | nil =>
      rw [List.map_nil, List.append_nil]
      exact (eraseDups_of_nodup r.nodup).symm
  | cons d rest ih =>
      rw [registerAll, ih, names_register, List.map_cons]
      by_cases h : d.name ∈ r.names
      · rw [if_pos h, eraseDups_append_cons_of_mem h]
      · rw [if_neg h, List.append_assoc]
        rfl

/-- Names stand in the order in which they first came. -/
theorem names_ofList (ds : List Declaration) :
    (ofList ds).names = (ds.map Declaration.name).eraseDups :=
  names_registerAll empty ds

theorem contains_iff (r : Registry) (name : String) :
    r.contains name = true ↔ ∃ d ∈ r.declarations, d.name = name := by
  rw [contains, List.contains_iff_mem]
  exact List.mem_map

/-! ### Declarations -/

theorem find?_place (d : Declaration) (ds : List Declaration) (name : String) :
    (place d ds).find? (fun e => e.name = name) =
      if d.name = name then some d else ds.find? fun e => e.name = name := by
  induction ds with
  | nil => by_cases h : d.name = name <;> simp [place, h]
  | cons e rest ih =>
      unfold place
      by_cases he : e.name = d.name
      · rw [if_pos he]
        by_cases h : d.name = name <;> simp [h, he]
      · rw [if_neg he, List.find?_cons, ih]
        by_cases h : e.name = name
        · have hd : d.name ≠ name := fun hd => he (h.trans hd.symm)
          simp [h, hd]
        · simp [h]

theorem get?_register (r : Registry) (d : Declaration) (name : String) :
    (r.register d).get? name = if d.name = name then some d else r.get? name :=
  find?_place d r.declarations name

theorem get?_registerAll (r : Registry) (ds : List Declaration) (name : String) :
    (r.registerAll ds).get? name = (ds.reverse.find? fun d => d.name = name).or (r.get? name) := by
  induction ds generalizing r with
  | nil => rfl
  | cons d rest ih =>
      rw [registerAll, ih, get?_register, List.reverse_cons, List.find?_append, Option.or_assoc]
      by_cases h : d.name = name <;> simp [h]

/-- Of the declarations of a name, the last one is held. -/
theorem get?_ofList (ds : List Declaration) (name : String) :
    (ofList ds).get? name = ds.reverse.find? fun d => d.name = name := by
  rw [ofList, get?_registerAll]
  exact Option.or_none

/-- A declaration of a registry is the one held for its name. -/
theorem get?_of_mem {r : Registry} {d : Declaration} (h : d ∈ r.declarations) :
    r.get? d.name = some d := by
  obtain ⟨e, he⟩ : ∃ e, r.get? d.name = some e :=
    Option.isSome_iff_exists.mp (List.find?_isSome.mpr ⟨d, h, by simp⟩)
  have hname : e.name = d.name := by simpa using List.find?_some he
  rw [he, List.inj_on_of_nodup_map r.nodup (List.mem_of_find?_eq_some he) h hname]

/-- Only one declaration of a registry has a given name. -/
theorem filter_name_eq {r : Registry} {d : Declaration} (h : d ∈ r.declarations) :
    r.declarations.filter (fun e => e.name = d.name) = [d] := by
  obtain ⟨before, after, hsplit⟩ := List.append_of_mem h
  have hnodup := r.nodup
  rw [hsplit, List.map_append, List.map_cons, List.nodup_middle, List.nodup_cons] at hnodup
  have hother : ∀ e ∈ before ++ after, e.name ≠ d.name := fun e he hname =>
    hnodup.1 (List.map_append ▸ List.mem_map.mpr ⟨e, he, hname⟩)
  have hbefore : before.filter (fun e => e.name = d.name) = [] := by
    simpa [List.filter_eq_nil_iff] using fun e he => hother e (List.mem_append_left _ he)
  have hafter : after.filter (fun e => e.name = d.name) = [] := by
    simpa [List.filter_eq_nil_iff] using fun e he => hother e (List.mem_append_right _ he)
  rw [hsplit, List.filter_append, List.filter_cons_of_pos (by simp), hbefore, hafter]
  rfl

/-- A declaration of a registry was registered, and no later one has its name. -/
theorem last_of_mem_ofList {ds : List Declaration} {d : Declaration}
    (h : d ∈ (ofList ds).declarations) :
    ∃ before after, ds = before ++ d :: after ∧ ∀ e ∈ after, e.name ≠ d.name := by
  have hget := get?_of_mem h
  rw [get?_ofList, List.find?_eq_some_iff_append] at hget
  obtain ⟨-, after, before, hsplit, hafter⟩ := hget
  refine ⟨before.reverse, after.reverse, ?_, fun e he => ?_⟩
  · rw [← List.reverse_reverse ds, hsplit]
    simp
  · simpa using hafter e (List.mem_reverse.mp he)

/-! ### Distinct declarations -/

theorem place_of_not_mem {d : Declaration} {ds : List Declaration}
    (h : d.name ∉ ds.map Declaration.name) : place d ds = ds ++ [d] := by
  induction ds with
  | nil => rfl
  | cons e rest ih =>
      obtain ⟨hne, hrest⟩ := List.ne_and_not_mem_of_not_mem_cons h
      rw [place, if_neg hne.symm, ih hrest, List.cons_append]

/-- Declarations with new names, no two of them the same, come at the end. -/
theorem declarations_registerAll {r : Registry} {ds : List Declaration}
    (h : ((r.declarations ++ ds).map Declaration.name).Nodup) :
    (r.registerAll ds).declarations = r.declarations ++ ds := by
  induction ds generalizing r with
  | nil => rw [registerAll, List.append_nil]
  | cons d ds ih =>
      have hnew : d.name ∉ r.declarations.map Declaration.name := by
        rw [List.map_append, List.map_cons, List.nodup_middle, List.nodup_cons] at h
        exact fun hmem => h.1 (List.mem_append_left _ hmem)
      have hregister : (r.register d).declarations = r.declarations ++ [d] := place_of_not_mem hnew
      have happend : (r.register d).declarations ++ ds = r.declarations ++ d :: ds := by
        rw [hregister, List.append_assoc, List.singleton_append]
      rw [registerAll, ih (happend ▸ h), happend]

/-- A registry is that of its own declarations. -/
theorem ofList_declarations (r : Registry) : ofList r.declarations = r := by
  have h : (ofList r.declarations).declarations = r.declarations :=
    declarations_registerAll (r := empty) r.nodup
  calc ofList r.declarations = ⟨(ofList r.declarations).declarations, (ofList _).nodup⟩ := rfl
    _ = ⟨r.declarations, r.nodup⟩ := by simp only [h]
    _ = r := rfl

end Registry

end Understudy
