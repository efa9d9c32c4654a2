import Mathlib.Data.List.Perm.Basic
import Mathlib.Logic.Relation
import Understudy.Proofs.Links
import Understudy.Provider.Scripted

/-!
# Understudy.Proofs.Initialization

**When generated constants can be initialised.** A constant depends on another one that it spreads,
and it can only be initialised after it. A first constant never spreads itself, but nothing keeps two
interfaces from referring to each other, and then their first constants do depend on each other. Here
it is said just when that happens: a constant depends on itself if and only if it is a first one and
its interface leads back to itself by references from one interface to a different one. Where there
is no such circle, the modules can be evaluated one after another, every constant after those that it
spreads.

## Shape

Only first constants are spread, so a chain of dependencies runs through first constants after its
first step; and from a first constant on, each step is a reference to a different interface
(`refers_of_depends`). The order of evaluation is a linear order of the declarations that respects
references, which `exists_perm_pairwise` finds for any relation without circles.
-/

namespace Understudy

variable {σ : Type}

/-! ### Orders that respect a relation -/

/-- Elements that do not depend on themselves, however indirectly, can be put into an order in which
none depends on a later one. -/
theorem exists_perm_pairwise {α : Type} {dep : α → α → Prop}
    (hacyclic : ∀ a, ¬ Relation.TransGen dep a a) (l : List α) :
    ∃ order : List α, order.Perm l ∧ order.Pairwise fun a b => ¬ dep a b := by
  classical
  induction l with
  | nil => exact ⟨[], List.Perm.refl _, List.Pairwise.nil⟩
  | cons x rest ih =>
      obtain ⟨order, hperm, hpairwise⟩ := ih
      -- `x` goes behind all that it depends on, and before all else
      let needed : α → Bool := fun b => decide (Relation.TransGen dep x b)
      refine ⟨order.filter needed ++ x :: order.filter (fun b => !needed b), ?_, ?_⟩
      · refine List.perm_middle.trans (List.Perm.cons x ?_)
        exact (List.filter_append_perm needed order).trans hperm
      · refine List.pairwise_append.mpr ⟨hpairwise.filter _, List.pairwise_cons.mpr
          ⟨fun b hb hdep => ?_, hpairwise.filter _⟩, fun a ha b hb hdep => ?_⟩
        · have hnot := (List.mem_filter.mp hb).2
          simp only [needed, Bool.not_eq_true', decide_eq_false_iff_not] at hnot
          exact hnot (Relation.TransGen.single hdep)
        · have hneeded : Relation.TransGen dep x a := of_decide_eq_true (List.mem_filter.mp ha).2
          rcases List.mem_cons.mp hb with rfl | hb
          · exact hacyclic _ (hneeded.tail hdep)
          · have hnot := (List.mem_filter.mp hb).2
            simp only [needed, Bool.not_eq_true', decide_eq_false_iff_not] at hnot
            exact hnot (hneeded.tail hdep)

namespace Registry

variable (r : Registry) (layout : Layout) (p : Provider σ) (start : Declaration → σ)

/-! ### Dependencies and references -/

/-- The constants of all modules of a run. -/
def constants : List Constant := r.declarations.flatMap fun d => (r.document layout p start d).constants

/-- A constant of a run depends on one that a value in it spreads. -/
def Depends (m n : MockName) : Prop :=
  ∃ c ∈ r.constants layout p start, c.name = m ∧
    ∃ e ∈ r.constants layout p start, e.name = n ∧ ∃ q ∈ c.properties, q.Spreads n.text

/-- An interface refers to a different one if a field of it does. -/
def Refers (one other : String) : Prop :=
  one ≠ other ∧ ∃ d ∈ r.declarations, d.name = one ∧
    ∃ field ∈ d.fields, field.target? r.contains = some other

variable {r}

theorem refers_iff {d : Declaration} (h : d ∈ r.declarations) (other : String) :
    r.Refers d.name other ↔ other ∈ d.targets r.contains := by
  rw [Declaration.mem_targets_iff]
  constructor
  · intro hrefers
    obtain ⟨hne, e, he, hname, hfield⟩ := hrefers
    rw [List.inj_on_of_nodup_map r.nodup he h hname] at hfield
    exact ⟨hne.symm, hfield⟩
  · intro htarget
    obtain ⟨hne, hfield⟩ := htarget
    exact ⟨hne.symm, d, h, rfl, hfield⟩

/-- Only first constants are spread; and but for a later constant that spreads the first one beside
it, a dependency is a reference between different interfaces. -/
theorem refers_of_depends {m n : MockName} (h : r.Depends layout p start m n) :
    n = MockName.first n.interface ∧
      (r.Refers m.interface n.interface ∨ (m.interface = n.interface ∧ m.index ≠ 1)) := by
  obtain ⟨c, hc, rfl, e, he, rfl, q, hq, hspreads⟩ := h
  obtain ⟨d, hd, hc⟩ := List.mem_flatMap.mp hc
  obtain ⟨d', hd', he⟩ := List.mem_flatMap.mp he
  obtain ⟨before, after, hsplit⟩ := List.append_of_mem hc
  obtain ⟨hcInterface, -⟩ := r.name_of_mem_constants layout p start hc
  have hindex : c.name.index = before.length + 1 :=
    congrArg (fun o => o.1.index) (r.outline_of_split layout p start hsplit).1
  rcases r.cases_of_spreads layout p start hsplit hq hspreads with
    ⟨target, htarget, htext⟩ | ⟨hne, htext⟩
  · obtain ⟨hname, hfirst⟩ := r.eq_first_of_text_eq layout p start he htext.symm
    rw [hfirst, hcInterface, ← hname]
    exact ⟨rfl, Or.inl ((refers_iff hd target).mpr htarget)⟩
  · obtain ⟨hname, hfirst⟩ := r.eq_first_of_text_eq layout p start he htext.symm
    have hlength : 0 < before.length := List.length_pos_iff.mpr hne
    rw [hfirst, hcInterface, hname]
    exact ⟨rfl, Or.inr ⟨rfl, by omega⟩⟩

/-- The first constant of an interface depends on those of the interfaces it refers to. -/
theorem depends_of_refers {one other : String} (h : r.Refers one other) :
    r.Depends layout p start (MockName.first one) (MockName.first other) := by
  obtain ⟨d, hd, rfl⟩ : ∃ d ∈ r.declarations, d.name = one := by
    obtain ⟨-, d, hd, hname, -⟩ := h
    exact ⟨d, hd, hname⟩
  have htarget := (refers_iff hd other).mp h
  obtain ⟨-, e, he, rfl⟩ := r.exists_of_mem_targets htarget
  obtain ⟨first, rest, hsplit, houtline⟩ := r.exists_first layout p start d
  obtain ⟨first', rest', hsplit', houtline'⟩ := r.exists_first layout p start e
  refine ⟨first, List.mem_flatMap.mpr ⟨d, hd, hsplit ▸ List.mem_cons_self⟩,
    congrArg Prod.fst houtline, first', List.mem_flatMap.mpr ⟨e, he, hsplit' ▸ List.mem_cons_self⟩,
    congrArg Prod.fst houtline', ?_⟩
  exact ((r.mem_targets_iff_spreads houtline e.name).mp htarget).2

/-- From a first constant on, dependencies are references between different interfaces. -/
theorem transGen_refers_of_depends {m n : MockName} (hm : m.index = 1)
    (h : Relation.TransGen (r.Depends layout p start) m n) :
    Relation.TransGen r.Refers m.interface n.interface ∧ n.index = 1 := by
  induction h with
  | single hdep =>
      obtain ⟨hfirst, hrefers | ⟨-, hindex⟩⟩ := refers_of_depends layout p start hdep
      · exact ⟨.single hrefers, congrArg MockName.index hfirst⟩
      · exact absurd hm hindex
  | tail _ hdep ih =>
      obtain ⟨hfirst, hrefers | ⟨-, hindex⟩⟩ := refers_of_depends layout p start hdep
      · exact ⟨ih.1.tail hrefers, congrArg MockName.index hfirst⟩
      · exact absurd ih.2 hindex

/-- A constant depends on itself if and only if it is the first one of an interface that refers back
to itself by way of others. -/
theorem transGen_depends_self_iff (m : MockName) :
    Relation.TransGen (r.Depends layout p start) m m ↔
      m.index = 1 ∧ Relation.TransGen r.Refers m.interface m.interface := by
  constructor
  · intro h
    obtain ⟨n, -, hdep⟩ := Relation.TransGen.tail'_iff.mp h
    have hm : m.index = 1 := congrArg MockName.index (refers_of_depends layout p start hdep).1
    exact ⟨hm, (transGen_refers_of_depends layout p start hm h).1⟩
  · intro hchain
    obtain ⟨hm, h⟩ := hchain
    have hfirst : m = MockName.first m.interface := by
      cases m
      cases hm
      rfl
    rw [hfirst]
    exact h.lift MockName.first fun _ _ => depends_of_refers layout p start

/-- No circle of dependencies means no circle of references, and the other way round. -/
theorem acyclic_depends_iff :
    (∀ m, ¬ Relation.TransGen (r.Depends layout p start) m m) ↔
      ∀ interface, ¬ Relation.TransGen r.Refers interface interface := by
  constructor
  · intro h interface hcycle
    exact h (MockName.first interface)
      ((transGen_depends_self_iff layout p start _).mpr ⟨rfl, hcycle⟩)
  · intro h m hcycle
    exact h m.interface ((transGen_depends_self_iff layout p start m).mp hcycle).2

/-! ### Orders of evaluation -/

variable (r) in
/-- Evaluating the modules of some declarations in order, each from top to bottom, initialises every
constant before it is spread. -/
def Initializes (order : List Declaration) : Prop :=
  ∀ pre d post, order = pre ++ d :: post →
    ∀ before c after, (r.document layout p start d).constants = before ++ c :: after →
      ∀ q ∈ c.properties, ∀ name, q.Spreads name →
        ∃ e ∈ (pre.flatMap fun d => (r.document layout p start d).constants) ++ before,
          e.name.text = name

/-- Without circles of references, there is an order of the modules that works. -/
theorem exists_initializes
    (hacyclic : ∀ interface, ¬ Relation.TransGen r.Refers interface interface) :
    ∃ order : List Declaration, order.Perm r.declarations ∧ r.Initializes layout p start order := by
  have hdep : ∀ d : Declaration,
      ¬ Relation.TransGen (fun a b : Declaration => r.Refers a.name b.name) d d := fun d h =>
    hacyclic d.name (h.lift Declaration.name fun _ _ => id)
  obtain ⟨order, hperm, hpairwise⟩ := exists_perm_pairwise hdep r.declarations
  refine ⟨order, hperm, ?_⟩
  intro pre d post horder before c after hsplit q hq name hspreads
  subst horder
  have hd : d ∈ r.declarations := hperm.mem_iff.mp (by simp)
  rcases r.cases_of_spreads layout p start hsplit hq hspreads with
    ⟨target, htarget, rfl⟩ | ⟨hne, rfl⟩
  · obtain ⟨hother, e, he, rfl⟩ := r.exists_of_mem_targets htarget
    have hrefers := (refers_iff hd e.name).mpr htarget
    -- `e` is neither `d` nor behind it, for `d` refers to it
    have hpre : e ∈ pre := by
      rcases List.mem_append.mp (hperm.mem_iff.mpr he) with h | h
      · exact h
      · rcases List.mem_cons.mp h with rfl | h
        · exact absurd rfl hother
        · have hlater := (List.pairwise_cons.mp (List.pairwise_append.mp hpairwise).2.1).1
          exact absurd hrefers (hlater e h)
    obtain ⟨first, rest, hfirst, houtline⟩ := r.exists_first layout p start e
    refine ⟨first, List.mem_append_left _ (List.mem_flatMap.mpr ⟨e, hpre, ?_⟩), ?_⟩
    · exact hfirst ▸ List.mem_cons_self
    · exact congrArg (fun o => o.1.text) houtline
  · obtain ⟨first, hfirst, hname⟩ := r.first_mem_of_split layout p start hsplit hne
    exact ⟨first, List.mem_append_right _ hfirst, by rw [hname]⟩

/-- In an order that works, an interface stands behind those it refers to. -/
theorem idxOf_lt_of_refers {order : List Declaration} (hperm : order.Perm r.declarations)
    (h : r.Initializes layout p start order) {one other : String} (hrefers : r.Refers one other) :
    (order.map Declaration.name).idxOf other < (order.map Declaration.name).idxOf one := by
  obtain ⟨d, hd, rfl⟩ : ∃ d ∈ r.declarations, d.name = one := by
    obtain ⟨-, d, hd, hname, -⟩ := hrefers
    exact ⟨d, hd, hname⟩
  obtain ⟨pre, post, rfl⟩ := List.append_of_mem (hperm.mem_iff.mpr hd)
  obtain ⟨first, rest, hsplit, houtline⟩ := r.exists_first layout p start d
  obtain ⟨-, q, hq, hspreads⟩ :=
    (r.mem_targets_iff_spreads houtline other).mp ((refers_iff hd other).mp hrefers)
  obtain ⟨e, he, htext⟩ := h pre d post rfl [] first rest hsplit q hq _ hspreads
  rw [List.append_nil] at he
  obtain ⟨d', hd', he⟩ := List.mem_flatMap.mp he
  have hother : other ∈ pre.map Declaration.name := by
    rw [(r.eq_first_of_text_eq layout p start he htext.symm).1]
    exact List.mem_map_of_mem hd'
  have hnodup : ((pre ++ d :: post).map Declaration.name).Nodup :=
    (hperm.map Declaration.name).nodup_iff.mpr r.nodup
  rw [List.map_append, List.map_cons] at hnodup ⊢
  have hnot : d.name ∉ pre.map Declaration.name := fun hmem =>
    List.disjoint_of_nodup_append hnodup hmem List.mem_cons_self
  rw [List.idxOf_append_of_mem hother, List.idxOf_append_of_notMem hnot]
  exact Nat.lt_add_right _ (List.idxOf_lt_length_of_mem hother)

theorem acyclic_of_initializes {order : List Declaration} (hperm : order.Perm r.declarations)
    (h : r.Initializes layout p start order) (interface : String) :
    ¬ Relation.TransGen r.Refers interface interface := by
  have hlt : ∀ {one other}, Relation.TransGen r.Refers one other →
      (order.map Declaration.name).idxOf other < (order.map Declaration.name).idxOf one := by
    intro one other hchain
    induction hchain with
    | single hrefers => exact idxOf_lt_of_refers layout p start hperm h hrefers
    | tail _ hrefers ih =>
        exact Nat.lt_trans (idxOf_lt_of_refers layout p start hperm h hrefers) ih
  exact fun hcycle => absurd (hlt hcycle) (Nat.lt_irrefl _)

/-- **Initialisation.** Whatever declarations have been registered, whatever the layout, the provider
and its states: no constant spreads itself and only first constants are spread; a constant depends on
itself by way of others if and only if it is the first one of an interface that refers back to itself
by way of others; and the modules can be evaluated in some order, every constant after those that it
spreads, if and only if no constant depends on itself. -/
theorem constants_initializable_iff (ds : List Declaration) :
    (∀ m, ¬ (ofList ds).Depends layout p start m m) ∧
    (∀ m n, (ofList ds).Depends layout p start m n → n = MockName.first n.interface) ∧
    (∀ m, Relation.TransGen ((ofList ds).Depends layout p start) m m ↔
      m.index = 1 ∧ Relation.TransGen (ofList ds).Refers m.interface m.interface) ∧
    ((∀ m, ¬ Relation.TransGen ((ofList ds).Depends layout p start) m m) ↔
      ∃ order : List Declaration, order.Perm (ofList ds).declarations ∧
        (ofList ds).Initializes layout p start order) := by
  refine ⟨fun m h => ?_, fun m n h => (refers_of_depends layout p start h).1,
    transGen_depends_self_iff layout p start, ?_⟩
  · obtain ⟨hfirst, hrefers | ⟨-, hindex⟩⟩ := refers_of_depends layout p start h
    · exact hrefers.1 rfl
    · exact hindex (congrArg MockName.index hfirst)
  · rw [acyclic_depends_iff]
    exact ⟨exists_initializes layout p start,
      fun ⟨order, hperm, h⟩ => acyclic_of_initializes layout p start hperm h⟩

/-- Two interfaces that refer to each other. -/
def mutualReferences : Registry :=
  ofFiles [(⟨"A.interface.ts"⟩, "export interface A \x7b\n  b: B;\n\x7d\n"),
    (⟨"B.interface.ts"⟩, "export interface B \x7b\n  a: A;\n\x7d\n")]

/-- The first constant of an interface can depend on itself by way of another interface. -/
theorem depends_cycle_of_mutual_references :
    Relation.TransGen (mutualReferences.Depends {} (Script.provider {}) fun _ => {})
      (MockName.first "A") (MockName.first "A") := by
  have hab : mutualReferences.Refers "A" "B" :=
    ⟨by decide, ⟨"A", ⟨"A.interface.ts"⟩, [⟨"b", "B", false⟩]⟩, by decide, rfl, ⟨"b", "B", false⟩,
      by decide, by decide⟩
  have hba : mutualReferences.Refers "B" "A" :=
    ⟨by decide, ⟨"B", ⟨"B.interface.ts"⟩, [⟨"a", "A", false⟩]⟩, by decide, rfl, ⟨"a", "A", false⟩,
      by decide, by decide⟩
  exact (Relation.TransGen.single (depends_of_refers _ _ _ hab)).tail (depends_of_refers _ _ _ hba)

end Registry

end Understudy
