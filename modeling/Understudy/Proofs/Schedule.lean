import Understudy.Proofs.Delivery

/-!
# Understudy.Proofs.Schedule

Modules with file names of their own may be written in any order. A schedule is a list of positions
of modules: the modules are written in this order, each into the tree that the ones before it have
left, and what becomes of a module is kept at its position (`Destination.Writing.inOrder`). The tree
is that of writing the modules in the order of the schedule (`tree_inOrder`), and what becomes of each
module was settled before the first one (`outcomes_inOrder`). So the tree after all of them depends
on the set of the modules only (`get?_foldl_put_of_mem`, `get?_foldl_put_of_forall_ne`).
-/

namespace Understudy

open FileTree

namespace Destination

/-! ### Schedules -/

/-- Writes under way: the tree, and at the position of each module what became of it, once it is
written. -/
structure Writing where
  tree : FileTree
  outcomes : List (Option Outcome)
  deriving DecidableEq

namespace Writing

/-- Before the first write. -/
def start (t : FileTree) (ms : List MockModule) : Writing := ⟨t, ms.map fun _ => none⟩

/-- Writes the module at a position. -/
def step (directory : Path) (ms : List MockModule) (w : Writing) (i : Nat) : Writing :=
  match ms[i]? with
  | none => w
  | some m =>
    ⟨(writeModule directory w.tree m).2,
      w.outcomes.set i (some (writeModule directory w.tree m).1)⟩

/-- Writes the modules at some positions, in the order of the positions. -/
def inOrder (directory : Path) (ms : List MockModule) (w : Writing) (order : List Nat) : Writing :=
  order.foldl (step directory ms) w

end Writing

/-- The modules at some positions. -/
def scheduled (ms : List MockModule) (order : List Nat) : List MockModule :=
  order.filterMap fun i => ms[i]?

section Schedule

variable {t u : FileTree} {directory : Path} {m : MockModule} {ms : List MockModule}
  {order : List Nat} {l k : Location} {w : Writing}

theorem scheduled_range (ms : List MockModule) : scheduled ms (List.range ms.length) = ms := by
  unfold scheduled
  induction ms with
  | nil => rfl
  | cons m rest ih =>
      rw [List.length_cons, List.range_succ_eq_map, List.filterMap_cons, List.filterMap_map]
      exact congrArg (List.cons m) ih

theorem perm_scheduled (horder : order.Perm (List.range ms.length)) :
    (scheduled ms order).Perm ms := by
  have hperm := horder.filterMap fun i => ms[i]?
  rwa [← scheduled, ← scheduled, scheduled_range] at hperm

theorem inOrder_cons (directory : Path) (ms : List MockModule) (w : Writing) (i : Nat)
    (rest : List Nat) : w.inOrder directory ms (i :: rest) =
      (w.step directory ms i).inOrder directory ms rest := rfl

theorem step_eq {i : Nat} (h : ms[i]? = some m) :
    w.step directory ms i = ⟨put directory w.tree w.tree m,
      w.outcomes.set i (some (writeModule directory w.tree m).1)⟩ := by
  have htree : (writeModule directory w.tree m).2 = put directory w.tree w.tree m := by
    rw [writeModule_eq]
  rw [Writing.step, h, ← htree]

/-- A schedule leaves the tree that writing the modules in its order leaves. -/
theorem tree_inOrder (directory : Path) (ms : List MockModule) (w : Writing) (order : List Nat) :
    (w.inOrder directory ms order).tree =
      (writeModules directory w.tree (scheduled ms order)).2 := by
  induction order generalizing w with
  | nil => rfl
  | cons i rest ih =>
      rw [inOrder_cons, ih, Writing.step]
      unfold scheduled
      rw [List.filterMap_cons]
      cases ms[i]? with
      | none => rfl
      | some m => rw [writeModules_cons]

/-- A module that is written does not change what becomes of another one. -/
theorem outcome_put {other : MockModule} (hname : IsName m.fileName)
    (hother : IsName other.fileName) (hne : other.fileName ≠ m.fileName)
    (hlinks : t.Linkless directory) :
    (writeModule directory (put directory t t m) other).1 = (writeModule directory t other).1 := by
  rw [writeModule_eq, writeModule_eq, place_put hname hother hne hlinks]

/-- What becomes of a module is kept at its position, and is what would have become of it before all
others. -/
theorem outcomes_inOrder (hnames : ∀ m ∈ ms, IsName m.fileName)
    (hnodup : (ms.map MockModule.fileName).Nodup) (hlinks : w.tree.Linkless directory)
    (hlength : w.outcomes.length = ms.length) (horder : order.Nodup)
    (hpositions : ∀ i ∈ order, i < ms.length) (i : Nat) :
    (w.inOrder directory ms order).outcomes[i]? =
      if i ∈ order then ms[i]?.map fun m => some (writeModule directory w.tree m).1
      else w.outcomes[i]? := by
  induction order generalizing w with
  | nil => rfl
  | cons j rest ih =>
      obtain ⟨hj, horder⟩ := List.nodup_cons.mp horder
      obtain ⟨hlt, hpositions⟩ := List.forall_mem_cons.mp hpositions
      obtain ⟨m, hm⟩ : ∃ m, ms[j]? = some m := ⟨_, List.getElem?_eq_getElem hlt⟩
      have hname := hnames m (List.mem_of_getElem? hm)
      have hlinks' : (w.step directory ms j).tree.Linkless directory := by
        rw [step_eq hm]
        exact linkless_put hname hlinks
      have hlength' : (w.step directory ms j).outcomes.length = ms.length := by
        rw [step_eq hm, List.length_set, hlength]
      rw [inOrder_cons, ih hlinks' hlength' horder hpositions, step_eq hm]
      by_cases hrest : i ∈ rest
      · rw [if_pos hrest, if_pos (List.mem_cons_of_mem j hrest)]
        refine Option.map_congr fun other hother => ?_
        -- the module has another name than the one at `j`, which is not written again
        have hne : other.fileName ≠ m.fileName := by
          intro heq
          have hsame : (ms.map MockModule.fileName)[i]? = (ms.map MockModule.fileName)[j]? := by
            rw [List.getElem?_map, List.getElem?_map, hother, hm, Option.map_some, heq,
              Option.map_some]
          have hi : i < (ms.map MockModule.fileName).length := by
            simpa using hpositions i hrest
          rw [(List.getElem?_inj hi hnodup).mp hsame] at hrest
          exact hj hrest
        rw [outcome_put hname (hnames other (List.mem_of_getElem? hother)) hne hlinks]
      · rw [if_neg hrest, List.getElem?_set]
        by_cases hi : j = i
        · subst hi
          rw [if_pos rfl, if_pos (by rwa [hlength]), if_pos List.mem_cons_self, hm, Option.map_some]
        · rw [if_neg hi, if_neg (List.not_mem_cons_of_ne_of_not_mem (Ne.symm hi) hrest)]

/-! ### Trees after a schedule -/

/-- Whether a module could be written into a tree. -/
def IsWritable (directory : Path) (t : FileTree) (m : MockModule) : Prop :=
  ∃ u, t.writeText (directory.join m.fileName) m.content = .ok u

theorem isWritable_iff : IsWritable directory t m ↔ ∃ l, place directory t m = .ok l := by
  unfold IsWritable place
  simp only [writeText_eq, bind_eq_ok_iff]
  constructor
  · intro h
    obtain ⟨_, l, hl, -⟩ := h
    exact ⟨l, hl⟩
  · intro h
    obtain ⟨l, hl⟩ := h
    exact ⟨_, l, hl, rfl⟩

/-- What becomes of a module that is written into a tree by itself. -/
def outcomeOf (directory : Path) (t : FileTree) (m : MockModule) : Outcome where
  interface := m.interface
  path := directory.join m.fileName
  failure? := failureOf (directory.join m.fileName)
    (t.writeText (directory.join m.fileName) m.content)

/-- What writing modules into a directory makes of a tree, each module by itself. -/
structure Isolated (directory : Path) (l : Location) (ms : List MockModule) (t u : FileTree) :
    Prop where
  /-- The modules that could be written into the tree as it was are there. -/
  written : ∀ m ∈ ms, IsWritable directory t m →
    u.get? (l ++ [m.fileName]) = some (.file m.content.toUTF8) ∧
      u.readText (directory.join m.fileName) = .ok m.content
  /-- All else is as it was. -/
  others : ∀ k, (∀ m ∈ ms, IsWritable directory t m → k ≠ l ++ [m.fileName]) → u.get? k = t.get? k
  /-- Each path that led somewhere leads there still. -/
  paths : ∀ p k, t.resolve p = .ok k → u.resolve p = .ok k

theorem Isolated.congr {others : List MockModule} (h : Isolated directory l ms t u)
    (hmem : ∀ m, m ∈ others ↔ m ∈ ms) : Isolated directory l others t u := by
  constructor
  case written => exact fun m hm => h.written m ((hmem m).mp hm)
  case others => exact fun k hk => h.others k fun m hm => hk m ((hmem m).mpr hm)
  case paths => exact h.paths

section Write

variable (hnames : ∀ m ∈ ms, IsName m.fileName) (hnodup : (ms.map MockModule.fileName).Nodup)
  (hlinks : t.Linkless directory)

include hnames hnodup hlinks

/-- The order in which modules are written does not matter to the tree. -/
theorem alike_writeModules {others : List MockModule} (hperm : others.Perm ms) :
    (writeModules directory t others).2.Alike (writeModules directory t ms).2 := by
  have hnames' : ∀ m ∈ others, IsName m.fileName := fun m hm => hnames m (hperm.subset hm)
  have hnodup' : (others.map MockModule.fileName).Nodup := (hperm.map _).nodup_iff.mpr hnodup
  rw [writeModules_eq hnames hnodup hlinks, writeModules_eq hnames' hnodup' hlinks]
  constructor
  case workDir =>
    exact (keeps_foldl_put hnames' hlinks (Keeps.refl t)).workDir.symm.trans
      (keeps_foldl_put hnames hlinks (Keeps.refl t)).workDir
  case get? =>
    intro k
    by_cases hplaced : ∃ m ∈ ms, place directory t m = .ok k
    · obtain ⟨m, hm, hplace⟩ := hplaced
      rw [get?_foldl_put_of_mem hnames hnodup hlinks hm hplace,
        get?_foldl_put_of_mem hnames' hnodup' hlinks (hperm.mem_iff.mpr hm) hplace]
    · have hfree : ∀ m ∈ ms, place directory t m ≠ .ok k := fun m hm hplace =>
        hplaced ⟨m, hm, hplace⟩
      rw [get?_foldl_put_of_forall_ne hnames hlinks hfree,
        get?_foldl_put_of_forall_ne hnames' hlinks fun m hm => hfree m (hperm.subset hm)]

theorem outcomes_writeModules : (writeModules directory t ms).1 = ms.map (outcomeOf directory t) := by
  rw [writeModules_eq hnames hnodup hlinks]
  exact List.map_congr_left fun m _ => outcome_writeModule directory t m

/-- Each module is written by itself. -/
theorem isolated_writeModules (hdirectory : t.directoryOf directory = .ok l) :
    Isolated directory l ms t (writeModules directory t ms).2 := by
  have hplace : ∀ m ∈ ms, IsWritable directory t m → place directory t m = .ok (l ++ [m.fileName]) := by
    intro m hm hwritable
    obtain ⟨k, hk⟩ := isWritable_iff.mp hwritable
    obtain ⟨l', hl', rfl, -⟩ := of_place_eq_ok (hnames m hm) hlinks hk
    rw [hdirectory] at hl'
    cases hl'
    exact hk
  constructor
  case written =>
    intro m hm hwritable
    obtain ⟨hresolve, hfile⟩ := delivered_of_place hnames hnodup hlinks hm (hplace m hm hwritable)
    exact ⟨hfile, readText_of_get? hresolve hfile⟩
  case others =>
    intro k hk
    by_contra hne
    obtain ⟨m, hm, hplaced⟩ := exists_place_of_ne hnames hnodup hlinks hne
    have hwritable := isWritable_iff.mpr ⟨k, hplaced⟩
    rw [hplace m hm hwritable] at hplaced
    cases hplaced
    exact hk m hm hwritable rfl
  case paths =>
    rw [writeModules_eq hnames hnodup hlinks]
    exact fun p k => (keeps_foldl_put hnames hlinks (Keeps.refl t)).resolve

/-- In the end there is an outcome for each module. -/
theorem outcomes_of_perm (horder : order.Perm (List.range ms.length)) :
    ((Writing.start t ms).inOrder directory ms order).outcomes =
      ms.map (some ∘ outcomeOf directory t) := by
  refine List.ext_getElem? fun i => ?_
  have hpositions : ∀ i, i ∈ order ↔ i < ms.length := fun i =>
    horder.mem_iff.trans List.mem_range
  rw [outcomes_inOrder (w := .start t ms) hnames hnodup hlinks (List.length_map _)
    (horder.nodup_iff.mpr List.nodup_range) (fun i hi => (hpositions i).mp hi) i, List.getElem?_map]
  by_cases hi : i ∈ order
  · rw [if_pos hi]
    exact Option.map_congr fun m _ => congrArg some (outcome_writeModule directory t m)
  · have hend : ms.length ≤ i := Nat.le_of_not_lt fun hlt => hi ((hpositions i).mpr hlt)
    rw [if_neg hi, Writing.start, List.getElem?_map, List.getElem?_eq_none hend]
    rfl

/-- A module that cannot be written changes nothing when its turn comes. -/
theorem tree_inOrder_concat (horder : order.Perm (List.range ms.length)) {before after : List Nat}
    {i : Nat} (hsplit : order = before ++ i :: after) (hm : ms[i]? = some m)
    (hwritable : ¬IsWritable directory t m) :
    ((Writing.start t ms).inOrder directory ms (before ++ [i])).tree =
      ((Writing.start t ms).inOrder directory ms before).tree := by
  have hall := perm_scheduled horder
  have hturns : scheduled ms (before ++ [i]) = scheduled ms before ++ [m] := by
    rw [scheduled, List.filterMap_append, List.filterMap_cons, hm]
    rfl
  have hsublist : (scheduled ms before ++ [m]).Sublist (scheduled ms order) := by
    rw [← hturns, hsplit, List.append_cons before i after]
    exact (List.sublist_append_left _ _).filterMap _
  have hnames' : ∀ other ∈ scheduled ms before ++ [m], IsName other.fileName := fun other hother =>
    hnames other (hall.subset (hsublist.subset hother))
  have hnodup' : ((scheduled ms before ++ [m]).map MockModule.fileName).Nodup :=
    ((hall.map _).nodup_iff.mpr hnodup).sublist (hsublist.map _)
  have hstays : put directory t ((scheduled ms before).foldl (put directory t) t) m =
      (scheduled ms before).foldl (put directory t) t := by
    unfold put
    cases hplace : place directory t m with
    | error fault => rfl
    | ok k => exact absurd (isWritable_iff.mpr ⟨k, hplace⟩) hwritable
  rw [tree_inOrder, tree_inOrder, hturns, Writing.start, writeModules_eq hnames' hnodup' hlinks,
    writeModules_eq (fun other hother => hnames' other (List.mem_append_left _ hother))
      (hnodup'.sublist ((List.sublist_append_left _ _).map _)) hlinks]
  simp only [List.foldl_append, List.foldl_cons, List.foldl_nil, hstays]

end Write

/-- **Independent writes.** Whatever a tree holds, if a path leads to a directory of it and no link
stands right in this directory: modules with file names of their own can be written into it in any
order. What becomes of each, kept in the order of the modules, is what becomes of it when it is
written into the tree as it was, and the tree holds the same in the end. The modules that could be
written into the tree as it was are there with their content, and what is not the place of one of
them is as it was; one that could not be written changes nothing when its turn comes. -/
theorem writes_in_any_order (hresolve : t.resolve directory = .ok l)
    (hdirectory : t.get? l = some .directory)
    (hlinks : ∀ name target, t.get? (l ++ [name]) ≠ some (.link target))
    (hnames : ∀ m ∈ ms, IsName m.fileName) (hnodup : (ms.map MockModule.fileName).Nodup)
    (horder : order.Perm (List.range ms.length)) :
    let written := (Writing.start t ms).inOrder directory ms order
    written.outcomes = (writeModules directory t ms).1.map some ∧
      (writeModules directory t ms).1 = ms.map (outcomeOf directory t) ∧
      written.tree.Alike (writeModules directory t ms).2 ∧
      Isolated directory l ms t written.tree ∧
      ∀ before i after m, order = before ++ i :: after → ms[i]? = some m →
        ¬IsWritable directory t m →
        ((Writing.start t ms).inOrder directory ms (before ++ [i])).tree =
          ((Writing.start t ms).inOrder directory ms before).tree := by
  intro written
  have hheld := directoryOf_of_resolve hresolve hdirectory
  have hlinkless : t.Linkless directory := by
    intro k hk
    rw [hheld] at hk
    cases hk
    exact hlinks
  have hall := perm_scheduled horder
  have hnames' : ∀ m ∈ scheduled ms order, IsName m.fileName := fun m hm =>
    hnames m (hall.subset hm)
  have hnodup' : ((scheduled ms order).map MockModule.fileName).Nodup :=
    (hall.map _).nodup_iff.mpr hnodup
  have htree : written.tree = (writeModules directory t (scheduled ms order)).2 :=
    tree_inOrder directory ms (.start t ms) order
  have houtcomes := outcomes_writeModules hnames hnodup hlinkless
  refine ⟨?outcomes, houtcomes, ?alike, ?isolated, ?failed⟩
  case outcomes =>
    rw [houtcomes, List.map_map]
    exact outcomes_of_perm hnames hnodup hlinkless horder
  case alike =>
    rw [htree]
    exact alike_writeModules hnames hnodup hlinkless hall
  case isolated =>
    rw [htree]
    exact (isolated_writeModules hnames' hnodup' hlinkless hheld).congr fun m => hall.mem_iff.symm
  case failed =>
    intro before i after m hsplit hm
    exact tree_inOrder_concat hnames hnodup hlinkless horder hsplit hm

end Schedule

/-- A directory behind a link, with a file in the place of one module and a directory in the place of
another. -/
def occupied : FileTree where
  entries := [(["d"], .directory), (["d", "A.stubs.ts"], .file "old".toUTF8),
    (["d", "B.stubs.ts"], .directory), (["out"], .link "d")]

/-- Three modules. -/
def three : List MockModule :=
  ["A", "B", "C"].map fun name => ⟨name, MockModule.fileNameOf name "ts", "mock of " ++ name⟩

/-- The second module cannot be written, whenever its turn comes. -/
theorem writes_in_any_order_occupied :
    let written := (Writing.start occupied three).inOrder ⟨"out"⟩ three [2, 1, 0]
    occupied.resolve ⟨"out"⟩ = .ok ["d"] ∧ occupied.get? ["d"] = some .directory ∧
      (∀ name target, occupied.get? (["d"] ++ [name]) ≠ some (.link target)) ∧
      (∀ m ∈ three, IsName m.fileName) ∧ (three.map MockModule.fileName).Nodup ∧
      [2, 1, 0].Perm (List.range three.length) ∧
      written.outcomes = [some ⟨"A", ⟨"out/A.stubs.ts"⟩, none⟩,
        some ⟨"B", ⟨"out/B.stubs.ts"⟩, some (.write ⟨"out/B.stubs.ts"⟩ .isADirectory)⟩,
        some ⟨"C", ⟨"out/C.stubs.ts"⟩, none⟩] ∧
      written.tree.Alike (writeModules ⟨"out"⟩ occupied three).2 ∧
      written.tree.readText ⟨"out/C.stubs.ts"⟩ = .ok "mock of C" ∧
      written.tree.get? ["d", "B.stubs.ts"] = some .directory := by
  intro written
  have hresolve : occupied.resolve ⟨"out"⟩ = .ok ["d"] := by decide +kernel
  have hdirectory : occupied.get? ["d"] = some .directory := rfl
  have hlinks : ∀ name target, occupied.get? (["d"] ++ [name]) ≠ some (.link target) := by
    intro name target h
    have hentry := mem_entries_of_get? (by simp) h
    simp [occupied] at hentry
  have hnames : ∀ m ∈ three, IsName m.fileName := by decide
  have hnodup : (three.map MockModule.fileName).Nodup := by decide
  have horder : [2, 1, 0].Perm (List.range three.length) := by decide
  have hoccupied : occupied.get? ["d", "B.stubs.ts"] = some .directory := by decide +kernel
  obtain ⟨houtcomes, -, halike, hisolated, -⟩ :=
    writes_in_any_order hresolve hdirectory hlinks hnames hnodup horder
  have hsettled : (writeModules ⟨"out"⟩ occupied three).1 = [⟨"A", ⟨"out/A.stubs.ts"⟩, none⟩,
      ⟨"B", ⟨"out/B.stubs.ts"⟩, some (.write ⟨"out/B.stubs.ts"⟩ .isADirectory)⟩,
      ⟨"C", ⟨"out/C.stubs.ts"⟩, none⟩] := by
    decide +kernel
  refine ⟨hresolve, hdirectory, hlinks, hnames, hnodup, horder, ?_, halike, ?_, ?_⟩
  · rw [houtcomes, hsettled]
    rfl
  · have hplace : place ⟨"out"⟩ occupied ⟨"C", "C.stubs.ts", "mock of C"⟩ =
        .ok ["d", "C.stubs.ts"] := by
      decide +kernel
    exact (hisolated.written _ (by decide) (isWritable_iff.mpr ⟨_, hplace⟩)).2
  · have hplace : place ⟨"out"⟩ occupied ⟨"B", "B.stubs.ts", "mock of B"⟩ =
        .error .isADirectory := by
      decide +kernel
    have hsecond : ∀ m ∈ three, ["d", "B.stubs.ts"] = ["d"] ++ [m.fileName] →
        m = ⟨"B", "B.stubs.ts", "mock of B"⟩ := by
      decide
    refine (hisolated.others _ fun m hm hwritable heq => ?_).trans hoccupied
    obtain rfl := hsecond m hm heq
    obtain ⟨l, hl⟩ := isWritable_iff.mp hwritable
    rw [hplace] at hl
    cases hl

end Destination

end Understudy
