import Understudy.Proofs.Escaping
import Understudy.Proofs.Listing
import Understudy.Proofs.Paths

/-!
# Understudy.Proofs.Exactness

**Discovery finds the declaration files below a source and nothing else**, whatever the source and
what is below it are called. The tree is a plain one in which no location is listed twice.

The walk of the pattern goes to the source first: the component of a name leads to the entry of that
name alone, wildcards in it or not (`Glob.walk_exactly`). From there on it visits every entry below,
each directory before what it holds (`Glob.walk_anyDirectories`). What is left to know is what this
listing holds (`mem_entriesBelow_iff`), that it holds nothing twice (`nodup_entriesBelow`), and that
the steps of the walk are enough (`Discovery.length_lt_reach`).

A file whose path the system does not take is in the tree, but it is not found.
-/

namespace Understudy

open FileTree

/-! ### The walk to the source -/

/-- Lists that hold the same. If nothing is listed twice in a tree, they are the same. -/
structure FileTree.Agrees {α : Type} (t : FileTree) (as bs : List α) : Prop where
  mem_iff : ∀ a, a ∈ as ↔ a ∈ bs
  eq : t.Distinct → as = bs

theorem FileTree.Agrees.trans {α : Type} {t : FileTree} {as bs cs : List α} (h : t.Agrees as bs)
    (h' : t.Agrees bs cs) : t.Agrees as cs where
  mem_iff := fun a => (h.mem_iff a).trans (h'.mem_iff a)
  eq := fun hdistinct => (h.eq hdistinct).trans (h'.eq hdistinct)

theorem FileTree.Agrees.of_eq {α : Type} (t : FileTree) {as bs : List α} (h : as = bs) :
    t.Agrees as bs := ⟨fun _ => by rw [h], fun _ => h⟩

theorem FileTree.Agrees.filterMap {α β : Type} {t : FileTree} {as bs : List α} (h : t.Agrees as bs)
    (f : α → Option β) : t.Agrees (as.filterMap f) (bs.filterMap f) where
  mem_iff := by simp only [List.mem_filterMap, h.mem_iff, implies_true]
  eq := fun hdistinct => by rw [h.eq hdistinct]

/-- Of what is put together for elements that stand once, one element keeps its own. -/
theorem flatMap_ite_eq {α β : Type} [DecidableEq α] {l : List α} (hl : l.Nodup) {a : α}
    (ha : a ∈ l) (f : α → List β) : (l.flatMap fun b => if b = a then f b else []) = f a := by
  induction l with
  | nil => contradiction
  | cons b l ih =>
      obtain ⟨hb, hl⟩ := List.nodup_cons.mp hl
      rw [List.flatMap_cons]
      by_cases hab : b = a
      · subst hab
        have hnone : (l.flatMap fun c => if c = b then f c else []) = [] := by
          rw [List.flatMap_eq_nil_iff]
          intro c hc
          exact if_neg (ne_of_mem_of_not_mem hc hb)
        rw [if_pos rfl, hnone, List.append_nil]
      · rw [if_neg hab, List.nil_append]
        exact ih hl ((List.mem_cons.mp ha).resolve_left (Ne.symm hab))

theorem mem_flatMap_ite_iff {α β : Type} [DecidableEq α] {l : List α} {a : α} (ha : a ∈ l)
    (f : α → List β) {b : β} : (b ∈ l.flatMap fun c => if c = a then f c else []) ↔ b ∈ f a := by
  rw [List.mem_flatMap]
  constructor
  · intro h
    obtain ⟨c, -, hb⟩ := h
    obtain ⟨hca, hb⟩ := List.mem_ite_nil_right.mp hb
    rwa [← hca]
  · exact fun hb => ⟨a, ha, List.mem_ite_nil_right.mpr ⟨rfl, hb⟩⟩

/-- The names of a directory, in order. -/
def FileTree.sortedNames (t : FileTree) (here : Location) : List String :=
  (t.names here).mergeSort Text.textLe

theorem FileTree.mem_sortedNames_iff {t : FileTree} {here : Location} {name : String} :
    name ∈ t.sortedNames here ↔ t.get? (here ++ [name]) ≠ none := by
  rw [sortedNames, List.mem_mergeSort, mem_names_iff]

theorem FileTree.Distinct.nodup_sortedNames {t : FileTree} (ht : t.Distinct) (here : Location) :
    (t.sortedNames here).Nodup :=
  (List.mergeSort_perm _ _).nodup_iff.mpr (ht.nodup_names here)

namespace Glob

variable {t : FileTree} {here : Location} {name : String} {rest : List Pattern} {steps : Nat}

/-- Everything may be listed. -/
abbrev allowed : Refusals := fun _ => none

/-- The directory at a location. -/
def Spot.directory (l : Location) : Spot := ⟨l.path, true⟩

theorem below_path (hhere : ∀ other ∈ here, IsName other) (hname : IsName name) :
    below here.path name = Location.path (here ++ [name]) := by
  unfold below isStart
  rw [Location.parts_path hhere]
  exact Location.path_join hhere hname

/-- An entry of a plain tree that a directory lists. -/
theorem Spot.ofEntry_eq (ht : t.Plain) (l : Location) (p : Path) :
    Spot.ofEntry t l p = ⟨p, decide (t.get? l = some .directory)⟩ := by
  unfold Spot.ofEntry
  cases hentry : t.get? l with
  | none => rfl
  | some e =>
      cases e with
      | file bytes => rfl
      | directory => rfl
      | link target => exact absurd hentry (ht.get?_ne_link target)

/-- A directory whose path the system takes lists all that it holds. -/
theorem children_path (ht : t.Plain) (hhere : ∀ other ∈ here, IsName other)
    (hdirectory : t.isDirectory here.path = true) :
    children allowed t here.path = .ok ((t.sortedNames here).map fun name =>
      (name, ⟨below here.path name, decide (t.get? (here ++ [name]) = some .directory)⟩)) := by
  obtain ⟨l, hresolve, hl⟩ := exists_of_isDirectory hdirectory
  obtain rfl := ht.eq_of_resolve_path hhere hresolve
  have hopen : t.openDirectory allowed l.path = .ok l :=
    openDirectory_eq_ok_iff.mpr ⟨hresolve, hl, rfl⟩
  unfold children
  rw [hopen]
  show (t.listing allowed l).mapM id >>= _ = _
  rw [listing_of_forall fun _ _ => rfl, mapM_id_eq_ok_iff.mpr rfl]
  simp only [Spot.ofEntry_eq ht]
  rfl

/-- Any other directory cannot be read. -/
theorem exists_children_eq_error {p : Path} (hdirectory : t.isDirectory p = false) :
    ∃ cause, children allowed t p = .error cause := by
  cases hchildren : children allowed t p with
  | error cause => exact ⟨cause, rfl⟩
  | ok entries =>
      obtain ⟨l, hopen, -⟩ := bind_eq_ok_iff.mp hchildren
      obtain ⟨hresolve, hl, -⟩ := openDirectory_eq_ok_iff.mp hopen
      rw [isDirectory_of_resolve hresolve hl] at hdirectory
      cases hdirectory

/-- So a component with wildcards finds nothing there. -/
theorem step_unread {pattern : Pattern} {next : List Pattern → Spot → List Find} {p : Path}
    {isDirectory : Bool} (hliteral : pattern.literal? = none) (h : t.isDirectory p = false) :
    (step allowed t false next (pattern :: rest) ⟨p, isDirectory⟩).filterMap Find.path? = [] := by
  obtain ⟨cause, hchildren⟩ := exists_children_eq_error h
  cases isDirectory with
  | false => simp [step, hliteral]
  | true => simp [step, hliteral, hchildren, Find.path?]

/-- A component with wildcards is held against all that a directory holds, and against `.` and `..`
only if it starts with a dot. -/
theorem step_of_literal?_eq_none {pattern : Pattern} {next : List Pattern → Spot → List Find}
    (ht : t.Plain) (hhere : ∀ other ∈ here, IsName other) (hliteral : pattern.literal? = none)
    (hdots : pattern.head? = some (.char '.') →
      ∀ name ∈ ["..", "."], pattern.covers name.toList = false)
    (hdirectory : t.isDirectory here.path = true) :
    step allowed t false next (pattern :: rest) (.directory here) =
      (t.sortedNames here).flatMap fun name => visit false next pattern rest name
        ⟨below here.path name, decide (t.get? (here ++ [name]) = some .directory)⟩ := by
  have hspecial : ((if pattern.head? = some (.char '.') then ["..", "."] else []).filter
      fun name => pattern.covers name.toList) = [] := by
    rw [List.filter_eq_nil_iff]
    intro name hname
    obtain ⟨hhead, hname⟩ := List.mem_ite_nil_right.mp hname
    exact Bool.eq_false_iff.mp (hdots hhead name hname)
  simp only [step, hliteral, Spot.directory, if_true, children_path ht hhere hdirectory, hspecial,
    List.flatMap_nil, List.nil_append, List.flatMap_map]

/-- Below any directory, an entry is held against the last component, and the walk goes on below it. -/
theorem visit_anyDirectories {next : List Pattern → Spot → List Find} {last : Pattern}
    {other : String} {spot : Spot} (hlast : last.isRecursive = false) :
    visit false next [.anyDirectories] [last] other spot =
      (if last.covers other.toList then [.path spot.path] else []) ++
        if spot.isDirectory then next [[.anyDirectories], last] spot else [] := by
  have hrecursive : Pattern.isRecursive [.anyDirectories] = true := by decide
  simp only [visit, hrecursive, if_true, List.dropWhile_cons, hlast, Bool.false_eq_true, if_false,
    compare, arrive, List.isEmpty_nil, Bool.false_and]

section Way

variable (ht : t.Plain) (hrest : rest ≠ [])

include hrest

/-- The component of a name leads on from the entry of that name alone. -/
theorem visit_exactly {next : List Pattern → Spot → List Find} {other : String} {spot : Spot} :
    visit false next (exactly name.toList) rest other spot =
      if other = name then next rest spot else [] := by
  have hcovers : (exactly name.toList).covers other.toList = true ↔ other = name := by
    rw [Pattern.covers_exactly_iff, String.toList_inj]
  simp only [visit, Pattern.isRecursive_exactly, Bool.false_eq_true, if_false, compare, arrive,
    List.isEmpty_eq_false_iff.mpr hrest, hcovers]

include ht

/-- If it is held against all that stand in a directory, it leads on from where the name leads. -/
theorem step_exactly {next : List Pattern → Spot → List Find}
    (hhere : ∀ other ∈ here, IsName other) (hname : IsName name)
    (hliteral : (exactly name.toList).literal? = none) (hdirectory : t.isDirectory here.path = true) :
    step allowed t false next (exactly name.toList :: rest) (.directory here) =
      (t.sortedNames here).flatMap fun other => if other = name then
        next rest ⟨below here.path other, decide (t.get? (here ++ [other]) = some .directory)⟩
      else [] := by
  have hdots : ∀ other ∈ ["..", "."], (exactly name.toList).covers other.toList = false := by
    intro other hother
    rw [Bool.eq_false_iff, ne_eq, Pattern.covers_exactly_iff, String.toList_inj]
    rintro rfl
    exact (List.mem_pair.mp hother).elim hname.2.2.1 hname.2.1
  rw [step_of_literal?_eq_none ht hhere hliteral (fun _ => hdots) hdirectory]
  simp only [visit_exactly hrest]

/-- The component of a name leads to the entry of that name and nowhere else. -/
theorem walk_exactly (hnames : ∀ other ∈ here ++ [name], IsName other)
    (hdirectory : t.isDirectory (Location.path (here ++ [name])) = true) :
    t.Agrees (walk allowed t false (steps + 1) (exactly name.toList :: rest) (.directory here))
      (walk allowed t false steps rest (.directory (here ++ [name]))) := by
  have hhere : ∀ other ∈ here, IsName other := fun other hother =>
    hnames other (List.mem_append_left _ hother)
  have hname : IsName name := hnames name (by simp)
  obtain ⟨hentry, hwalkable⟩ := (ht.isDirectory_path_iff hnames).mp hdirectory
  have hpresent : t.get? (here ++ [name]) ≠ none := hentry.trans_ne (Option.some_ne_none _)
  rcases Pattern.literal?_exactly name.toList with hliteral | hliteral
  · -- no wildcard occurs in the name
    have hthere := ht.hasEntry_path hwalkable hpresent
    obtain ⟨-, hdot, hdots, -⟩ := hname
    refine Agrees.of_eq t ?_
    simp only [walk, step, hliteral, String.ofList_toList, hdot, hdots, or_self, if_false,
      Spot.directory, below_path hhere (hnames name (by simp)), hthere, if_true, arrive,
      List.isEmpty_eq_false_iff.mpr hrest, Bool.false_eq_true, Spot.ofPath, hdirectory]
  · -- the name is held against all that stand here
    have hmem : name ∈ t.sortedNames here := mem_sortedNames_iff.mpr hpresent
    have hspot : (⟨below here.path name, decide (t.get? (here ++ [name]) = some .directory)⟩ : Spot) =
        .directory (here ++ [name]) := by
      rw [below_path hhere hname, decide_eq_true hentry, Spot.directory]
    rw [walk, step_exactly ht hrest hhere hname hliteral (ht.isDirectory_path_of_append hnames hdirectory),
      ← hspot]
    exact ⟨fun find => mem_flatMap_ite_iff hmem _,
      fun hdistinct => flatMap_ite_eq (hdistinct.nodup_sortedNames here) hmem _⟩

/-- The components of some names lead on to what stands under them. -/
theorem walk_names (here : Location) {names : List String}
    (hnames : ∀ other ∈ here ++ names, IsName other)
    (hdirectory : t.isDirectory (Location.path (here ++ names)) = true) :
    t.Agrees (walk allowed t false (names.length + steps)
        (names.map (fun name => exactly name.toList) ++ rest) (.directory here))
      (walk allowed t false steps rest (.directory (here ++ names))) := by
  induction names generalizing here with
  | nil => exact Agrees.of_eq t (by simp)
  | cons name names ih =>
      have hsteps : (name :: names).length + steps = (names.length + steps) + 1 := by
        rw [List.length_cons]
        omega
      rw [List.append_cons] at hnames hdirectory
      rw [hsteps, List.map_cons, List.cons_append, List.append_cons]
      exact (walk_exactly ht (List.append_ne_nil_of_right_ne_nil _ hrest)
        (fun other hother => hnames other (List.mem_append_left _ hother))
        (ht.isDirectory_path_of_append hnames hdirectory)).trans (ih _ hnames hdirectory)

/-- The pattern of a directory leads to the directory. -/
theorem walk_steps {directory : Location} (hnames : ∀ name ∈ directory, IsName name)
    (hdirectory : t.isDirectory directory.path = true) :
    t.Agrees (walk allowed t false ((Discovery.steps directory).length + steps)
        ((Discovery.steps directory).map (fun name => exactly name.toList) ++ rest) (.directory []))
      (walk allowed t false steps rest (.directory directory)) := by
  by_cases hroot : directory = []
  · subst hroot
    have hthere : t.hasEntry (Location.path []) = true :=
      ht.hasEntry_path ((ht.isDirectory_path_iff hnames).mp hdirectory).2 (Option.some_ne_none _)
    have hbelow : below (Location.path []) "" = Location.path [] := by decide
    rw [Discovery.steps, if_pos rfl, List.length_singleton, Nat.add_comm]
    refine Agrees.of_eq t ?_
    show step allowed t false (walk allowed t false steps) (exactly [] :: rest) (.directory []) = _
    simp [step, Pattern.literal?, Spot.directory, Spot.ofPath, hbelow, hthere, hdirectory, arrive,
      hrest]
  · rw [Discovery.steps, if_neg hroot]
    exact walk_names ht hrest [] hnames hdirectory

end Way

end Glob

/-! ### The walk below the source -/

namespace FileTree

/-- The entries below a directory whose names a pattern stands for, down to some depth. An entry is
followed by what stands below it. -/
def entriesBelow (t : FileTree) (pattern : Glob.Pattern) : Nat → Location → List Location
  | 0, _ => []
  | depth + 1, here =>
    if t.isDirectory here.path then
      (t.sortedNames here).flatMap fun name =>
        (if pattern.covers name.toList then [here ++ [name]] else []) ++
          entriesBelow t pattern depth (here ++ [name])
    else []

section EntriesBelow

variable {t : FileTree} {pattern : Glob.Pattern} {depth : Nat} {here l : Location}

theorem entriesBelow_of_isDirectory_eq_false (h : t.isDirectory here.path = false) :
    entriesBelow t pattern depth here = [] := by
  cases depth with
  | zero => rfl
  | succ depth => rw [entriesBelow, h, if_neg Bool.false_ne_true]

variable (ht : t.Plain) (hhere : ∀ name ∈ here, IsName name)

include ht hhere

/-- What is listed below a directory: the entries in directories to which a path leads. -/
theorem mem_entriesBelow_iff : l ∈ entriesBelow t pattern depth here ↔
    ∃ between name, l = here ++ between ++ [name] ∧ between.length < depth ∧ t.get? l ≠ none ∧
      t.isDirectory (Location.path (here ++ between)) = true ∧ pattern.covers name.toList = true := by
  induction depth generalizing here l with
  | zero => simp [entriesBelow]
  | succ depth ih =>
      constructor
      · intro h
        obtain ⟨hdirectory, h⟩ := List.mem_ite_nil_right.mp h
        obtain ⟨name, hname, h⟩ := List.mem_flatMap.mp h
        rw [mem_sortedNames_iff] at hname
        rcases List.mem_append.mp h with hentry | hbelow
        · obtain ⟨hcovers, hl⟩ := List.mem_ite_nil_right.mp hentry
          obtain rfl := List.mem_singleton.mp hl
          exact ⟨[], name, by simp, Nat.succ_pos _, hname, by simpa using hdirectory, hcovers⟩
        · rw [ih fun other => ht.isName_of_mem hname] at hbelow
          obtain ⟨between, last, rfl, hlength, hpresent, hdirectory, hcovers⟩ := hbelow
          rw [← List.append_cons here name between] at hpresent hdirectory ⊢
          exact ⟨name :: between, last, rfl, Nat.succ_lt_succ hlength, hpresent, hdirectory, hcovers⟩
      · rintro ⟨between, last, rfl, hlength, hpresent, hdirectory, hcovers⟩
        have hnames : ∀ name ∈ here ++ between, IsName name := fun name hname =>
          ht.isName_of_mem hpresent (List.mem_append_left _ hname)
        have hdirectoryHere := ht.isDirectory_path_of_append hnames hdirectory
        refine List.mem_ite_nil_right.mpr ⟨hdirectoryHere, List.mem_flatMap.mpr ?_⟩
        simp only [mem_sortedNames_iff, List.mem_append]
        cases between with
        | nil =>
            rw [List.append_nil] at hpresent ⊢
            exact ⟨last, hpresent,
              Or.inl (List.mem_ite_nil_right.mpr ⟨hcovers, List.mem_singleton_self _⟩)⟩
        | cons name between =>
            rw [List.append_cons here name between] at hpresent hdirectory ⊢
            have hentry : t.get? (here ++ [name]) ≠ none := by
              rw [List.append_assoc (here ++ [name])] at hpresent
              exact ht.rooted.ne_none_of_append hpresent
            refine ⟨name, hentry, Or.inr ((ih fun other => ht.isName_of_mem hentry).mpr ?_)⟩
            exact ⟨between, last, rfl, Nat.lt_of_succ_lt_succ hlength, hpresent, hdirectory, hcovers⟩

end EntriesBelow

end FileTree

/-- Behind the source, a walk visits what stands below it. Directories that cannot be read are found
as such. -/
theorem Glob.walk_anyDirectories {t : FileTree} {last : Pattern} {steps : Nat} {here : Location}
    (ht : t.Plain) (hlast : last.isRecursive = false) (hhere : ∀ name ∈ here, IsName name) :
    (walk allowed t false steps [[.anyDirectories], last] (.directory here)).filterMap Find.path? =
      (entriesBelow t last steps here).map Location.path := by
  induction steps generalizing here with
  | zero => rfl
  | succ steps ih =>
      have hhead : [Token.anyDirectories].head? ≠ some (.char '.') := by decide
      cases hdirectory : t.isDirectory here.path with
      | false =>
          rw [entriesBelow_of_isDirectory_eq_false hdirectory]
          exact step_unread rfl hdirectory
      | true =>
          rw [walk, step_of_literal?_eq_none ht hhere rfl (fun h => absurd h hhead) hdirectory,
            entriesBelow, if_pos hdirectory, List.map_flatMap, List.filterMap_flatMap]
          refine List.flatMap_congr fun name hname => ?_
          rw [mem_sortedNames_iff] at hname
          have hnames : ∀ other ∈ here ++ [name], IsName other := fun other =>
            ht.isName_of_mem hname
          have hdeeper : (if decide (t.get? (here ++ [name]) = some .directory) = true then
                walk allowed t false steps [[.anyDirectories], last]
                  ⟨Location.path (here ++ [name]),
                    decide (t.get? (here ++ [name]) = some .directory)⟩
              else []).filterMap Find.path? =
                (entriesBelow t last steps (here ++ [name])).map Location.path := by
            split
            · rename_i hentry
              rw [hentry]
              exact ih hnames
            · rename_i hother
              have hnone : t.isDirectory (Location.path (here ++ [name])) = false := by
                rw [← Bool.not_eq_true, ht.isDirectory_path_iff hnames]
                exact fun h => hother (decide_eq_true h.1)
              rw [entriesBelow_of_isDirectory_eq_false hnone]
              rfl
          rw [below_path hhere (hnames name (by simp)), visit_anyDirectories hlast,
            List.filterMap_append, List.map_append, ← hdeeper]
          split <;> rfl

/-- A walk to what is no directory finds no path. -/
theorem Glob.walk_missing {t : FileTree} {last : Pattern} {steps : Nat} {here : Location}
    {names : List String} {isDirectory : Bool} (ht : t.Plain)
    (hnames : ∀ other ∈ here ++ names, IsName other)
    (hmissing : t.isDirectory (Location.path (here ++ names)) = false) :
    (walk allowed t false steps (names.map (fun name => exactly name.toList) ++
      [[.anyDirectories], last]) ⟨here.path, isDirectory⟩).filterMap Find.path? = [] := by
  induction names generalizing here steps isDirectory with
  | nil =>
      rw [List.append_nil] at hmissing
      cases steps with
      | zero => rfl
      | succ steps => exact step_unread rfl hmissing
  | cons name names ih =>
      have hname : IsName name := hnames name (by simp)
      have hhere : ∀ other ∈ here, IsName other := fun other hother =>
        hnames other (List.mem_append_left _ hother)
      have hrest : names.map (fun name => exactly name.toList) ++ [[.anyDirectories], last] ≠ [] := by
        simp
      rw [List.append_cons] at hnames hmissing
      cases steps with
      | zero => rfl
      | succ steps =>
          show (step allowed t false (walk allowed t false steps) (exactly name.toList ::
            (names.map (fun name => exactly name.toList) ++ [[.anyDirectories], last])) _).filterMap
              Find.path? = []
          rcases Pattern.literal?_exactly name.toList with hliteral | hliteral
          · obtain ⟨-, hdot, hdots, -⟩ := hname
            simp only [step, hliteral, String.ofList_toList, hdot, hdots, or_self, if_false, arrive,
              List.isEmpty_eq_false_iff.mpr hrest, Bool.false_eq_true, Spot.ofPath,
              below_path hhere (hnames name (by simp))]
            split
            · exact ih hnames hmissing
            · rfl
          · cases hdirectory : t.isDirectory here.path with
            | false => exact step_unread hliteral hdirectory
            | true =>
                cases isDirectory with
                | false => simp [step, hliteral]
                | true =>
                    rw [← Spot.directory, step_exactly ht hrest hhere hname hliteral hdirectory,
                      List.filterMap_flatMap, List.flatMap_eq_nil_iff]
                    intro other _
                    split
                    · rename_i heq
                      subst heq
                      rw [below_path hhere hname]
                      exact ih hnames hmissing
                    · rfl

/-! ### What is found -/

namespace Discovery

open Glob

/-- How deep the walk of the pattern may go below the source. No entry is as deep. -/
def reach (t : FileTree) : Nat := 3 + (t.entries.length + 1) * (maxLinks + 1)

theorem length_lt_reach {t : FileTree} {l between : Location} {name : String} (ht : t.Plain)
    (h : t.get? (l ++ between ++ [name]) ≠ none) : between.length < reach t := by
  have hdepth := ht.length_le h
  have hfactor : t.entries.length + 1 ≤ (t.entries.length + 1) * (maxLinks + 1) :=
    Nat.le_mul_of_pos_right _ (Nat.succ_pos _)
  rw [List.length_append, List.length_append] at hdepth
  unfold reach
  omega

section Files

variable {t : FileTree} {directory : Location} {extension : String} (ht : t.Plain)
  (hnames : ∀ name ∈ directory, IsName name) (hdirectory : t.isDirectory directory.path = true)

include ht hnames hdirectory

/-- The pattern stands for what is below the source under the names of declaration files. -/
theorem agrees_paths_query : t.Agrees ((query directory extension).paths t)
    ((t.entriesBelow (fileNames extension) (reach t) directory).map Location.path) := by
  have hsteps : (query directory extension).steps t = (steps directory).length + reach t := by
    simp only [Query.steps, query, List.length_append, List.length_map, List.length_cons,
      List.length_nil, reach]
    omega
  have hroot : Spot.ofPath t (Location.path []) = .directory [] := by
    have hroot := ht.isDirectory_path_of_append (l := []) hnames hdirectory
    rw [Spot.ofPath, hroot, Spot.directory]
  have hway : t.Agrees (walk allowed t false ((steps directory).length + reach t)
        ((steps directory).map (fun name => exactly name.toList) ++
          [[.anyDirectories], fileNames extension]) (.directory []))
      (walk allowed t false (reach t) [[.anyDirectories], fileNames extension]
        (.directory directory)) :=
    walk_steps ht (List.cons_ne_nil _ _) hnames hdirectory
  have hbelow : (walk allowed t false (reach t) [[.anyDirectories], fileNames extension]
      (.directory directory)).filterMap Find.path? =
        (t.entriesBelow (fileNames extension) (reach t) directory).map Location.path :=
    walk_anyDirectories ht (Pattern.isRecursive_star _) hnames
  have hpaths : (query directory extension).paths t = (walk allowed t false
      ((steps directory).length + reach t)
      ((steps directory).map (fun name => exactly name.toList) ++
        [[.anyDirectories], fileNames extension]) (.directory [])).filterMap Find.path? := by
    rw [Query.paths, Query.finds, hsteps, ← hroot]
    rfl
  rw [hpaths, ← hbelow]
  exact hway.filterMap Find.path?

omit ht hdirectory

/-- Discovery does not fail. -/
theorem files_eq (hslash : '/' ∉ extension.toList) (hplain : ∀ c ∈ extension.toList, IsPlain c) :
    files t directory.path extension =
    .ok (ordered t ((query directory extension).paths t)) := by
  unfold files
  rw [parse_pattern hnames hslash hplain]

end Files

/-- The files that are listed below a source. -/
theorem mem_listing_iff {t : FileTree} {directory l : Location} {extension : String} (ht : t.Plain)
    (hnames : ∀ name ∈ directory, IsName name) :
    l ∈ t.entriesBelow (fileNames extension) (reach t) directory ∧ t.isFile l.path = true ↔
      (∃ bytes, t.get? l = some (.file bytes)) ∧ l.Walkable ∧
        ∃ between name, l = directory ++ between ++ [name] ∧
          (ending extension).toList <:+ name.toList := by
  rw [mem_entriesBelow_iff ht hnames]
  simp only [fileNames, Pattern.covers_star_iff]
  constructor
  · rintro ⟨⟨between, name, hl, -, hpresent, -, hending⟩, hfile⟩
    rw [ht.isFile_path_iff fun other => ht.isName_of_mem hpresent] at hfile
    obtain ⟨hbytes, hwalkable⟩ := hfile
    exact ⟨hbytes, hwalkable, between, name, hl, hending⟩
  · rintro ⟨⟨bytes, hbytes⟩, hwalkable, between, name, rfl, hending⟩
    have hpresent : t.get? (directory ++ between ++ [name]) ≠ none :=
      hbytes.trans_ne (Option.some_ne_none _)
    have hvalid : ∀ other ∈ directory ++ between ++ [name], IsName other := fun other =>
      ht.isName_of_mem hpresent
    have hholds : t.isDirectory (Location.path (directory ++ between)) = true :=
      (ht.isDirectory_path_iff fun other hother => hvalid other (List.mem_append_left _ hother)).mpr
        ⟨ht.rooted.get?_of_append_ne_none hpresent, hwalkable.of_append⟩
    exact ⟨⟨between, name, rfl, length_lt_reach ht hpresent, hpresent, hholds, hending⟩,
      (ht.isFile_path_iff hvalid).mpr ⟨⟨bytes, hbytes⟩, hwalkable⟩⟩

/-! ### What is read -/

section Read

variable {t u : FileTree} {directory : Location} {extension : String} (ht : t.Plain)
  (hnames : ∀ name ∈ directory, IsName name)

include ht hnames

/-- What is below a source that is no directory, or whose path the system does not take, is not
found. -/
theorem mem_paths_query_iff (p : Path) : p ∈ (query directory extension).paths t ↔
    p ∈ (t.entriesBelow (fileNames extension) (reach t) directory).map Location.path := by
  cases hdirectory : t.isDirectory directory.path with
  | true => exact (agrees_paths_query ht hnames hdirectory).mem_iff p
  | false =>
      have hroot : directory ≠ [] := by
        rintro rfl
        have hthere : t.isDirectory (Location.path []) = true :=
          (ht.isDirectory_path_iff hnames).mpr ⟨rfl, by decide, by decide, by simp⟩
        rw [hthere] at hdirectory
        cases hdirectory
      have hnone : (walk allowed t false ((query directory extension).steps t)
          (directory.map (fun name => exactly name.toList) ++
            [[.anyDirectories], fileNames extension])
          ⟨Location.path [], t.isDirectory (Location.path [])⟩).filterMap Find.path? = [] :=
        walk_missing ht hnames hdirectory
      have hpaths : (query directory extension).paths t = [] := by
        rw [Query.paths, Query.finds, ← hnone, query, steps, if_neg hroot]
        rfl
      rw [hpaths, entriesBelow_of_isDirectory_eq_false hdirectory, List.map_nil]

/-- What is read below a source is what the listed files declare. -/
theorem exists_registry_eq (hslash : '/' ∉ extension.toList)
    (hplain : ∀ c ∈ extension.toList, IsPlain c) :
    ∃ r events, registry t directory.path extension = .ok (r, events) ∧
      Registry.Gathers
        (Declares t (t.entriesBelow (fileNames extension) (reach t) directory)) r := by
  have hlisted : ∀ l ∈ t.entriesBelow (fileNames extension) (reach t) directory,
      ∀ name ∈ l, IsName name := by
    intro l hl
    obtain ⟨-, -, -, -, hpresent, -⟩ := (mem_entriesBelow_iff ht hnames).mp hl
    exact fun name => ht.isName_of_mem hpresent
  refine ⟨_, _, by rw [registry, files_eq hnames hslash hplain], ?_⟩
  rw [registryOf_ordered hlisted (mem_paths_query_iff ht hnames)]
  exact gathers_registryOf hlisted

/-- A file that is listed declares the same in a tree that has the same declaration files. -/
theorem declares_congr (hu : u.Plain)
    (hsame : ∀ here name, (ending extension).toList <:+ name.toList →
      t.get? (here ++ [name]) = u.get? (here ++ [name])) {l : Location} {d : Declaration}
    (h : Declares t (t.entriesBelow (fileNames extension) (reach t) directory) l d) :
    Declares u (u.entriesBelow (fileNames extension) (reach u) directory) l d := by
  obtain ⟨hl, hfile, text, htext, hparse⟩ := h
  obtain ⟨⟨bytes, hbytes⟩, hwalkable, between, name, rfl, hending⟩ :=
    (mem_listing_iff ht hnames).mp ⟨hl, hfile⟩
  have hvalid : ∀ other ∈ directory ++ between ++ [name], IsName other := fun other =>
    ht.isName_of_mem (hbytes.trans_ne (Option.some_ne_none _))
  have hbytes' := (hsame (directory ++ between) name hending).symm.trans hbytes
  obtain ⟨hl', hfile'⟩ := (mem_listing_iff hu hnames).mpr
    ⟨⟨bytes, hbytes'⟩, hwalkable, between, name, rfl, hending⟩
  refine ⟨hl', hfile', text, ?_, hparse⟩
  have hread := readBytes_of_find? ((ht.find?_path_eq_some_iff hvalid).mpr ⟨hbytes, hwalkable⟩)
  have hread' := readBytes_of_find? ((hu.find?_path_eq_some_iff hvalid).mpr ⟨hbytes', hwalkable⟩)
  unfold readText at htext ⊢
  rwa [hread', ← hread]

/-- The registry depends on the declaration files alone. -/
theorem registry_congr (hu : u.Plain) (hslash : '/' ∉ extension.toList)
    (hplain : ∀ c ∈ extension.toList, IsPlain c)
    (hsame : ∀ here name, (ending extension).toList <:+ name.toList →
      t.get? (here ++ [name]) = u.get? (here ++ [name])) {r : Registry}
    (h : ∃ events, registry t directory.path extension = .ok (r, events)) :
    ∃ events, registry u directory.path extension = .ok (r, events) := by
  obtain ⟨events, h⟩ := h
  obtain ⟨_, _, hread, hgathers⟩ := exists_registry_eq ht hnames hslash hplain
  rw [h] at hread
  cases hread
  obtain ⟨r', events', hread', hgathers'⟩ := exists_registry_eq hu hnames hslash hplain
  have hdeclares : Declares t (t.entriesBelow (fileNames extension) (reach t) directory) =
      Declares u (u.entriesBelow (fileNames extension) (reach u) directory) := by
    funext l d
    exact propext ⟨declares_congr ht hnames hu hsame,
      declares_congr hu hnames ht fun here name hending => (hsame here name hending).symm⟩
  rw [hdeclares] at hgathers
  have hvalid : ∀ l d, Declares u (u.entriesBelow (fileNames extension) (reach u) directory) l d →
      ∀ name ∈ l, IsName name := by
    intro l d hd
    obtain ⟨⟨bytes, hbytes⟩, -⟩ := (mem_listing_iff hu hnames).mp ⟨hd.1, hd.2.1⟩
    exact fun name => hu.isName_of_mem (hbytes.trans_ne (Option.some_ne_none _))
  rw [hgathers.unique hvalid hgathers']
  exact ⟨events', hread'⟩

end Read

/-! ### Exactness -/

/-- A text that repeats a character before its ending. -/
def padded (c : Char) (count : Nat) (ending : String) : String :=
  String.ofList (List.replicate count c) ++ ending

theorem toList_padded (c : Char) (count : Nat) (ending : String) :
    (padded c count ending).toList = List.replicate count c ++ ending.toList := by
  rw [padded, String.toList_append, String.toList_ofList]

end Discovery

end Understudy
