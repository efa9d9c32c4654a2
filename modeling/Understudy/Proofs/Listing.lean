import Understudy.Discovery
import Understudy.Proofs.PathOrder
import Understudy.Proofs.Replacement

/-!
# Understudy.Proofs.Listing

**The registry of some files does not depend on the order in which they are listed.** Files are
taken in the order of their paths, and paths of locations can always be told apart, so any two
listings of the same files are put in one order (`ordered_perm`).

What the registry holds is said by `Registry.Gathers` from which declaration is made at which
location: for a name the declaration of the last location that declares it, and the names in the
order of the first locations that do. It is shown of any sorted list of locations
(`gathers_ofList`), and there is only one registry of which it holds (`Gathers.unique`). A file that
cannot be read makes no declaration, and so it could as well be left out.
-/

namespace Understudy

open FileTree

namespace Registry

/-- What is held of the declarations that are made at some locations: for each name the one of the
last location that declares it, and the names in the order of the first locations that do. -/
structure Gathers (made : Location → Declaration → Prop) (r : Registry) : Prop where
  get? : ∀ name d, r.get? name = some d ↔
    ∃ l, made l d ∧ d.name = name ∧ ∀ m e, made m e → e.name = name → m = l ∨ m.Before l
  mem_names : ∀ name, name ∈ r.names ↔ ∃ l d, made l d ∧ d.name = name
  order : r.names.Pairwise fun a b =>
    ∃ l d, made l d ∧ d.name = a ∧ ∀ m e, made m e → e.name = b → l.Before m

/-! ### Declarations along a sorted list -/

section Sorted

variable {locations : List Location} {declared : Location → Option Declaration}
  (hnames : ∀ l ∈ locations, ∀ name ∈ l, IsName name)
  (hsorted : locations.Pairwise fun l m => l.path.le m.path = true)

include hnames hsorted

/-- What is held for a name is declared at a location, and no later one declares the name. -/
theorem exists_of_get?_ofList {name : String} {d : Declaration}
    (h : (ofList (locations.filterMap declared)).get? name = some d) :
    ∃ l ∈ locations, declared l = some d ∧ d.name = name ∧
      ∀ m ∈ locations, ∀ e, declared m = some e → e.name = name → m = l ∨ m.Before l := by
  have hname : d.name = name := by simpa using List.find?_some h
  obtain ⟨before, after, hsplit, hlast⟩ := last_of_mem_ofList (List.mem_of_find?_eq_some h)
  obtain ⟨first, rest, rfl, -, hrest⟩ := List.filterMap_eq_append_iff.mp hsplit
  obtain ⟨skipped, l, later, rfl, hskipped, hl, hlater⟩ := List.filterMap_eq_cons_iff.mp hrest
  have hmem : l ∈ first ++ (skipped ++ l :: later) := by simp
  refine ⟨l, hmem, hl, hname, fun m hm e he hename => ?_⟩
  -- `m` stands before `l`, is `l`, or stands behind it and declares something else
  have hposition : m ∈ first ++ skipped ∨ m = l ∨ m ∈ later := by
    simpa [or_assoc] using hm
  rcases hposition with hfront | rfl | hbehind
  · refine Location.eq_or_before (hnames m hm) (hnames l hmem) ?_
    rw [← List.append_assoc] at hsorted
    exact (List.pairwise_append.mp hsorted).2.2 m hfront l List.mem_cons_self
  · exact Or.inl rfl
  · have hafter : e ∈ after := hlater ▸ List.mem_filterMap.mpr ⟨m, hbehind, he⟩
    exact absurd (hename.trans hname.symm) (hlast e hafter)

/-- Of two names, the one whose first location comes before that of the other stands first. -/
theorem pairwise_names_ofList_filterMap :
    (ofList (locations.filterMap declared)).names.Pairwise fun a b =>
      ∃ l ∈ locations, (∃ d, declared l = some d ∧ d.name = a) ∧
        ∀ m ∈ locations, ∀ e, declared m = some e → e.name = b → l.Before m := by
  have hview : (locations.filterMap declared).map Declaration.name =
      locations.filterMap fun l => (declared l).map Declaration.name := List.map_filterMap
  have hpairwise := pairwise_eraseDups_filterMap locations fun l => (declared l).map Declaration.name
  rw [names_ofList, hview]
  refine hpairwise.imp_of_mem fun {a b} ha hb hab => ?_
  rw [List.mem_eraseDups, List.mem_filterMap] at ha
  obtain ⟨one, hone, hdeclares⟩ := ha
  have hlt := List.findIdx_lt_length_of_exists
    (p := fun l => decide ((declared l).map Declaration.name = some a))
    ⟨one, hone, by simpa using hdeclares⟩
  have hfound := List.findIdx_getElem (w := hlt)
  rw [decide_eq_true_eq, Option.map_eq_some_iff] at hfound
  refine ⟨_, List.getElem_mem hlt, hfound, fun m hm e he hename => ?_⟩
  obtain ⟨d, hd, hname⟩ := hfound
  obtain ⟨j, hj, rfl⟩ := List.getElem_of_mem hm
  -- no location before the first one of `b` declares it
  have hle : locations.findIdx (fun l => decide ((declared l).map Declaration.name = some b)) ≤ j := by
    refine Nat.le_of_not_lt fun hbefore => ?_
    have hnot := List.not_of_lt_findIdx hbefore
    simp [he, hename] at hnot
  have hbetween := List.pairwise_iff_getElem.mp hsorted _ j hlt hj (Nat.lt_of_lt_of_le hab hle)
  refine (Location.eq_or_before (hnames _ (List.getElem_mem hlt)) (hnames _ hm) hbetween).resolve_left
    fun heq => ?_
  rw [heq, he] at hd
  rw [← Option.some.inj hd, hename] at hname
  rw [hname] at hab
  exact Nat.lt_irrefl _ hab

/-- The declarations along a sorted list of locations are gathered by their registry. -/
theorem gathers_ofList :
    Gathers (fun l d => l ∈ locations ∧ declared l = some d)
      (ofList (locations.filterMap declared)) := by
  constructor
  case get? =>
    intro name d
    constructor
    · intro h
      obtain ⟨l, hl, hd, hname, hlast⟩ := exists_of_get?_ofList hnames hsorted h
      exact ⟨l, ⟨hl, hd⟩, hname, fun m e hm => hlast m hm.1 e hm.2⟩
    · intro h
      obtain ⟨l, ⟨hl, hd⟩, hname, hgreatest⟩ := h
      have hcontains : ((ofList (locations.filterMap declared)).get? name).isSome := by
        rw [get?_ofList, List.find?_isSome]
        exact ⟨d, List.mem_reverse.mpr (List.mem_filterMap.mpr ⟨l, hl, hd⟩), by simpa using hname⟩
      obtain ⟨e, he⟩ := Option.isSome_iff_exists.mp hcontains
      obtain ⟨m, hm, hme, hename, hlater⟩ := exists_of_get?_ofList hnames hsorted he
      -- each of the two locations comes last, so they are the same
      have hsame : m = l := by
        rcases hgreatest m e ⟨hm, hme⟩ hename with heq | hbefore
        · exact heq
        · rcases hlater l hl d hd hname with heq | hback
          · exact heq.symm
          · exact absurd hback (hbefore.asymm (hnames m hm) (hnames l hl))
      rw [hsame, hd] at hme
      rw [he, hme]
  case mem_names =>
    intro name
    rw [names_ofList, List.mem_eraseDups, List.mem_map]
    constructor
    · intro h
      obtain ⟨d, hd, hname⟩ := h
      obtain ⟨l, hl, hdeclared⟩ := List.mem_filterMap.mp hd
      exact ⟨l, d, ⟨hl, hdeclared⟩, hname⟩
    · intro h
      obtain ⟨l, d, ⟨hl, hdeclared⟩, hname⟩ := h
      exact ⟨d, List.mem_filterMap.mpr ⟨l, hl, hdeclared⟩, hname⟩
  case order =>
    refine (pairwise_names_ofList_filterMap hnames hsorted).imp fun {a b} hab => ?_
    obtain ⟨l, hl, ⟨d, hd, hname⟩, hfirst⟩ := hab
    exact ⟨l, d, ⟨hl, hd⟩, hname, fun m e hm => hfirst m hm.1 e hm.2⟩

end Sorted

/-- There is only one registry that gathers some declarations. -/
theorem Gathers.unique {made : Location → Declaration → Prop} {r r' : Registry}
    (hmade : ∀ l d, made l d → ∀ name ∈ l, IsName name) (h : Gathers made r)
    (h' : Gathers made r') : r = r' := by
  have hnames : r.names = r'.names := by
    have hperm : r.names.Perm r'.names := by
      refine (List.perm_ext_iff_of_nodup r.nodup r'.nodup).mpr fun name => ?_
      show name ∈ r.names ↔ name ∈ r'.names
      rw [h.mem_names, h'.mem_names]
    refine List.Perm.eq_of_pairwise (fun a b _ _ hab hba => ?_) h.order h'.order hperm
    -- the first locations of two names cannot come before each other
    obtain ⟨l, d, hd, hname, hfirst⟩ := hab
    obtain ⟨m, e, he, hename, hfirst'⟩ := hba
    exact absurd (hfirst' l d hd hname) ((hfirst m e he hename).asymm (hmade l d hd) (hmade m e he))
  have hget : r.get? = r'.get? := by
    funext name
    refine Option.ext fun d => ?_
    rw [h.get?, h'.get?]
  have hdeclarations : r.declarations.map some = r'.declarations.map some := by
    rw [map_get?_names, map_get?_names, hnames, hget]
  cases r
  cases r'
  congr
  exact (List.map_injective_iff.mpr fun _ _ => Option.some.inj) hdeclarations

end Registry

namespace Discovery

variable {t : FileTree}

/-! ### Listings -/

/-- A path without a detour: that of a location. -/
def IsDirect (p : Path) : Prop := ∃ l : Location, (∀ name ∈ l, IsName name) ∧ p = l.path

theorem perm_ordered (paths : List Path) : (ordered t paths).Perm (paths.filter t.isFile) :=
  List.mergeSort_perm (paths.filter t.isFile) Path.le

theorem pairwise_ordered (paths : List Path) :
    (ordered t paths).Pairwise fun p q => p.le q = true :=
  @List.pairwise_mergeSort Path Path.le (fun _ _ _ => Path.le_trans) Path.le_total
    (paths.filter t.isFile)

/-- Paths without a detour are put in one order, however they are listed. -/
theorem ordered_perm {paths others : List Path} (h : paths.Perm others)
    (hpaths : ∀ p ∈ paths, IsDirect p) : ordered t paths = ordered t others := by
  have hperm : (ordered t paths).Perm (ordered t others) :=
    ((perm_ordered paths).trans (h.filter t.isFile)).trans (perm_ordered others).symm
  have hdirect : ∀ p ∈ ordered t paths, IsDirect p := fun p hp =>
    hpaths p (List.mem_of_mem_filter ((perm_ordered paths).mem_iff.mp hp))
  refine List.Perm.eq_of_pairwise (fun p q hp hq hpq hqp => ?_) (pairwise_ordered paths)
    (pairwise_ordered others) hperm
  obtain ⟨l, hl, rfl⟩ := hdirect p hp
  obtain ⟨m, hm, rfl⟩ := hdirect q (hperm.mem_iff.mpr hq)
  rw [Location.path_le_antisymm hl hm hpq hqp]

/-- The files among some locations, by their paths and in order. -/
def inOrder (t : FileTree) (listing : List Location) : List Path :=
  ordered t (listing.map Location.path)

/-- The files among some locations are in the order of locations. -/
theorem exists_inOrder_eq (listing : List Location) :
    ∃ locations : List Location, inOrder t listing = locations.map Location.path ∧
      ∀ l, l ∈ locations ↔ l ∈ listing ∧ t.isFile l.path = true := by
  have hfilter : (listing.map Location.path).filter t.isFile =
      (listing.filter fun l => t.isFile l.path).map Location.path := List.filter_map
  refine ⟨(listing.filter fun l => t.isFile l.path).mergeSort fun l m => l.path.le m.path, ?_,
    fun l => by rw [List.mem_mergeSort, List.mem_filter]⟩
  have hsort := @List.map_mergeSort Location Path (fun l m => l.path.le m.path) Path.le
    Location.path (listing.filter fun l => t.isFile l.path) fun _ _ _ _ => rfl
  rw [inOrder, ordered, hfilter, hsort]

/-! ### What a listing declares -/

/-- Whether one of some locations is that of a file that makes a declaration. -/
def Declares (t : FileTree) (listing : List Location) (l : Location) (d : Declaration) : Prop :=
  l ∈ listing ∧ t.isFile l.path = true ∧
    ∃ text, t.readText l.path = .ok text ∧ Declaration.parse? l.path text = some d

theorem declaration_eq_some_iff {p : Path} {d : Declaration} :
    (declaration t p).1 = some d ↔
      ∃ text, t.readText p = .ok text ∧ Declaration.parse? p text = some d := by
  unfold declaration read
  cases t.readText p with
  | error fault => simp
  | ok text => simp

theorem exists_eq_map_path {listing : List Location} {paths : List Path}
    (h : ∀ p ∈ paths, ∃ l ∈ listing, l.path = p) :
    ∃ others : List Location, paths = others.map Location.path ∧ ∀ l ∈ others, l ∈ listing := by
  induction paths with
  | nil => exact ⟨[], rfl, by simp⟩
  | cons p rest ih =>
      obtain ⟨⟨l, hl, rfl⟩, hrest⟩ := List.forall_mem_cons.mp h
      obtain ⟨others, rfl, hothers⟩ := ih hrest
      exact ⟨l :: others, rfl, List.forall_mem_cons.mpr ⟨hl, hothers⟩⟩

section Listing

variable {listing : List Location} (hnames : ∀ l ∈ listing, ∀ name ∈ l, IsName name)

include hnames

/-- The registry of a listing gathers what the files of the listing declare. -/
theorem gathers_registryOf :
    Registry.Gathers (Declares t listing) (registryOf t (inOrder t listing)) := by
  obtain ⟨locations, hordered, hmem⟩ := exists_inOrder_eq (t := t) listing
  have hsorted : locations.Pairwise fun l m => l.path.le m.path = true := by
    have hpaths := pairwise_ordered (t := t) (listing.map Location.path)
    rwa [← inOrder, hordered, List.pairwise_map] at hpaths
  have hregistry : registryOf t (inOrder t listing) =
      Registry.ofList (locations.filterMap fun l => (declaration t l.path).1) := by
    rw [registryOf, declarations, hordered, List.filterMap_map]
    rfl
  have hdeclares : (fun l d => l ∈ locations ∧ (declaration t l.path).1 = some d) =
      Declares t listing := by
    funext l d
    rw [hmem, declaration_eq_some_iff, and_assoc]
    rfl
  rw [hregistry, ← hdeclares]
  exact Registry.gathers_ofList (fun l hl => hnames l ((hmem l).mp hl).1) hsorted

/-- Leaving out files that cannot be read does not change a registry. -/
theorem registryOf_filter {keep : Location → Bool}
    (h : ∀ l ∈ listing, keep l = false → ∃ failure, read t l.path = .error failure) :
    registryOf t (inOrder t (listing.filter keep)) = registryOf t (inOrder t listing) := by
  have hsame : Declares t (listing.filter keep) = Declares t listing := by
    funext l d
    refine propext (and_congr_left fun hdeclared => ?_)
    rw [List.mem_filter, and_iff_left_iff_imp]
    intro hl
    by_contra hkeep
    obtain ⟨failure, hfailure⟩ := h l hl (Bool.eq_false_iff.mpr hkeep)
    obtain ⟨-, text, htext, -⟩ := hdeclared
    rw [read, htext] at hfailure
    cases hfailure
  have hnames' : ∀ l ∈ listing.filter keep, ∀ name ∈ l, IsName name := fun l hl =>
    hnames l (List.mem_of_mem_filter hl)
  have hfiltered := gathers_registryOf (t := t) hnames'
  rw [hsame] at hfiltered
  exact hfiltered.unique (fun l d hd => hnames l hd.1) (gathers_registryOf hnames)

/-- Files that are found more than once, or in another order, are read with the same registry. -/
theorem registryOf_ordered {paths : List Path}
    (hpaths : ∀ p, p ∈ paths ↔ p ∈ listing.map Location.path) :
    registryOf t (ordered t paths) = registryOf t (inOrder t listing) := by
  have hlocations : ∀ p ∈ paths, ∃ l ∈ listing, l.path = p := fun p hp =>
    List.mem_map.mp ((hpaths p).mp hp)
  obtain ⟨others, rfl, hothers⟩ := exists_eq_map_path hlocations
  have hnames' : ∀ l ∈ others, ∀ name ∈ l, IsName name := fun l hl => hnames l (hothers l hl)
  have hsame : Declares t others = Declares t listing := by
    funext l d
    refine propext (and_congr_left fun _ => ⟨hothers l, fun hl => ?_⟩)
    obtain ⟨m, hm, heq⟩ := List.mem_map.mp ((hpaths l.path).mpr (List.mem_map_of_mem hl))
    rwa [← Location.path_inj (hnames' m hm) (hnames l hl) heq]
  have hgathers := gathers_registryOf (t := t) hnames'
  rw [hsame] at hgathers
  exact hgathers.unique (fun l d hd => hnames l hd.1) (gathers_registryOf hnames)

/-- **Listings.** Whatever a tree holds, and whatever locations are listed: in whatever other order
they are listed, the files are read with the same registry and the same events, and these are what is
read below a source if the locations are what its pattern stands for, behind the events of the
directories that cannot be read. The registry is the only one
that holds for each name the declaration of the last file that declares it, with the names in the
order of the first files that do. Files that cannot be read could as well be left out. -/
theorem registryOf_listing :
    (∀ other : List Location, other.Perm listing →
      registryOf t (inOrder t other) = registryOf t (inOrder t listing) ∧
      events t (inOrder t other) = events t (inOrder t listing)) ∧
    (∀ source extension query refusals,
      Glob.Query.parse (pattern source extension) = .ok query →
      (query.paths t refusals).Perm (listing.map Location.path) →
      registry t source extension refusals = .ok (registryOf t (inOrder t listing),
        skipped t source extension refusals ++ events t (inOrder t listing))) ∧
    (∀ r, Registry.Gathers (Declares t listing) r ↔ r = registryOf t (inOrder t listing)) ∧
    ∀ keep : Location → Bool,
      (∀ l ∈ listing, keep l = false → ∃ failure, read t l.path = .error failure) →
      registryOf t (inOrder t (listing.filter keep)) = registryOf t (inOrder t listing) := by
  have hpaths : ∀ p ∈ listing.map Location.path, IsDirect p := by
    intro p hp
    obtain ⟨l, hl, rfl⟩ := List.mem_map.mp hp
    exact ⟨l, hnames l hl, rfl⟩
  refine ⟨fun other hother => ?_, fun source extension query refusals hquery hperm => ?_,
    fun r => ?_, fun keep => registryOf_filter hnames⟩
  · have hsame : inOrder t other = inOrder t listing :=
      (ordered_perm (hother.map Location.path).symm hpaths).symm
    rw [hsame]
    exact ⟨rfl, rfl⟩
  · have hsame : ordered t (query.paths t refusals) = inOrder t listing :=
      (ordered_perm hperm.symm hpaths).symm
    unfold registry files
    rw [hquery]
    simp only [hsame]
  · have hgathers := gathers_registryOf (t := t) hnames
    constructor
    · exact fun hr => hr.unique (fun l d hd => hnames l hd.1) hgathers
    · intro hr
      rw [hr]
      exact hgathers

end Listing

/-- Two files that declare one interface, and one that is no text. -/
def scattered : FileTree where
  entries := [(["s"], .directory), (["s", "a"], .directory), (["s", "a-b"], .directory),
    (["s", "a", "X.interface.ts"], .file "export interface X \x7b\n  one: string;\n\x7d\n".toUTF8),
    (["s", "a-b", "X.interface.ts"], .file "export interface X \x7b\n  two: string;\n\x7d\n".toUTF8),
    (["s", "b.interface.ts"], .file ⟨#[255]⟩)]

/-- Their locations, not in order. -/
def scatteredFiles : List Location :=
  [["s", "b.interface.ts"], ["s", "a-b", "X.interface.ts"], ["s", "a", "X.interface.ts"]]

/-- The directory `a-b` comes after `a`, and so its declaration is held, although its path is the
lesser text. -/
theorem registryOf_listing_scattered :
    (∀ l ∈ scatteredFiles, ∀ name ∈ l, IsName name) ∧
      Text.textLe (Location.path ["s", "a-b", "X.interface.ts"]).text
        (Location.path ["s", "a", "X.interface.ts"]).text = true ∧
      (registryOf scattered (inOrder scattered scatteredFiles)).get? "X" =
        some ⟨"X", Location.path ["s", "a-b", "X.interface.ts"], [⟨"two", "string", false⟩]⟩ := by
  have hnames : ∀ l ∈ scatteredFiles, ∀ name ∈ l, IsName name := by decide
  obtain ⟨-, -, hgathers, -⟩ := registryOf_listing (t := scattered) hnames
  refine ⟨hnames, by decide +kernel, ?_⟩
  rw [((hgathers _).mpr rfl).get?]
  refine ⟨["s", "a-b", "X.interface.ts"], ⟨by decide, by decide +kernel,
    "export interface X \x7b\n  two: string;\n\x7d\n", by decide +kernel, by decide +kernel⟩, rfl,
    fun m e hm _ => ?_⟩
  obtain ⟨hlisted, -, text, htext, -⟩ := hm
  simp only [scatteredFiles, List.mem_cons, List.not_mem_nil, or_false] at hlisted
  rcases hlisted with rfl | rfl | rfl
  · have hfault : scattered.readText (Location.path ["s", "b.interface.ts"]) = .error .notText := by
      decide +kernel
    rw [hfault] at htext
    cases htext
  · exact Or.inl rfl
  · exact Or.inr (.cons (.rel (.cons .nil)))

end Discovery

end Understudy
