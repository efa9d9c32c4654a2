import Understudy.Proofs.Clearing
import Understudy.Proofs.Paths

/-!
# Understudy.Proofs.Accounting

**Clearing accounts for every entry**, in trees that may hold links, whatever the system refuses and
in whatever order the entries are listed. Each entry has one fate, and it is settled at the turn of
the entry: by its path in what is left of the tree then (`Settles`). Entries have names of their own,
so none takes away what is in another one (`not_taken_of_mem`), and what has become of the entries in
the end is what their fates say (`accounts_clear`).

If the way of the directory leads through none of its entries, nothing that is cleared can cut it.
Then the fate of an entry whose path the system takes is known beforehand: a directory that is not
asked for is passed over, and all else is removed unless the system refuses (`mem_fates_of_steady`).

A link is removed itself. What it leads to is neither a link nor below one, and stays
(`Rooted.not_prefix_of_resolve`).
-/

namespace Understudy

open FileTree

namespace Clearing

variable {t u : FileTree} {refusals : Refusals} {recursive : Bool} {directory l : Location}
  {p : Path} {c : Clearing} {name : String} {f : Fate} {below names : List String}
  {fs : List (String × Fate)} {listing : List (Except Fault String)}

/-! ### Entries are apart -/

theorem Fate.isRemoved_of_takes (h : f.Takes below) : f.isRemoved = true := by
  cases f with
  | passed => cases h
  | kept cause => cases h
  | emptied => rfl
  | removed => rfl

/-- What is in an entry is taken away by its own fate only. -/
theorem not_taken_of_mem (hnodup : (fs.map Prod.fst).Nodup) (hmem : (name, f) ∈ fs)
    (hstays : ¬f.Takes below) : ¬Taken directory fs (directory ++ name :: below) := by
  intro htaken
  obtain ⟨other, f', others, hother, htakes, heq⟩ := htaken
  obtain ⟨rfl, rfl⟩ := List.cons.inj (List.append_cancel_left heq)
  cases List.inj_on_of_nodup_map hnodup hmem hother rfl
  exact hstays htakes

/-- What is in none of the entries is not taken away. -/
theorem not_taken_of_forall (h : ∀ name ∈ fs.map Prod.fst, ¬directory ++ [name] <+: l) :
    ¬Taken directory fs l := by
  intro htaken
  obtain ⟨name, f, below, hmem, -, rfl⟩ := htaken
  exact h name (List.mem_map_of_mem hmem) ⟨below, (List.append_cons directory name below).symm⟩

/-- What a link of the directory leads to is not taken away with the link, nor by an entry that is
removed elsewhere. -/
theorem not_taken_of_target (ht : t.Rooted) {target : String}
    (hlink : t.get? (directory ++ [name]) = some (.link target))
    (hlead : t.resolve (p.join name) = .ok l) (habove : ¬l <+: directory)
    (hothers : ∀ other f, (other, f) ∈ fs → other ≠ name → f.isRemoved = true →
      ¬directory ++ [other] <+: l ++ below) : ¬Taken directory fs (l ++ below) := by
  intro htaken
  obtain ⟨other, f, rest, hmem, htakes, heq⟩ := htaken
  have hprefix : directory ++ [other] <+: l ++ below :=
    ⟨rest, (List.append_cons directory other rest).symm.trans heq.symm⟩
  by_cases hsame : other = name
  · subst hsame
    rcases List.prefix_or_prefix_of_prefix hprefix (List.prefix_append l below) with hin | hover
    · exact ht.not_prefix_of_resolve hlink hlead hin
    · rcases List.prefix_concat_iff.mp hover with rfl | hover
      · exact ht.not_prefix_of_resolve hlink hlead (List.prefix_refl _)
      · exact habove hover
  · exact hothers other f hmem hsame (Fate.isRemoved_of_takes htakes) hprefix

/-- An entry has its turn when the entries before it have had theirs. -/
theorem eq_fate_of_split {before after : List (String × Fate)}
    (h : fates refusals recursive p directory t names = before ++ (name, f) :: after) :
    f = fate refusals recursive p directory (left directory t before) name := by
  induction before generalizing t names with
  | nil =>
      cases names with
      | nil => cases h
      | cons first rest =>
          cases h
          rfl
  | cons entry before ih =>
      cases names with
      | nil => cases h
      | cons first rest =>
          obtain ⟨rfl, hrest⟩ := List.cons.inj h
          exact ih hrest

/-- Each entry is removed, kept or passed over. -/
theorem countP_fates (fs : List (String × Fate)) :
    fs.countP (·.2.isRemoved) + fs.countP (·.2.isKept) + fs.countP (·.2 = .passed) = fs.length := by
  induction fs with
  | nil => rfl
  | cons entry rest ih =>
      obtain ⟨name, f⟩ := entry
      have hone : (if f.isRemoved then 1 else 0) + (if f.isKept then 1 else 0) +
          (if decide (f = .passed) then 1 else 0) = 1 := by
        cases f <;> simp [Fate.isRemoved, Fate.isKept]
      rw [List.countP_cons, List.countP_cons, List.countP_cons, List.length_cons]
      dsimp only
      omega

/-! ### Ways that are not cut -/

/-- What is left of a tree by clearing a directory holds all that is not in the directory. -/
theorem partOf_left_of_empty : (t.empty directory).PartOf (left directory t fs) where
  workDir := by
    have hpart : (left directory t fs).PartOf t := partOf_left
    exact hpart.workDir.symm
  entry := by
    intro l e hl
    rw [get?_empty] at hl
    split at hl
    · cases hl
    · rename_i houtside
      rw [get?_left_of_not_taken, hl]
      intro htaken
      obtain ⟨name, f, below, -, -, rfl⟩ := htaken
      exact houtside ⟨List.prefix_append _ _, by simp⟩

/-- If a path leads to a directory without what is in it, the fate of an entry is known beforehand. -/
theorem mem_fates_of_steady (ht : t.Rooted) (hnodup : names.Nodup)
    (hsteady : (t.empty directory).resolve p = .ok directory)
    (hdirectory : t.get? directory = some .directory) (hname : IsName name) (hadmits : p.Admits name)
    {e : Entry} (hmem : name ∈ names) (hentry : t.get? (directory ++ [name]) = some e) :
    (name, verdict refusals recursive (directory ++ [name]) e) ∈
      fates refusals recursive p directory t names := by
  obtain ⟨f, hfate⟩ : ∃ f, (name, f) ∈ fates refusals recursive p directory t names :=
    exists_of_mem_names hmem
  obtain ⟨before, after, rfl, hf, hpart⟩ := exists_of_mem_fates hfate
  have hnew : name ∉ before := fun hbefore =>
    (List.nodup_append.mp hnodup).2.2 name hbefore name List.mem_cons_self rfl
  have hturn : (left directory t (fates refusals recursive p directory t before)).get?
      (directory ++ [name]) = some e := by
    rw [get?_left_of_not_taken, hentry]
    refine not_taken_of_forall fun other hother hprefix => ?_
    rw [map_fst_fates] at hother
    obtain rfl : other = name := by simpa using hprefix
    exact hnew hother
  have hthere : (t.empty directory).get? directory = some .directory := by
    rw [get?_empty, if_neg fun h => h.2 rfl, hdirectory]
  have hstill : (left directory t (fates refusals recursive p directory t
      (before ++ name :: after))).approach p = .ok directory :=
    partOf_left_of_empty.approach (ht.empty.approach_of_resolve hsteady hthere)
  rw [hf] at hpart hfate
  rwa [fate_eq_verdict hname hadmits (get?_left_self.trans hdirectory) hturn
    (hpart.approach hstill)] at hfate

/-! ### The account -/

/-- What may be listed of a directory, in any order: names of entries, each once, and faults. -/
structure Lists (t : FileTree) (directory : Location) (listing : List (Except Fault String)) :
    Prop where
  nodup : (listed listing).Nodup
  present : ∀ name ∈ listed listing, t.get? (directory ++ [name]) ≠ none

/-- What becomes of the entries of a directory that is cleared, each by its fate, and how they are
counted. -/
structure Accounts (refusals : Refusals) (recursive : Bool) (p : Path) (t : FileTree)
    (directory : Location) (listing : List (Except Fault String)) (fs : List (String × Fate))
    (c : Clearing) : Prop where
  /-- Every entry that is listed has a fate, and they have their turns in the order of the listing. -/
  names : fs.map Prod.fst = listed listing
  /-- The fate of an entry is settled at its turn, in what the entries before it have left. That holds
  all that is in the entry. -/
  settled : ∀ before name f after, fs = before ++ (name, f) :: after →
    Settles refusals recursive p directory (left directory t before) name f ∧
      ∀ below, (left directory t before).get? (directory ++ name :: below) =
        t.get? (directory ++ name :: below)
  /-- A directory that is passed over keeps all that is below it. -/
  passed : ∀ name, (name, .passed) ∈ fs →
    ∀ below, c.tree.get? (directory ++ name :: below) = t.get? (directory ++ name :: below)
  /-- An entry that cannot be looked up, or that the system does not let go, stays with all that is
  below it. -/
  kept : ∀ name cause, (name, .kept cause) ∈ fs →
    ∀ below, c.tree.get? (directory ++ name :: below) = t.get? (directory ++ name :: below)
  /-- An entry that is removed is gone with all that was below it. -/
  removed : ∀ name, (name, .removed) ∈ fs →
    ∀ below, c.tree.get? (directory ++ name :: below) = none
  /-- A directory that is emptied stays itself. -/
  emptied : ∀ name, (name, .emptied) ∈ fs →
    c.tree.get? (directory ++ [name]) = t.get? (directory ++ [name]) ∧
      ∀ other below, c.tree.get? (directory ++ name :: other :: below) = none
  /-- If the path leads to the directory even without what is in it, then what becomes of the entries
  is known beforehand, unless the system does not take their paths. -/
  steady : (t.empty directory).resolve p = .ok directory →
    ∀ name e, name ∈ listed listing → t.get? (directory ++ [name]) = some e → p.Admits name →
      (name, verdict refusals recursive (directory ++ [name]) e) ∈ fs
  /-- Outside of the entries nothing changes. -/
  outside : ∀ l, (∀ name ∈ listed listing, ¬directory ++ [name] <+: l) → c.tree.get? l = t.get? l
  workDir : c.tree.workDir = t.workDir
  /-- What an entry leads to that is a link stays, with all that is below it, but for what is in
  another entry that is removed. (Where it holds the directory itself, it is outside.) -/
  targets : ∀ name target l, t.get? (directory ++ [name]) = some (.link target) →
    t.resolve (p.join name) = .ok l → ¬l <+: directory →
    ∀ below, (∀ other f, (other, f) ∈ fs → other ≠ name → f.isRemoved = true →
        ¬directory ++ [other] <+: l ++ below) →
      c.tree.get? (l ++ below) = t.get? (l ++ below)
  countRemoved : c.report.removed = fs.countP (·.2.isRemoved)
  /-- What cannot be listed is counted as failed as well. -/
  countFailed : c.report.failed = (listing.filterMap fault?).length + fs.countP (·.2.isKept)
  /-- Each entry is removed, failed or a directory that is passed over. -/
  total : c.report.removed + c.report.failed + fs.countP (·.2 = .passed) = listing.length
  /-- All that fails is reported, in the order of the listing. -/
  events : c.events = (listing.filterMap fault?).map (.unlisted p) ++
    fs.filterMap fun entry => entry.2.event? (p.join entry.1)

/-- Clearing what a directory lists accounts for it. -/
theorem accounts_clear (hrooted : t.Rooted) (hnamed : t.Named)
    (hresolve : t.resolve p = .ok directory) (hdirectory : t.get? directory = some .directory)
    (hlists : Lists t directory listing) :
    Accounts refusals recursive p t directory listing
      (fates refusals recursive p directory t (listed listing))
      (clear refusals recursive p t listing) := by
  have hnames : ∀ name ∈ listed listing, IsName name := fun name hname =>
    hnamed.isName_of_mem_names (mem_names_iff.mpr (hlists.present name hname))
  rw [clear_eq hnames fun _ => way_of_resolve hrooted hresolve hdirectory]
  have hmap : (fates refusals recursive p directory t (listed listing)).map Prod.fst =
      listed listing := map_fst_fates
  have hnodup : ((fates refusals recursive p directory t (listed listing)).map Prod.fst).Nodup := by
    rw [hmap]
    exact hlists.nodup
  have hcount := countP_fates (fates refusals recursive p directory t (listed listing))
  have hlength := congrArg List.length hmap
  rw [List.length_map] at hlength
  constructor
  case names => exact hmap
  case settled =>
    intro before name f after hsplit
    refine ⟨eq_fate_of_split hsplit ▸ settles_fate _ _ _ _ _ _, fun below => ?_⟩
    refine get?_left_of_not_taken (not_taken_of_forall fun other hother hprefix => ?_)
    obtain rfl : other = name := by simpa using hprefix
    rw [hsplit, List.map_append, List.nodup_append] at hnodup
    exact hnodup.2.2 other hother other List.mem_cons_self rfl
  case passed =>
    exact fun name hmem below => get?_left_of_not_taken (not_taken_of_mem hnodup hmem nofun)
  case kept =>
    exact fun name cause hmem below => get?_left_of_not_taken (not_taken_of_mem hnodup hmem nofun)
  case removed =>
    exact fun name hmem below => get?_left_of_taken ⟨name, _, below, hmem, trivial, rfl⟩
  case emptied =>
    refine fun name hmem => ⟨get?_left_of_not_taken (not_taken_of_mem hnodup hmem (· rfl)), ?_⟩
    exact fun other below => get?_left_of_taken
      ⟨name, _, other :: below, hmem, List.cons_ne_nil other below, rfl⟩
  case steady =>
    exact fun hsteady name e hname hentry hadmits => mem_fates_of_steady hrooted hlists.nodup hsteady
      hdirectory (hnames name hname) hadmits hname hentry
  case outside =>
    intro l houtside
    refine get?_left_of_not_taken (not_taken_of_forall ?_)
    rwa [hmap]
  case workDir => exact partOf_left.workDir
  case targets =>
    exact fun name target l hlink hlead habove below hothers =>
      get?_left_of_not_taken (not_taken_of_target hrooted hlink hlead habove hothers)
  case countRemoved => rfl
  case countFailed => rfl
  case total =>
    have htotal := length_listing listing
    dsimp only
    omega
  case events => rfl

end Clearing

namespace Destination

open Clearing

variable {t : FileTree} {p : Path} {directory : Location}

/-- **Clearing.** A directory that is there and may be listed can be prepared, whatever it holds and
whatever else the system refuses. It lists names of its entries, and all of them if none is refused.
Whatever is listed, in whatever order, is accounted for. The path of each entry is looked up in what is
left at its turn: where that fails the entry stays and is counted as failed, be it a directory;
otherwise directories that are not asked for are passed over and stay as they are, and all other entries
are either still there and counted as failed, or gone and counted as removed, a link by itself. Only a
directory to which its path does not lead any longer when it is empty stays itself. If the way of the
directory leads through none of its entries and the system takes their paths, no lookup fails and all
this is known beforehand. Nothing else changes: neither what the links lead to nor what lies
outside. -/
theorem prepare_accounts (hdistinct : t.Distinct) (hrooted : t.Rooted) (hnamed : t.Named)
    (hresolve : t.resolve p = .ok directory) (hdirectory : t.get? directory = some .directory)
    (refusals : Refusals) (hlist : refusals (.list directory) = none) (recursive : Bool) :
    (∃ c, c = clear refusals recursive p t (t.listing refusals directory) ∧
      prepare refusals t p recursive = (.ok c.report, c.tree, c.events)) ∧
    Lists t directory (t.listing refusals directory) ∧
    ((∀ name, refusals (.entry (directory ++ [name])) = none) →
      ∀ name, name ∈ listed (t.listing refusals directory) ↔ t.get? (directory ++ [name]) ≠ none) ∧
    ∀ listing, Lists t directory listing →
      Accounts refusals recursive p t directory listing
        (fates refusals recursive p directory t (listed listing))
        (clear refusals recursive p t listing) := by
  refine ⟨⟨_, rfl, prepare_eq hresolve hdirectory hlist⟩, ⟨?_, ?_⟩, fun hall name => ?_, ?_⟩
  · exact (hdistinct.nodup_names directory).sublist sublist_names_of_listing
  · exact fun name hname => mem_names_iff.mp (sublist_names_of_listing.subset hname)
  · rw [listed_listing_of_forall fun name _ => hall name, mem_names_iff]
  · exact fun listing => accounts_clear hrooted hnamed hresolve hdirectory

/-- A directory with a file, a link to another directory, a directory and a file that stays. -/
def mixed : FileTree where
  entries := [(["d"], .directory), (["d", "file"], .file "a".toUTF8), (["d", "link"], .link "../e"),
    (["d", "inner"], .directory), (["d", "inner", "deep"], .file "b".toUTF8),
    (["d", "held"], .file "c".toUTF8), (["e"], .directory), (["e", "kept"], .file "d".toUTF8)]

/-- One entry is held. -/
def holds : Refusals := fun request =>
  if request = .remove ["d", "held"] then some .permissionDenied else none

/-- The entries in another order. -/
def mixedListing : List (Except Fault String) := [.ok "held", .ok "inner", .ok "link", .ok "file"]

/-- The file and the link are removed, listed first or last, and what the link leads to stays. -/
theorem prepare_accounts_mixed :
    mixed.Distinct ∧ mixed.Rooted ∧ mixed.Named ∧ mixed.resolve ⟨"d"⟩ = .ok ["d"] ∧
      mixed.get? ["d"] = some .directory ∧ holds (.list ["d"]) = none ∧
      (prepare holds mixed ⟨"d"⟩ false).1 = .ok ⟨2, 1⟩ ∧
      let cleared := clear holds false ⟨"d"⟩ mixed mixedListing
      Lists mixed ["d"] mixedListing ∧ cleared.report = ⟨2, 1⟩ ∧
        cleared.tree.get? ["d", "link"] = none ∧
        cleared.tree.get? ["d", "inner", "deep"] = some (.file "b".toUTF8) ∧
        cleared.tree.get? ["e", "kept"] = some (.file "d".toUTF8) := by
  have hdistinct : mixed.Distinct := by decide
  have hrooted : mixed.Rooted := by decide
  have hnamed : mixed.Named := by decide
  have hresolve : mixed.resolve ⟨"d"⟩ = .ok ["d"] := by decide +kernel
  have hdirectory : mixed.get? ["d"] = some .directory := rfl
  have hlist : holds (.list ["d"]) = none := by decide
  obtain ⟨⟨c, hc, hprepare⟩, -, -, haccounts⟩ :=
    prepare_accounts hdistinct hrooted hnamed hresolve hdirectory holds hlist false
  have hlists : Lists mixed ["d"] mixedListing := ⟨by decide, by decide⟩
  have h := haccounts mixedListing hlists
  have hsteady : (mixed.empty ["d"]).resolve ⟨"d"⟩ = .ok ["d"] := by decide +kernel
  have hgone := h.steady hsteady "link" (.link "../e") (by decide) rfl (by decide)
  have hpassed := h.steady hsteady "inner" .directory (by decide) rfl (by decide)
  have hremoved : verdict holds false (["d"] ++ ["link"]) (.link "../e") = .removed := by decide
  have hstays : verdict holds false (["d"] ++ ["inner"]) .directory = .passed := by decide
  rw [hremoved] at hgone
  rw [hstays] at hpassed
  refine ⟨hdistinct, hrooted, hnamed, hresolve, hdirectory, hlist, ?_, hlists, ?_, ?_, ?_, ?_⟩
  · rw [hprepare, hc]
    decide +kernel
  · decide +kernel
  · exact h.removed "link" hgone []
  · exact h.passed "inner" hpassed ["deep"]
  · have hlink : mixed.resolve ((Path.mk "d").join "link") = .ok ["e"] := by decide +kernel
    exact h.targets "link" "../e" ["e"] rfl hlink (by decide) ["kept"] fun _ _ _ _ _ => by simp

/-- A directory with another one, and with a link to that. -/
def nested : FileTree where
  entries := [(["d"], .directory), (["d", "link"], .link "inner"), (["d", "inner"], .directory)]

/-- Directories that are not asked for are counted as failed where they cannot be looked up: by a way
that is too long, or through a link that is removed before. -/
theorem prepare_counts_nested :
    nested.Distinct ∧ nested.Rooted ∧ nested.Named ∧ nested.names ["d"] = ["link", "inner"] ∧
      nested.get? ["d", "inner"] = some .directory ∧
      (nested.resolve (.dotted "d" 2046) = .ok ["d"] ∧
        (prepare (fun _ => none) nested (.dotted "d" 2046) false).1 = .ok ⟨0, 2⟩) ∧
      nested.resolve ⟨"d/link/.."⟩ = .ok ["d"] ∧
        (prepare (fun _ => none) nested ⟨"d/link/.."⟩ false).1 = .ok ⟨1, 1⟩ := by
  have hnamed : nested.Named := by decide
  have hresolve : nested.resolve (.dotted "d" 2046) = .ok ["d"] :=
    resolve_dotted (by decide) (by decide +kernel) rfl
  have hlong : ∀ name ∈ nested.names ["d"], ¬(Path.dotted "d" 2046).Admits name := by
    intro name hname
    have hnames : nested.names ["d"] = ["link", "inner"] := by decide
    rw [hnames] at hname
    rcases List.mem_pair.mp hname with rfl | rfl
    · exact not_admits_dotted (by decide) (by decide)
    · exact not_admits_dotted (by decide) (by decide)
  obtain ⟨events, hprepare⟩ : ∃ events, prepare (fun _ => none) nested (.dotted "d" 2046) false =
      (.ok ⟨0, (nested.listing (fun _ => none) ["d"]).length⟩, nested, events) :=
    prepare_of_forall_not_admits hnamed hresolve rfl rfl hlong
  refine ⟨by decide, by decide, hnamed, by decide, rfl, ⟨hresolve, ?_⟩, by decide +kernel,
    by decide +kernel⟩
  have hcount : (nested.listing (fun _ => none) ["d"]).length = 2 := by decide +kernel
  rw [hprepare, hcount]

end Destination

end Understudy
