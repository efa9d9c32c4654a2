import Understudy.Proofs.Delivery
import Understudy.Proofs.Exactness

/-!
# Understudy.Proofs.Rerun

A run that succeeds can be run again, and nothing changes. The destination is there already, and what
the first run has left in it are files right in it where it has written a module. The second clearing
takes away nothing else: what the first one has left was not due to be removed, or the system does
not take its path (`Clearing.get?_left_again`). So the second clearing leads back to the tree after
the first one, up to modules that are still there (`Reverts`). There the modules have the same places,
and the declarations are the same (`Discovery.registry_congr`), as no module that was written is taken
for one: its name does not end like that of a declaration. So the same modules are written to the same
places.

If the system takes the paths of all modules by way of the destination, the second clearing even leads
to the very tree that the first one left.
-/

namespace Understudy

open FileTree

/-! ### Clearing what was written -/

/-- A tree that some locations are left out of is known by what stands in it. -/
theorem FileTree.eq_of_filter {u v w : FileTree} {keep : Location → Bool} (hroot : keep [] = true)
    (hw : w.entries = v.entries.filter fun entry => keep entry.1)
    (hu : u.entries = v.entries.filter fun entry => (u.get? entry.1).isSome)
    (hworkDir : w.workDir = u.workDir) (hget : ∀ l, w.get? l = u.get? l) : w = u := by
  have hkeep : ∀ entry ∈ v.entries, keep entry.1 = (u.get? entry.1).isSome := by
    intro entry hentry
    obtain ⟨l, e⟩ := entry
    by_cases hl : l = []
    · subst hl
      exact hroot
    · have hlookup : u.get? l = if keep l then v.get? l else none := by
        rw [← hget, get?_of_ne_nil w hl, get?_of_ne_nil v hl, hw, lookup_filter_key]
      have hpresent := get?_ne_none_of_mem hentry
      rw [hlookup]
      cases keep l with
      | true => exact (Option.isSome_iff_ne_none.mpr hpresent).symm
      | false => rfl
  have hentries : w.entries = u.entries := by
    rw [hw, hu]
    exact List.filter_congr hkeep
  cases w
  cases u
  congr

namespace Clearing

variable {t u v : FileTree} {recursive : Bool} {p : Path} {directory l : Location}
  {names others : List String} {fs : List (String × Fate)}

/-- What is left of a tree are all its entries but those at some locations. -/
theorem exists_entries_left : ∃ keep : Location → Bool, keep [] = true ∧
    (left directory t fs).entries = t.entries.filter fun entry => keep entry.1 := by
  induction fs generalizing t with
  | nil => exact ⟨fun _ => true, rfl, by simp [left]⟩
  | cons entry rest ih =>
      obtain ⟨name, f⟩ := entry
      obtain ⟨keep, hroot, hkeep⟩ := ih (t := f.leave t (directory ++ [name]))
      rw [left_cons, hkeep]
      cases f with
      | passed => exact ⟨keep, hroot, rfl⟩
      | kept cause => exact ⟨keep, hroot, rfl⟩
      | emptied =>
          rw [Fate.leave, empty, List.filter_filter]
          exact ⟨fun l => keep l && !((directory ++ [name]).isPrefixOf l && l != directory ++ [name]),
            by simp [hroot], rfl⟩
      | removed =>
          rw [Fate.leave, erase, List.filter_filter]
          exact ⟨fun l => keep l && !(directory ++ [name]).isPrefixOf l, by simp [hroot], rfl⟩

/-- When a directory is cleared again, all that a clearing has left there stays: directories that were
not asked for, and entries whose paths the system does not take. -/
theorem get?_left_again (hu : u.Rooted)
    (hleft : ∀ name e, p.Admits name → u.get? (directory ++ [name]) = some e →
      e = .directory ∧ recursive = false)
    (huv : u.Within v) (hway : ∀ d, v.approach p = .ok d → d = directory)
    (hnames : ∀ name ∈ names, IsName name) (hpresent : u.get? l ≠ none) :
    (left directory v (fates (fun _ => none) recursive p directory v names)).get? l = v.get? l := by
  refine get?_left_of_not_taken fun htaken => ?_
  obtain ⟨name, -, e, below, rfl, hadmits, hentry, hasked, -⟩ := exists_of_taken hnames hway htaken
  rw [List.append_cons] at hpresent
  obtain ⟨old, hold⟩ := Option.ne_none_iff_exists'.mp (hu.ne_none_of_append hpresent)
  obtain ⟨rfl, hshallow⟩ := hleft name old hadmits hold
  -- the directory is still one
  have hsame := huv.directory _ hold
  rw [hentry] at hsame
  cases hsame
  exact Bool.false_ne_true (hshallow.symm.trans (hasked rfl))

end Clearing

/-! ### Writing again -/

namespace FileTree

variable {t : FileTree} {here l : Location} {names : List String}
  {onLink : Location → List String → Except Fault Location}

/-- A way along names to a directory is taken as far as the names are short. -/
theorem Plain.walkWith_names (ht : t.Plain) (hnames : ∀ name ∈ names, IsName name)
    (h : t.get? (here ++ names) = some .directory) :
    t.walkWith true onLink here names =
      if ∀ name ∈ names, name.utf8ByteSize ≤ maxNameBytes then .ok (here ++ names)
      else .error .nameTooLong := by
  induction names generalizing here with
  | nil => simp [walkWith]
  | cons name rest ih =>
      obtain ⟨⟨hempty, hdot, hup, -⟩, hrest⟩ := List.forall_mem_cons.mp hnames
      have hhere := ht.rooted.get?_of_append_cons (h.trans_ne (Option.some_ne_none _))
      rw [List.append_cons] at h ⊢
      have hentry : t.get? (here ++ [name]) = some .directory := by
        cases rest with
        | nil => rwa [List.append_nil] at h
        | cons other rest => exact ht.rooted.get?_of_append_cons (h.trans_ne (Option.some_ne_none _))
      rw [walkWith]
      simp only [hhere, hempty, hdot, hup, or_self, if_false, hentry, ih hrest h, List.forall_mem_cons]
      by_cases hlength : maxNameBytes < name.utf8ByteSize
      · rw [if_pos hlength, if_neg fun hshort => Nat.not_lt.mpr hshort.1 hlength]
      · simp only [if_neg hlength, Nat.le_of_not_lt hlength, true_and]

theorem base_path (hl : ∀ name ∈ l, IsName name) : l.path.base = "" :: l := by
  by_cases hne : l = []
  · subst hne
    decide
  · have hsegments := Location.segments_path hne hl
    rcases l.path.segments_eq_base with hbase | hbase
    · rw [← hbase, hsegments]
    · -- the last name is not empty
      rw [hsegments] at hbase
      have hlast : ("" :: l).getLast? = some "" := by rw [hbase, List.getLast?_concat]
      rw [List.getLast?_cons_of_ne_nil hne] at hlast
      exact absurd rfl (hl "" (List.mem_of_getLast? hlast)).1

/-- The entries of a directory are held where its path leads, if its names are short. -/
theorem Plain.directoryOf_path (ht : t.Plain) (hl : ∀ name ∈ l, IsName name)
    (h : t.get? l = some .directory) :
    t.directoryOf l.path =
      if ∀ name ∈ l, name.utf8ByteSize ≤ maxNameBytes then .ok l else .error .nameTooLong := by
  have hwalk : t.walk true maxLinks [] ("" :: l) =
      if ∀ name ∈ l, name.utf8ByteSize ≤ maxNameBytes then .ok l else .error .nameTooLong :=
    (walkWith_empty rfl).trans (ht.walkWith_names hl h)
  split
  case isTrue hall =>
    rw [directoryOf_eq_ok_iff, startOf_path, base_path hl, hwalk, if_pos hall]
    exact ⟨rfl, h⟩
  case isFalse hall =>
    rw [directoryOf, startOf_path, base_path hl, hwalk, if_neg hall]
    rfl

end FileTree

namespace Destination

variable {u w : FileTree} {directory k : Location} {m : MockModule} {ms : List MockModule}

/-- The third tree is what is left of the second one, and all that the first one holds is left. -/
structure Reverts (u v w : FileTree) : Prop where
  partOf : w.PartOf v
  get? : ∀ l, u.get? l ≠ none → w.get? l = v.get? l

/-- Preparing a destination leads back to what preparing it has left before, if no directory has come
into it. -/
theorem prepare_again {v : FileTree} {p : Path} {recursive : Bool} (hu : u.Plain) (hv : v.Plain)
    (huv : u.Within v) (hresolve : u.resolve p = .ok directory)
    (hdirectory : u.get? directory = some .directory)
    (hleft : ∀ name e, p.Admits name → u.get? (directory ++ [name]) = some e →
      e = .directory ∧ recursive = false) :
    ∃ report w events, prepare (fun _ => none) v p recursive = (.ok report, w, events) ∧ w.Plain ∧
      Reverts u v w ∧ ∃ keep : Location → Bool, keep [] = true ∧
        w.entries = v.entries.filter fun entry => keep entry.1 := by
  have hdestination := hu.resolve_within hv huv hresolve
  have hthere := huv.directory _ hdirectory
  have hlisted : ∀ name ∈ Clearing.listed (v.listing (fun _ => none) directory), IsName name :=
    fun _ => Clearing.isName_of_mem_listed hv.named
  have hway : ∀ d, v.approach p = .ok d → d = directory := fun _ =>
    Clearing.way_of_resolve hv.rooted hdestination hthere
  rw [prepare_eq hdestination hthere rfl, Clearing.clear_eq hlisted hway]
  exact ⟨_, _, _, rfl, Clearing.plain_left hv, ⟨Clearing.partOf_left, fun _ =>
    Clearing.get?_left_again hu.rooted hleft huv hway hlisted⟩, Clearing.exists_entries_left⟩

section Reverts

variable (hu : u.Plain) (hdirectory : u.get? directory = some .directory)
  (hnames : ∀ m ∈ ms, IsName m.fileName) (hnodup : (ms.map MockModule.fileName).Nodup)
  (h : Reverts u (writeModules directory.path u ms).2 w)

include hu hnames hnodup h

/-- Where no module is placed, the tree is as it was before the modules were written. -/
theorem Reverts.get?_of_forall_ne (hk : ∀ m ∈ ms, place directory.path u m ≠ .ok k) :
    w.get? k = u.get? k := by
  have hsame : (writeModules directory.path u ms).2.get? k = u.get? k := by
    rw [writeModules_eq hnames hnodup (hu.linkless directory.path)]
    exact get?_foldl_put_of_forall_ne hnames (hu.linkless directory.path) hk
  by_cases hpresent : u.get? k = none
  · rw [hpresent] at hsame ⊢
    by_contra hleft
    obtain ⟨e, he⟩ := Option.ne_none_iff_exists'.mp hleft
    rw [h.partOf.entry k e he] at hsame
    cases hsame
  · rw [h.get? k hpresent, hsame]

/-- The directories are the same. -/
theorem Reverts.directory_iff : w.get? k = some .directory ↔ u.get? k = some .directory := by
  have hlinks := hu.linkless directory.path
  by_cases hplaced : ∃ m ∈ ms, place directory.path u m = .ok k
  · obtain ⟨m, hm, hplace⟩ := hplaced
    obtain ⟨-, -, -, hfree⟩ := of_place_eq_ok (hnames m hm) hlinks hplace
    obtain ⟨-, hfile⟩ := delivered_of_place hnames hnodup hlinks hm hplace
    refine iff_of_false (fun hdirectory => ?_) hfree
    rw [h.partOf.entry k _ hdirectory] at hfile
    cases hfile
  · rw [h.get?_of_forall_ne hu hnames hnodup fun m hm hplace => hplaced ⟨m, hm, hplace⟩]

theorem Reverts.within : u.Within w where
  workDir := by
    obtain ⟨-, hwithin, -⟩ := get?_writeModules hu directory.path ms
    exact hwithin.workDir.trans h.partOf.workDir.symm
  directory := fun _ => (h.directory_iff hu hnames hnodup).mpr
  present := by
    intro k hk
    obtain ⟨-, hwithin, -⟩ := get?_writeModules hu directory.path ms
    rw [h.get? k hk]
    exact hwithin.present k hk

include hdirectory

/-- A module is placed where it was placed before. -/
theorem Reverts.place_eq (hw : w.Plain) (hm : IsName m.fileName) :
    place directory.path w m = place directory.path u m := by
  have hvalid : ∀ name ∈ directory, IsName name := fun _ =>
    hu.isName_of_mem (hdirectory.trans_ne (Option.some_ne_none _))
  have hdirectory' := (h.directory_iff hu hnames hnodup).mpr hdirectory
  have hslot : w.slot m.fileName directory = u.slot m.fileName directory := by
    unfold slot
    simp only [h.directory_iff hu hnames hnodup]
  rw [place, place, target_join hm (hw.linkless directory.path),
    target_join hm (hu.linkless directory.path), hw.directoryOf_path hvalid hdirectory',
    hu.directoryOf_path hvalid hdirectory]
  split
  · simp only [bind, Except.bind, hslot]
  · rfl

/-- Writing the modules again has the same outcomes, and in the end the tree holds the same. -/
theorem Reverts.writeModules_again (hw : w.Plain) :
    (writeModules directory.path w ms).1 = (writeModules directory.path u ms).1 ∧
      (writeModules directory.path w ms).2.Alike (writeModules directory.path u ms).2 := by
  have hlinks := hu.linkless directory.path
  have hlinks' := hw.linkless directory.path
  have hplace : ∀ m ∈ ms, place directory.path w m = place directory.path u m := fun m hm =>
    h.place_eq hu hdirectory hnames hnodup hw (hnames m hm)
  constructor
  · rw [writeModules_eq hnames hnodup hlinks, writeModules_eq hnames hnodup hlinks']
    refine List.map_congr_left fun m hm => ?_
    rw [writeModule_eq, writeModule_eq, hplace m hm]
  constructor
  case workDir =>
    obtain ⟨-, hwithin, -⟩ := get?_writeModules hu directory.path ms
    obtain ⟨-, hwithin', -⟩ := get?_writeModules hw directory.path ms
    rw [← hwithin.workDir, ← hwithin'.workDir, (h.within hu hnames hnodup).workDir]
  case get? =>
    intro k
    rw [writeModules_eq hnames hnodup hlinks, writeModules_eq hnames hnodup hlinks']
    by_cases hplaced : ∃ m ∈ ms, place directory.path u m = .ok k
    · obtain ⟨m, hm, hk⟩ := hplaced
      exact (get?_foldl_put_of_mem hnames hnodup hlinks' hm ((hplace m hm).trans hk)).trans
        (get?_foldl_put_of_mem hnames hnodup hlinks hm hk).symm
    · have hfree : ∀ m ∈ ms, place directory.path u m ≠ .ok k := fun m hm hk => hplaced ⟨m, hm, hk⟩
      have hfree' : ∀ m ∈ ms, place directory.path w m ≠ .ok k := fun m hm =>
        hplace m hm ▸ hfree m hm
      exact (get?_foldl_put_of_forall_ne hnames hlinks' hfree').trans
        ((h.get?_of_forall_ne hu hnames hnodup hfree).trans
          (get?_foldl_put_of_forall_ne hnames hlinks hfree).symm)

end Reverts

section Free

variable (hu : u.Plain) (hnames : ∀ m ∈ ms, IsName m.fileName)
  (hnodup : (ms.map MockModule.fileName).Nodup)

include hu hnames

/-- A module is placed right in the directory, under a short name. -/
theorem of_place_path_eq_ok (hdirectory : ∀ name ∈ directory, IsName name) (hm : m ∈ ms)
    (h : place directory.path u m = .ok k) :
    k = directory ++ [m.fileName] ∧ m.fileName.utf8ByteSize ≤ maxNameBytes ∧
      u.get? k ≠ some .directory := by
  rw [place, Location.path_join hdirectory (hnames m hm)] at h
  obtain rfl := hu.eq_of_target_path (isName_of_mem_concat hdirectory (hnames m hm)) h
  obtain ⟨-, d, name, -, hsplit, -, -, hlength, hfree, -⟩ := hu.of_target h
  obtain ⟨-, hlast⟩ := List.append_inj' hsplit rfl
  cases hlast
  exact ⟨rfl, hlength, hfree⟩

include hnodup

/-- Without modules that are placed where there was nothing, the tree is as it was. -/
theorem filter_writeModules
    (hfree : ∀ m ∈ ms, ∀ k, place directory.path u m = .ok k → u.get? k = none) :
    u.entries = (writeModules directory.path u ms).2.entries.filter
      fun entry => (u.get? entry.1).isSome := by
  have hnone : ∀ m ∈ ms, ∀ l, place directory.path u m = .ok l → (u.get? l).isSome = false := by
    intro m hm l hplace
    rw [hfree m hm l hplace]
    rfl
  rw [writeModules_eq hnames hnodup (hu.linkless directory.path)]
  refine Eq.symm ((filter_foldl_put hnone).trans ?_)
  exact List.filter_eq_self.mpr fun entry hentry =>
    Option.isSome_iff_ne_none.mpr (get?_ne_none_of_mem hentry)

/-- If no module is left, and there was nothing where it is placed, the tree is the one before. -/
theorem Reverts.eq (h : Reverts u (writeModules directory.path u ms).2 w)
    (hkeep : ∃ keep : Location → Bool, keep [] = true ∧ w.entries =
      (writeModules directory.path u ms).2.entries.filter fun entry => keep entry.1)
    (hfree : ∀ m ∈ ms, ∀ k, place directory.path u m = .ok k → u.get? k = none ∧ w.get? k = none) :
    w = u := by
  obtain ⟨keep, hroot, hentries⟩ := hkeep
  refine eq_of_filter hroot hentries
    (filter_writeModules hu hnames hnodup fun m hm k hk => (hfree m hm k hk).1)
    (h.within hu hnames hnodup).workDir.symm fun k => ?_
  by_cases hplaced : ∃ m ∈ ms, place directory.path u m = .ok k
  · obtain ⟨m, hm, hk⟩ := hplaced
    rw [(hfree m hm k hk).1, (hfree m hm k hk).2]
  · exact h.get?_of_forall_ne hu hnames hnodup fun m hm hk => hplaced ⟨m, hm, hk⟩

end Free

end Destination

/-! ### The second run -/

namespace Generation

variable {σ : Type} {t u v w : FileTree} {s : Settings} {p : Provider σ} {start : Declaration → σ}
  {source directory : Path} {r : Registry} {summary : Summary} {l : Location}

section Course

variable (ht : t.Plain) (hextension : '/' ∉ s.layout.extension.toList)
  (h : Course (fun _ => none) t s p start u source directory r summary v)

include ht h

/-- The source is a directory as well when the run is over. -/
theorem Course.isDirectory_again : v.isDirectory s.source = true := by
  obtain ⟨_, -, -, -, -, hleaves⟩ := h.destination ht
  obtain ⟨hmade, hpart⟩ := ht.makeDirectories s.destination
  obtain ⟨hplain, hwithin⟩ := h.within hleaves.plain
  obtain ⟨k, hk⟩ : ∃ k, u.resolve s.source = .ok k := by
    obtain ⟨hsource, -⟩ := canonicalPaths_eq_ok_iff.mp h.paths
    obtain ⟨k, hk, -⟩ := canonical_eq_ok_iff.mp hsource
    exact ⟨k, hk⟩
  -- before the clearing the source was a directory, and it is still there
  obtain ⟨l, hl, hbefore⟩ := exists_of_isDirectory h.isDirectory
  have hsame := hleaves.plain.resolve_within hmade hleaves.partOf.within hk
  rw [ht.resolve_within hmade hpart.within hl] at hsame
  cases hsame
  obtain ⟨e, he⟩ := Option.ne_none_iff_exists'.mp (hleaves.plain.ne_none_of_resolve hk)
  have hentry := hleaves.partOf.entry _ e he
  rw [hpart.entry _ _ hbefore] at hentry
  cases hentry
  exact isDirectory_of_resolve (hleaves.plain.resolve_within hplain hwithin hk)
    (hwithin.directory _ he)

include hextension

/-- Preparing the destination again leads back to the tree before the modules were written, up to
modules that are left. No module is left if the system takes the paths of all. -/
theorem Course.prepare_again :
    ∃ report w events, Destination.prepare (fun _ => none) v s.destination s.clearRecursive =
        (.ok report, w, events) ∧ w.Plain ∧ Destination.Reverts u v w ∧
      ((∀ m ∈ r.modules { s.layout with directory := some directory } p start,
        checkText (s.destination.join m.fileName) = .ok ()) → w = u) := by
  obtain ⟨l, rfl, hresolve, hmade, hlocation, hleaves⟩ := h.destination ht
  obtain ⟨events, hprepare⟩ := h.prepared
  have hu := hleaves.plain
  obtain ⟨hv, hwithin⟩ := h.within hu
  have hnames := h.isName hextension
  have hnodup := r.nodup_fileNames { s.layout with directory := some l.path } p start
  obtain rfl := (congrArg Prod.snd h.written : _ = v)
  -- the destination is a directory, and all that is left in it will be left again
  have hdirectory := Destination.directory_left ht hprepare hresolve
  have hleft : ∀ name e, s.destination.Admits name → u.get? (l ++ [name]) = some e →
      e = .directory ∧ s.clearRecursive = false := fun _ _ =>
    Destination.of_entry_left ht hprepare hresolve
  obtain ⟨report, w, events', hagain, hw, hreverts, hkeep⟩ :=
    Destination.prepare_again hu hv hwithin hresolve hdirectory hleft
  refine ⟨report, w, events', hagain, hw, hreverts, fun hadmits => ?_⟩
  -- what is left where a module is placed would have to be a directory
  have hresolve' := hu.resolve_within hw (hreverts.within hu hnames hnodup) hresolve
  have hvalid := hu.isName_of_resolve hresolve
  refine hreverts.eq hu hnames hnodup hkeep fun m hm k hplace => ?_
  obtain ⟨rfl, hlength, hfree⟩ := Destination.of_place_path_eq_ok hu hnames hvalid hm hplace
  constructor
  · by_contra hpresent
    obtain ⟨e, he⟩ := Option.ne_none_iff_exists'.mp hpresent
    obtain ⟨rfl, -⟩ := hleft _ _ ⟨hadmits m hm, hlength⟩ he
    exact hfree he
  · by_contra hpresent
    obtain ⟨e, he⟩ := Option.ne_none_iff_exists'.mp hpresent
    obtain ⟨rfl, -⟩ := Destination.of_entry_left hv hagain hresolve' ⟨hadmits m hm, hlength⟩ he
    exact hfree ((hreverts.directory_iff hu hnames hnodup).mp he)

variable (hplain : ∀ c ∈ s.layout.extension.toList, Glob.IsPlain c)

include hplain

/-- A second run takes the course of the first one. -/
theorem Course.again :
    ∃ report w v', Course (fun _ => none) v s p start w source directory r
        { summary with cleared := report } v' ∧ v'.Alike v ∧
      ((∀ m ∈ r.modules { s.layout with directory := some directory } p start,
        checkText (s.destination.join m.fileName) = .ok ()) → w = u ∧ v' = v) := by
  obtain ⟨report, w, events, hprepare, hw, hreverts, heq⟩ := h.prepare_again ht hextension
  have hsource := h.isDirectory_again ht
  obtain ⟨l, rfl, hresolve, -, -, hleaves⟩ := h.destination ht
  have hu := hleaves.plain
  have hnames := h.isName hextension
  have hnodup := r.nodup_fileNames { s.layout with directory := some l.path } p start
  have hvalid := hu.isName_of_resolve hresolve
  obtain ⟨events', hfirst⟩ := h.prepared
  have hdirectory := Destination.directory_left ht hfirst hresolve
  obtain rfl := (congrArg Prod.snd h.written : _ = v)
  have hwithin := hreverts.within hu hnames hnodup
  obtain ⟨houtcomes, halike⟩ := hreverts.writeModules_again hu hdirectory hnames hnodup hw
  obtain ⟨hcanonical, hdestination⟩ := canonicalPaths_eq_ok_iff.mp h.paths
  obtain ⟨k, hk, rfl⟩ := canonical_eq_ok_iff.mp hcanonical
  obtain ⟨d, hd, hpath⟩ := canonical_eq_ok_iff.mp hdestination
  refine ⟨report, w, _, ⟨hsource, ⟨events, hprepare⟩, ?_, ?_, h.interfaces, ?_⟩, halike, ?_⟩
  · exact canonicalPaths_eq_ok_iff.mpr
      ⟨canonical_eq_ok_iff.mpr ⟨k, hu.resolve_within hw hwithin hk, rfl⟩,
        canonical_eq_ok_iff.mpr ⟨d, hu.resolve_within hw hwithin hd, hpath⟩⟩
  · -- no module is placed where a declaration may be
    refine Discovery.registry_congr hu (hu.isName_of_resolve hk) hw hextension hplain
      (fun here name hending => ?_) h.read
    refine (hreverts.get?_of_forall_ne hu hnames hnodup fun m hm hplace => ?_).symm
    obtain ⟨hsplit, -⟩ := Destination.of_place_path_eq_ok hu hnames hvalid hm hplace
    obtain ⟨-, hlast⟩ := List.append_inj' hsplit rfl
    cases hlast
    rw [(Registry.of_mem_modules hm).2] at hending
    exact Discovery.not_suffix_fileNameOf _ _ hending
  · have hfirst : _ = summary.outcomes := congrArg Prod.fst h.written
    exact Prod.ext (houtcomes.trans hfirst) rfl
  · intro hadmits
    rw [heq hadmits]
    exact ⟨rfl, rfl⟩

omit hplain

/-- Nothing that is found as a declaration is where a module was written. -/
theorem Course.resolve_ne_of_mem_files (hplain : ∀ c ∈ s.layout.extension.toList, Glob.IsPlain c)
    {o : Destination.Outcome} (ho : o ∈ summary.outcomes) (hresolve : v.resolve o.path = .ok l)
    {root found : Path} {files : List Path}
    (hfiles : Discovery.files v root s.layout.extension = .ok files) (hfound : found ∈ files) :
    v.resolve found ≠ .ok l := by
  intro hsame
  obtain ⟨d, rfl, hdestination, -, -, hleaves⟩ := h.destination ht
  have hu := hleaves.plain
  obtain ⟨hv, -⟩ := h.within hu
  have hwritten : o ∈ (Destination.writeModules d.path u
      (r.modules { s.layout with directory := some d.path } p start)).1 := by
    rw [h.written]
    exact ho
  obtain ⟨m, hm, hpath⟩ := Destination.path_of_mem_writeModules hwritten
  obtain ⟨-, hfile⟩ := Registry.of_mem_modules hm
  have hname := h.isName hextension m hm
  have hdirectory := hu.isName_of_resolve hdestination
  rw [hpath, Location.path_join hdirectory hname] at hresolve
  obtain rfl := hv.eq_of_resolve_path (isName_of_mem_concat hdirectory hname) hresolve
  -- its name would have the ending of a declaration file
  obtain ⟨other, name, hsplit, hsuffix⟩ :=
    Discovery.exists_suffix_of_mem_files hextension hplain hfiles hfound hv hsame
  obtain ⟨-, hlast⟩ := List.append_inj' hsplit rfl
  cases hlast
  rw [hfile] at hsuffix
  exact Discovery.not_suffix_fileNameOf _ _ hsuffix

end Course

/-- **Running again.** Whatever a plain tree holds and whatever the settings, the provider and its
states, if the extension holds no separator and no wildcards: after a run that succeeds, nothing that
is found as a declaration, below whatever source, is where a module was written. If it is run again,
it finds the same registry, writes the same modules with the same outcomes, and leaves a tree that
holds the same. If the system takes the paths of all modules by way of the destination, the trees are
the same in how they list it as well, after the run and after the clearing. -/
theorem run_again (ht : t.Plain) (hextension : '/' ∉ s.layout.extension.toList)
    (hplain : ∀ c ∈ s.layout.extension.toList, Glob.IsPlain c)
    (hresult : (run (fun _ => none) t s p start).result = .ok summary)
    (htree : (run (fun _ => none) t s p start).tree = v) :
    (∀ root files found, Discovery.files v root s.layout.extension = .ok files → found ∈ files →
      ∀ o ∈ summary.outcomes, ∀ l, v.resolve o.path = .ok l → v.resolve found ≠ .ok l) ∧
    ∃ u source directory r report u' v',
      Course (fun _ => none) t s p start u source directory r summary v ∧
      Course (fun _ => none) v s p start u' source directory r { summary with cleared := report } v' ∧
      (run (fun _ => none) v s p start).result = .ok { summary with cleared := report } ∧
      (run (fun _ => none) v s p start).tree = v' ∧ v'.Alike v ∧
      ((∀ m ∈ r.modules { s.layout with directory := some directory } p start,
        checkText (s.destination.join m.fileName) = .ok ()) → u' = u ∧ v' = v) := by
  obtain ⟨u, source, directory, r, h⟩ := run_eq_ok_iff.mp ⟨hresult, htree⟩
  obtain ⟨report, u', v', hagain, halike, heq⟩ := h.again ht hextension hplain
  refine ⟨fun root files found hfiles hfound o ho l hresolve =>
    h.resolve_ne_of_mem_files ht hextension hplain ho hresolve hfiles hfound, ?_⟩
  obtain ⟨hresult', htree'⟩ := run_eq_ok_iff.mpr ⟨u', source, directory, r, hagain⟩
  exact ⟨u, source, directory, r, report, u', v', h, hagain, hresult', htree', halike, heq⟩

/-- A destination inside the source, with a file to clear and a declaration deeper inside. -/
def inward : FileTree where
  entries := [(["src"], .directory), (["src", "out"], .directory),
    (["src", "out", "old.txt"], .file "old".toUTF8), (["src", "out", "deep"], .directory),
    (["src", "out", "deep", "A.interface.ts"], .file "export interface A \x7b\n\x7d\n".toUTF8)]

/-- A run into a destination inside the source. -/
def runInward (t : FileTree) : Run :=
  run (fun _ => none) t ⟨⟨"src"⟩, ⟨"src/out"⟩, {}, false⟩ (Script.provider {}) fun _ => {}

/-- The declaration survives and is found again, and the module is not taken for one. -/
theorem run_again_inward :
    inward.Plain ∧ '/' ∉ "ts".toList ∧ (∀ c ∈ "ts".toList, Glob.IsPlain c) ∧
      (runInward inward).result = .ok ⟨⟨1, 0⟩, 1, [⟨"A", ⟨"/src/out/A.stubs.ts"⟩, none⟩]⟩ ∧
      (∃ report, (runInward (runInward inward).tree).result =
        .ok ⟨report, 1, [⟨"A", ⟨"/src/out/A.stubs.ts"⟩, none⟩]⟩) ∧
      (runInward (runInward inward).tree).tree = (runInward inward).tree := by
  have hplain : inward.Plain := by decide
  have hextension : '/' ∉ "ts".toList := by decide
  have hcharacters : ∀ c ∈ "ts".toList, Glob.IsPlain c := by simp [Glob.IsPlain]
  have hresult : (runInward inward).result =
      .ok ⟨⟨1, 0⟩, 1, [⟨"A", ⟨"/src/out/A.stubs.ts"⟩, none⟩]⟩ := by decide +kernel
  obtain ⟨-, _, _, _, r, report, _, _, hcourse, -, hresult', htree, -, hsame⟩ :=
    run_again hplain hextension hcharacters hresult rfl
  refine ⟨hplain, hextension, hcharacters, hresult, ⟨report, hresult'⟩,
    htree.trans (hsame fun m hm => ?_).2⟩
  -- the only module is that of `A`
  obtain ⟨l, rfl, -, -, -, hleaves⟩ := hcourse.destination hplain
  have horder := (Delivery.of_writeModules hleaves.plain (hcourse.isName hextension)
    hcourse.interfaces hcourse.written).order
  obtain ⟨hinterface, hfile⟩ := Registry.of_mem_modules hm
  have hmem := List.mem_map_of_mem (f := fun name =>
    (name, l.path.join (MockModule.fileNameOf name "ts"))) hinterface
  rw [← horder, List.map_singleton, List.mem_singleton, Prod.mk.injEq] at hmem
  rw [hfile, hmem.1]
  show checkText ((Path.mk "src/out").join (MockModule.fileNameOf "A" "ts")) = .ok ()
  decide

end Generation

end Understudy
