import Mathlib.Data.List.Nodup
import Mathlib.Data.List.Perm.Subperm
import Understudy.Proofs.Entries

/-!
# Understudy.Proofs.Paths

**Which entries a path leads to.** An entry of a plain tree can be reached by its own path if the
system takes the path: if it holds no null character, and neither it nor a name in it is too long
(`Location.Walkable`). All else that is in a tree is there, but its path leads nowhere
(`Plain.find?_path_eq_some_iff`). What a directory stands in has a shorter path, and so it can be
reached as well (`Plain.isDirectory_path_of_append`).

In a tree that lists no location twice (`Distinct`), a directory has no name twice. No location of a
plain tree is deeper than there are entries (`Plain.length_le`).
-/

namespace Understudy

open FileTree

/-! ### Paths that the system takes -/

namespace Location

/-- What the system asks of the path of a location. -/
structure Walkable (l : Location) : Prop where
  noNull : '\x00' ∉ l.path.text.toList
  length : l.path.text.utf8ByteSize ≤ maxPathBytes
  names : ∀ name ∈ l, name.utf8ByteSize ≤ maxNameBytes

variable {l k : Location}

theorem checkText_path_iff : checkText l.path = .ok () ↔
    '\x00' ∉ l.path.text.toList ∧ l.path.text.utf8ByteSize ≤ maxPathBytes := by
  have hne : l.path.text ≠ "" := by simp [path]
  rw [checkText_eq_ok_iff, and_iff_right hne]

/-- The path of an entry starts with that of the directory. -/
theorem exists_text_path_append (l k : Location) :
    ∃ rest, (path (l ++ k)).text = l.path.text ++ rest := by
  by_cases hl : l = []
  · exact ⟨"/".intercalate k, by rw [hl]; rfl⟩
  · by_cases hk : k = []
    · exact ⟨"", by rw [hk, List.append_nil, String.append_empty]⟩
    · refine ⟨"/" ++ "/".intercalate k, ?_⟩
      simp only [path, String.intercalate_append_of_ne_nil hl hk, String.append_assoc]

theorem Walkable.of_append (h : Walkable (l ++ k)) : l.Walkable := by
  obtain ⟨rest, htext⟩ := exists_text_path_append l k
  obtain ⟨hnull, hlength, hnames⟩ := h
  rw [htext, String.toList_append] at hnull
  rw [htext, String.utf8ByteSize_append] at hlength
  exact ⟨fun h => hnull (List.mem_append_left _ h), Nat.le_of_add_right_le hlength,
    fun name hname => hnames name (List.mem_append_left _ hname)⟩

end Location

namespace FileTree

section Walkable

variable {t : FileTree} {here l : Location} {names : List String} {e : Entry}

/-- Short names lead to what stands under them. -/
theorem Plain.leads_names (ht : t.Plain) (hnames : ∀ name ∈ names, name.utf8ByteSize ≤ maxNameBytes)
    (h : t.get? (here ++ names) ≠ none) : t.Leads here names (here ++ names) := by
  induction names generalizing here with
  | nil =>
      rw [List.append_nil]
      exact .nil
  | cons name names ih =>
      obtain ⟨hname, hnames⟩ := List.forall_mem_cons.mp hnames
      obtain ⟨hempty, hdot, hdots, -⟩ : IsName name := ht.isName_of_mem h (by simp)
      have hhere := ht.rooted.get?_of_append_cons h
      rw [List.append_cons] at h ⊢
      exact .down hhere (not_or.mpr ⟨hempty, hdot⟩) hdots hname (ht.rooted.ne_none_of_append h)
        (ih hnames h)

/-- Only short names lead anywhere. -/
theorem Leads.utf8ByteSize_le (h : t.Leads here names l) (hnames : ∀ name ∈ names, IsName name) :
    ∀ name ∈ names, name.utf8ByteSize ≤ maxNameBytes := by
  induction names generalizing here with
  | nil => exact fun name hname => absurd hname List.not_mem_nil
  | cons name names ih =>
      obtain ⟨hname, hnames⟩ := List.forall_mem_cons.mp hnames
      obtain ⟨-, hlength, -, hrest⟩ := h.of_cons hname
      exact List.forall_mem_cons.mpr ⟨hlength, ih hrest hnames⟩

/-- The path of a location leads to it if anything stands there and the system takes the path. -/
theorem Plain.leads_path (ht : t.Plain) (hl : l.Walkable) (h : t.get? l ≠ none) :
    t.Leads (t.startOf l.path) l.path.segments l := by
  rw [t.startOf_path]
  have hnames : t.Leads [] l l := ht.leads_names hl.names h
  by_cases hne : l = []
  · subst hne
    have hsegments : (Location.path []).segments = ["", ""] := by decide
    rw [hsegments]
    exact .stay rfl (Or.inl rfl) (.stay rfl (Or.inl rfl) .nil)
  · rw [Location.segments_path hne fun name => ht.isName_of_mem h]
    exact .stay rfl (Or.inl rfl) hnames

theorem Plain.walkable_of_resolve_path (ht : t.Plain) (hl : ∀ name ∈ l, IsName name)
    (h : t.resolve l.path = .ok l) : l.Walkable := by
  obtain ⟨hcheck, hleads⟩ := ht.resolve_eq_ok_iff.mp h
  obtain ⟨hnull, hlength⟩ := Location.checkText_path_iff.mp hcheck
  refine ⟨hnull, hlength, ?_⟩
  by_cases hne : l = []
  · rw [hne]
    exact fun name hname => absurd hname List.not_mem_nil
  · rw [t.startOf_path, Location.segments_path hne hl] at hleads
    exact hleads.of_empty.utf8ByteSize_le hl

/-- What the path of a location leads to: what stands there, if the system takes the path. -/
theorem Plain.find?_path_eq_some_iff (ht : t.Plain) (hl : ∀ name ∈ l, IsName name) :
    t.find? l.path = some e ↔ t.get? l = some e ∧ l.Walkable := by
  rw [find?_eq_some_iff]
  constructor
  · rintro ⟨m, hresolve, he⟩
    obtain rfl := ht.eq_of_resolve_path hl hresolve
    exact ⟨he, ht.walkable_of_resolve_path hl hresolve⟩
  · rintro ⟨he, hwalkable⟩
    have hleads := ht.leads_path hwalkable (he.trans_ne (Option.some_ne_none e))
    have hcheck := Location.checkText_path_iff.mpr ⟨hwalkable.noNull, hwalkable.length⟩
    exact ⟨l, ht.resolve_eq_ok_iff.mpr ⟨hcheck, hleads⟩, he⟩

theorem Plain.isDirectory_path_iff (ht : t.Plain) (hl : ∀ name ∈ l, IsName name) :
    t.isDirectory l.path = true ↔ t.get? l = some .directory ∧ l.Walkable := by
  rw [isDirectory, decide_eq_true_eq, ht.find?_path_eq_some_iff hl]

theorem Plain.isFile_path_iff (ht : t.Plain) (hl : ∀ name ∈ l, IsName name) :
    t.isFile l.path = true ↔ (∃ bytes, t.get? l = some (.file bytes)) ∧ l.Walkable := by
  simp only [isFile_iff, ht.find?_path_eq_some_iff hl, exists_and_right]

/-- What a directory stands in are directories, and their paths are shorter. -/
theorem Plain.isDirectory_path_of_append (ht : t.Plain) (hl : ∀ name ∈ l ++ names, IsName name)
    (h : t.isDirectory (Location.path (l ++ names)) = true) : t.isDirectory l.path = true := by
  obtain ⟨hdirectory, hwalkable⟩ := (ht.isDirectory_path_iff hl).mp h
  refine (ht.isDirectory_path_iff fun name hname => hl name (List.mem_append_left _ hname)).mpr
    ⟨?_, hwalkable.of_append⟩
  cases names with
  | nil => rwa [List.append_nil] at hdirectory
  | cons name names => exact ht.rooted.get?_of_append_cons (hdirectory.trans_ne (Option.some_ne_none _))

theorem Plain.hasEntry_path (ht : t.Plain) (hl : l.Walkable) (h : t.get? l ≠ none) :
    t.hasEntry l.path = true := by
  have hwalk : t.walk false maxLinks (t.startOf l.path) l.path.segments = .ok l :=
    ht.walk_eq_ok_iff.mpr (ht.leads_path hl h)
  have hroot : t.get? (t.startOf l.path) = some .directory := by
    rw [startOf_path, get?_nil]
  have hresolve : t.resolveLink l.path = .ok l := by
    unfold resolveLink
    rw [Location.checkText_path_iff.mpr ⟨hl.noNull, hl.length⟩, ← hwalk]
    exact ht.rooted.walk_ascend hroot
  rw [hasEntry, hresolve]

end Walkable

/-! ### Trees that list no location twice -/

/-- No location is listed twice. -/
def Distinct (t : FileTree) : Prop := (t.entries.map Prod.fst).Nodup

instance (t : FileTree) : Decidable t.Distinct := inferInstanceAs (Decidable (List.Nodup _))

section Distinct

variable {t : FileTree} {l : Location}

/-- What is listed is what stands there. -/
theorem Distinct.get?_of_mem (ht : t.Distinct) {e : Entry} (hl : l ≠ []) (h : (l, e) ∈ t.entries) :
    t.get? l = some e := by
  obtain ⟨before, after, hsplit⟩ := List.append_of_mem h
  unfold Distinct at ht
  rw [hsplit, List.map_append, List.map_cons, List.nodup_middle] at ht
  have hbefore : ∀ entry ∈ before, l ≠ entry.1 := by
    intro entry hentry heq
    exact (List.nodup_cons.mp ht).1
      (List.mem_append_left _ (List.mem_map.mpr ⟨entry, hentry, heq.symm⟩))
  rw [get?_of_ne_nil t hl, List.lookup_eq_some_iff]
  exact ⟨before, after, hsplit, fun entry hentry => by simpa using hbefore entry hentry⟩

theorem Distinct.nodup_names (ht : t.Distinct) (l : Location) : (t.names l).Nodup := by
  have hnames : t.names l = (t.entries.map Prod.fst).filterMap l.childName? := by
    rw [List.filterMap_map]
    rfl
  rw [hnames]
  refine ht.filterMap fun k m name hk hm => ?_
  rw [childName?_eq_some_iff.mp hk, childName?_eq_some_iff.mp hm]

/-- A location has at most as many names as there are entries: all that it stands in is listed. -/
theorem Plain.length_le (ht : t.Plain) (h : t.get? l ≠ none) : l.length ≤ t.entries.length := by
  have hnodup : ((List.range l.length).map fun n => l.take (n + 1)).Nodup := by
    refine List.nodup_range.map_on fun m hm n hn heq => ?_
    have hlengths := congrArg List.length heq
    rw [List.mem_range] at hm hn
    rw [List.length_take, List.length_take] at hlengths
    omega
  have hlisted : ((List.range l.length).map fun n => l.take (n + 1)) ⊆ t.entries.map Prod.fst := by
    intro k hk
    obtain ⟨n, hn, rfl⟩ := List.mem_map.mp hk
    rw [← List.take_append_drop (n + 1) l] at h
    obtain ⟨e, he⟩ := Option.ne_none_iff_exists'.mp (ht.rooted.ne_none_of_append h)
    have hne : l.take (n + 1) ≠ [] := by
      rw [List.mem_range] at hn
      exact List.ne_nil_of_length_pos (by rw [List.length_take]; omega)
    exact List.mem_map_of_mem (f := Prod.fst) (mem_entries_of_get? hne he)
  simpa using (List.subperm_of_subset hnodup hlisted).length_le

end Distinct

end FileTree

end Understudy
