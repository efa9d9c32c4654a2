import Understudy.Proofs.Preservation

/-!
# Understudy.Proofs.Writing

What writing files into one directory does to a tree, links elsewhere in it or not. Where a file is
written is known from three things: the text of its path, the directory that the path of the
directory leads to, and what stands there under the name of the file (`target_join`). A file that is
written changes neither the way to the directory (`keeps_put`) nor what stands under any other
name (`slot_set`).

So modules with file names of their own do not get into each other's way: what becomes of each is
settled by the tree before all of them, and they are put into it one after another
(`writeModules_eq`).
-/

namespace Understudy

open FileTree

namespace FileTree

variable {t u : FileTree} {l k : Location} {p : Path} {name other : String} {e : Entry}

/-! ### Where a file is written -/

/-- The path of a location is written to at the location. -/
theorem Plain.eq_of_target_path (ht : t.Plain) (hl : ∀ other ∈ l ++ [name], IsName other)
    (h : t.target (Location.path (l ++ [name])) = .ok k) : k = l ++ [name] := by
  obtain ⟨-, directory, last, before, rfl, -, -, -, -, hsegments, hleads⟩ := ht.of_target h
  rw [Location.segments_path (by simp) hl, ← List.cons_append] at hsegments
  obtain ⟨rfl, hlast⟩ := List.append_inj' hsegments rfl
  cases hlast
  rw [t.startOf_path] at hleads
  rw [hleads.of_empty.eq_append fun other hother => hl other (List.mem_append_left _ hother)]
  rfl

/-- The location of a file of a directory, if one can be written there under a name. -/
def slot (t : FileTree) (name : String) (l : Location) : Except Fault Location :=
  if maxNameBytes < name.utf8ByteSize then .error .nameTooLong
  else if t.get? (l ++ [name]) = some .directory then .error .isADirectory
  else .ok (l ++ [name])

/-- Whether a directory holds no links itself. -/
def Linkless (t : FileTree) (p : Path) : Prop :=
  ∀ l, t.directoryOf p = .ok l → ∀ name target, t.get? (l ++ [name]) ≠ some (.link target)

theorem Plain.linkless (ht : t.Plain) (p : Path) : t.Linkless p :=
  fun _ _ _ target => ht.get?_ne_link target

theorem place?_concat (t : FileTree) (p : Path) (hname : IsName name) :
    t.place? maxLinks (t.startOf p) (p.base ++ [name]) = t.directoryOf p >>= fun l =>
      if maxNameBytes < name.utf8ByteSize then .error .nameTooLong
      else .ok (some ⟨l, name, false⟩) := by
  obtain ⟨hempty, hdot, hup, -⟩ := hname
  have hkept : ((p.base ++ [name]).reverse.dropWhile (· = "")).reverse = p.base ++ [name] := by
    simp [hempty]
  unfold place? directoryOf
  simp only [hkept, List.getLast?_concat, List.dropLast_concat, hdot, hup, or_self, if_false,
    Nat.lt_irrefl, decide_false]
  cases t.walk true maxLinks (t.startOf p) p.base with
  | error fault => rfl
  | ok l =>
      simp only [bind, Except.bind]
      cases t.get? l with
      | none => rfl
      | some e => cases e <;> rfl

/-- A file of a directory without links is written into the directory under its name. -/
theorem target_join (hname : IsName name) (h : t.Linkless p) :
    t.target (p.join name) = checkText (p.join name) >>= fun _ =>
      t.directoryOf p >>= t.slot name := by
  unfold target
  rw [startOf_join t p hname.2.2.2, p.segments_join hname.2.2.2]
  cases checkText (p.join name) with
  | error fault => rfl
  | ok _ =>
      show t.fileLocation maxLinks (t.startOf p) (p.base ++ [name]) = t.directoryOf p >>= t.slot name
      unfold fileLocation
      rw [place?_concat t p hname]
      cases hdirectory : t.directoryOf p with
      | error fault => rfl
      | ok l =>
          have hlink := h l hdirectory name
          unfold slot
          simp only [bind, Except.bind]
          by_cases hlength : maxNameBytes < name.utf8ByteSize
          · rw [if_pos hlength, if_pos hlength]
          · rw [if_neg hlength, if_neg hlength]
            simp only [Place.location, Bool.false_eq_true, if_false]
            cases hentry : t.get? (l ++ [name]) with
            | none => rfl
            | some e =>
                cases e with
                | file bytes => rfl
                | directory => rfl
                | link target => exact absurd hentry (hlink target)

/-! ### What a written file does not change -/

theorem slot_eq_ok_iff :
    t.slot name l = .ok k ↔ name.utf8ByteSize ≤ maxNameBytes ∧
      t.get? (l ++ [name]) ≠ some .directory ∧ k = l ++ [name] := by
  unfold slot
  by_cases hlength : maxNameBytes < name.utf8ByteSize
  · rw [if_pos hlength]
    exact iff_of_false nofun fun h => absurd hlength (Nat.not_lt.mpr h.1)
  · rw [if_neg hlength]
    by_cases hfree : t.get? (l ++ [name]) = some .directory
    · rw [if_pos hfree]
      exact iff_of_false nofun fun h => h.2.1 hfree
    · rw [if_neg hfree]
      constructor
      · intro h
        cases h
        exact ⟨Nat.le_of_not_lt hlength, hfree, rfl⟩
      · intro h
        rw [h.2.2]

/-- A file that is written leaves what stands under another name. -/
theorem slot_set (hne : name ≠ other) :
    (t.set (l ++ [other]) e).slot name l = t.slot name l := by
  have hother : l ++ [name] ≠ l ++ [other] := by simpa using hne
  unfold slot
  rw [get?_set t (by simp), if_neg hother]

theorem filter_setEntry {keep : Location → Bool} (h : keep l = false)
    {entries : List (Location × Entry)} :
    (setEntry l e entries).filter (fun entry => keep entry.1) =
      entries.filter fun entry => keep entry.1 := by
  induction entries with
  | nil => simp [setEntry, h]
  | cons entry rest ih =>
      obtain ⟨k, old⟩ := entry
      by_cases hk : k = l
      · subst hk
        simp [setEntry, h]
      · simp [setEntry, hk, List.filter_cons, ih]

end FileTree

/-! ### Modules -/

namespace Destination

variable {t u v : FileTree} {directory : Path} {m other : MockModule} {ms : List MockModule}
  {k : Location}

/-- Where a module is written. -/
def place (directory : Path) (t : FileTree) (m : MockModule) : Except Fault Location :=
  t.target (directory.join m.fileName)

/-- Puts a module into a tree, where another tree says that it is written. -/
def put (directory : Path) (t u : FileTree) (m : MockModule) : FileTree :=
  match place directory t m with
  | .ok l => u.set l (.file m.content.toUTF8)
  | .error _ => u

theorem put_congr (h : place directory t m = place directory v m) (u : FileTree) :
    put directory t u m = put directory v u m := by
  unfold put
  rw [h]

theorem writeModule_eq (directory : Path) (t : FileTree) (m : MockModule) :
    writeModule directory t m =
      (match place directory t m with
        | .ok _ => ⟨m.interface, directory.join m.fileName, none⟩
        | .error fault => ⟨m.interface, directory.join m.fileName,
            some (.write (directory.join m.fileName) fault)⟩,
        put directory t t m) := by
  unfold writeModule put place
  simp only [writeText_eq]
  cases t.target (directory.join m.fileName) <;> rfl

/-- A module is written right in the directory, where no directory stands and no link. -/
theorem of_place_eq_ok (hname : IsName m.fileName) (hlinks : t.Linkless directory)
    (h : place directory t m = .ok k) :
    ∃ l, t.directoryOf directory = .ok l ∧ k = l ++ [m.fileName] ∧ t.get? k ≠ some .directory := by
  rw [place, target_join hname hlinks, bind_eq_ok_iff] at h
  obtain ⟨_, -, h⟩ := h
  obtain ⟨l, hdirectory, hslot⟩ := bind_eq_ok_iff.mp h
  obtain ⟨-, hfree, rfl⟩ := slot_eq_ok_iff.mp hslot
  exact ⟨l, hdirectory, rfl, hfree⟩

/-- A module that is put into a tree leaves its directories and its links. -/
theorem keeps_put (hname : IsName m.fileName) (hlinks : t.Linkless directory) (h : t.Keeps u) :
    t.Keeps (put directory t u m) := by
  unfold put
  cases hplace : place directory t m with
  | error fault => exact h
  | ok k =>
      obtain ⟨l, hdirectory, rfl, hfree⟩ := of_place_eq_ok hname hlinks hplace
      exact h.set (by simp) hfree (hlinks l hdirectory m.fileName) _

/-- A module that is put into a tree leaves the directory as it is, apart from its own file. -/
theorem linkless_put (hname : IsName m.fileName) (hlinks : t.Linkless directory) :
    (put directory t t m).Linkless directory := by
  have hkeeps := keeps_put hname hlinks (Keeps.refl t)
  unfold put at hkeeps ⊢
  cases hplace : place directory t m with
  | error fault => exact hlinks
  | ok k =>
      obtain ⟨l, hdirectory, rfl, hfree⟩ := of_place_eq_ok hname hlinks hplace
      intro l' hdirectory' name target
      simp only [hplace] at hkeeps
      rw [hkeeps.directoryOf hdirectory] at hdirectory'
      cases hdirectory'
      rw [get?_set t (by simp)]
      split
      · exact nofun
      · exact hlinks l hdirectory name target

/-- A module that is put into a tree does not change where another one is written. -/
theorem place_put (hname : IsName m.fileName) (hother : IsName other.fileName)
    (hne : other.fileName ≠ m.fileName) (hlinks : t.Linkless directory) :
    place directory (put directory t t m) other = place directory t other := by
  have hlinks' := linkless_put hname hlinks
  have hkeeps := keeps_put hname hlinks (Keeps.refl t)
  rw [place, place, target_join hother hlinks, target_join hother hlinks']
  unfold put at hkeeps ⊢
  cases hplace : place directory t m with
  | error fault => rfl
  | ok k =>
      obtain ⟨l, hdirectory, rfl, hfree⟩ := of_place_eq_ok hname hlinks hplace
      have hstep : directoryOf (t.set (l ++ [m.fileName]) (.file m.content.toUTF8)) directory >>=
          slot (t.set (l ++ [m.fileName]) (.file m.content.toUTF8)) other.fileName =
          t.directoryOf directory >>= t.slot other.fileName := by
        simp only [hplace] at hkeeps
        rw [hdirectory, hkeeps.directoryOf hdirectory]
        exact slot_set hne
      simp only [hstep]

/-- **Independent writes.** What becomes of modules with file names of their own is settled by the
tree before all of them. -/
theorem writeModules_eq (hnames : ∀ m ∈ ms, IsName m.fileName)
    (hnodup : (ms.map MockModule.fileName).Nodup) (hlinks : t.Linkless directory) :
    writeModules directory t ms =
      (ms.map fun m => (writeModule directory t m).1, ms.foldl (put directory t) t) := by
  induction ms generalizing t with
  | nil => rfl
  | cons m rest ih =>
      obtain ⟨hm, hrest⟩ := List.forall_mem_cons.mp hnames
      rw [List.map_cons, List.nodup_cons] at hnodup
      obtain ⟨hnew, hnodup⟩ := hnodup
      have hstep : (writeModule directory t m).2 = put directory t t m := by
        rw [writeModule_eq]
      -- the first module leaves the places of the others
      have hplace : ∀ other ∈ rest,
          place directory (put directory t t m) other = place directory t other := by
        intro other hother
        refine place_put hm (hrest other hother) ?_ hlinks
        intro heq
        exact hnew (heq ▸ List.mem_map_of_mem hother)
      have houtcomes : ∀ other ∈ rest, (writeModule directory (put directory t t m) other).1 =
          (writeModule directory t other).1 := by
        intro other hother
        simp only [writeModule_eq, hplace other hother]
      have hput : ∀ u, ∀ other ∈ rest,
          put directory (put directory t t m) u other = put directory t u other := by
        exact fun u other hother => put_congr (hplace other hother) u
      rw [writeModules_cons, hstep, ih hrest hnodup (linkless_put hm hlinks)]
      simp only [List.map_cons, List.foldl_cons, List.map_congr_left houtcomes]
      rw [List.foldl_ext _ _ _ fun u other hother => hput u other hother]

/-! ### The tree with the modules -/

/-- Modules are put into the directory only, each under its file name. -/
theorem get?_put (hname : IsName m.fileName) (hlinks : t.Linkless directory) (l : Location) :
    (put directory t u m).get? l =
      if place directory t m = .ok l then some (.file m.content.toUTF8) else u.get? l := by
  unfold put
  cases hplace : place directory t m with
  | error fault => rw [if_neg nofun]
  | ok k =>
      obtain ⟨d, -, rfl, -⟩ := of_place_eq_ok hname hlinks hplace
      rw [get?_set u (by simp)]
      simp only [Except.ok.injEq, eq_comm]

/-- Modules leave a location where none of them is placed. -/
theorem get?_foldl_put_of_forall_ne (hnames : ∀ m ∈ ms, IsName m.fileName)
    (hlinks : t.Linkless directory) {l : Location} (h : ∀ m ∈ ms, place directory t m ≠ .ok l) :
    (ms.foldl (put directory t) u).get? l = u.get? l := by
  induction ms generalizing u with
  | nil => rfl
  | cons m rest ih =>
      obtain ⟨hm, hrest⟩ := List.forall_mem_cons.mp hnames
      obtain ⟨hne, hothers⟩ := List.forall_mem_cons.mp h
      rw [List.foldl_cons, ih hrest hothers, get?_put hm hlinks, if_neg hne]

/-- Two modules are placed at one location under one name only. -/
theorem fileName_eq_of_place (hm : IsName m.fileName) (hother : IsName other.fileName)
    (hlinks : t.Linkless directory) (h : place directory t m = .ok k)
    (hsame : place directory t other = .ok k) : other.fileName = m.fileName := by
  obtain ⟨l, hdirectory, rfl, -⟩ := of_place_eq_ok hm hlinks h
  obtain ⟨l', hdirectory', hlocation, -⟩ := of_place_eq_ok hother hlinks hsame
  rw [hdirectory'] at hdirectory
  cases hdirectory
  simpa using hlocation.symm

/-- Leaving out the places of modules leaves out all that they have added. -/
theorem filter_foldl_put {keep : Location → Bool}
    (h : ∀ m ∈ ms, ∀ l, place directory t m = .ok l → keep l = false) :
    (ms.foldl (put directory t) u).entries.filter (fun entry => keep entry.1) =
      u.entries.filter fun entry => keep entry.1 := by
  induction ms generalizing u with
  | nil => rfl
  | cons m rest ih =>
      obtain ⟨hm, hrest⟩ := List.forall_mem_cons.mp h
      rw [List.foldl_cons, ih hrest]
      unfold put
      split
      · rename_i l hplace
        exact filter_setEntry (hm l hplace)
      · rfl

/-- Each module that has a place is there in the end. -/
theorem get?_foldl_put_of_mem (hnames : ∀ m ∈ ms, IsName m.fileName)
    (hnodup : (ms.map MockModule.fileName).Nodup) (hlinks : t.Linkless directory) (hm : m ∈ ms)
    (h : place directory t m = .ok k) :
    (ms.foldl (put directory t) u).get? k = some (.file m.content.toUTF8) := by
  induction ms generalizing u with
  | nil => cases hm
  | cons first rest ih =>
      obtain ⟨hfirst, hrest⟩ := List.forall_mem_cons.mp hnames
      rw [List.map_cons, List.nodup_cons] at hnodup
      obtain ⟨hnew, hnodup⟩ := hnodup
      rw [List.foldl_cons]
      rcases List.mem_cons.mp hm with rfl | hm
      · -- no later module takes its place
        rw [get?_foldl_put_of_forall_ne hrest hlinks, get?_put hfirst hlinks, if_pos h]
        intro other hother hsame
        have hnames := fileName_eq_of_place hfirst (hrest other hother) hlinks h hsame
        exact hnew (hnames ▸ List.mem_map_of_mem hother)
      · exact ih hrest hnodup hm

/-- Modules that are put into a tree leave its directories and its links. -/
theorem keeps_foldl_put (hnames : ∀ m ∈ ms, IsName m.fileName) (hlinks : t.Linkless directory)
    (h : t.Keeps u) : t.Keeps (ms.foldl (put directory t) u) := by
  induction ms generalizing u with
  | nil => exact h
  | cons m rest ih =>
      obtain ⟨hm, hrest⟩ := List.forall_mem_cons.mp hnames
      exact ih hrest (keeps_put hm hlinks h)

/-- The path of a module leads to its place, once there is a file. -/
theorem resolve_of_place (hname : IsName m.fileName) (hlinks : t.Linkless directory)
    (h : place directory t m = .ok k) (hu : t.Keeps u) {bytes : ByteArray}
    (hfile : u.get? k = some (.file bytes)) : u.resolve (directory.join m.fileName) = .ok k := by
  rw [place, target_join hname hlinks, bind_eq_ok_iff] at h
  obtain ⟨_, hcheck, h⟩ := h
  obtain ⟨l, hdirectory, hslot⟩ := bind_eq_ok_iff.mp h
  obtain ⟨hlength, -, rfl⟩ := slot_eq_ok_iff.mp hslot
  obtain ⟨hwalk, hl⟩ := directoryOf_eq_ok_iff.mp (hu.directoryOf hdirectory)
  rw [resolve, hcheck, startOf_join u directory hname.2.2.2, directory.segments_join hname.2.2.2]
  exact walk_append (fun _ => walkWith_name hname hl hlength hfile rfl) hwalk

end Destination

end Understudy
