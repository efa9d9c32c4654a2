import Understudy.Proofs.Separation
import Understudy.Proofs.Ways

/-!
# Understudy.Proofs.Operations

What making directories and writing files do to a plain tree. Both need a `Place`, a name in a
directory that is there (`Plain.of_place?`); a new directory only adds to the tree
(`Plain.makeDirectories`), and a written file changes it at the location that the path leads to
afterwards and nowhere else (`Plain.of_writeText`). Where a directory was to be made there is one
afterwards (`Plain.directory_of_makeDirectories`), and where there is one nothing is made.

The path of a location leads back to it alone (`Plain.eq_of_resolve_path`), as its segments are the
names of the location (`segments_path`).
-/

namespace Understudy

open FileTree

/-! ### Paths of locations -/

namespace Location

theorem isAbsolute_path (l : Location) : l.path.isAbsolute = true := by
  simp [path, Path.isAbsolute]

theorem segments_path {l : Location} (hne : l ≠ []) (hl : ∀ name ∈ l, IsName name) :
    l.path.segments = "" :: l := by
  have htext : l.path.text = "/".intercalate ("" :: l) := by
    rw [String.intercalate_cons_of_ne_nil hne, String.empty_append]
    rfl
  rw [← Path.segments_intercalate (List.cons_ne_nil "" l), ← htext]
  intro segment hsegment
  rcases List.mem_cons.mp hsegment with rfl | hsegment
  · exact List.not_mem_nil
  · exact (hl segment hsegment).2.2.2

/-- A path ends in the last name of its location. -/
theorem exists_text_path (l : Location) (last : String) :
    ∃ start, (path (l ++ [last])).text = start ++ last := by
  obtain ⟨start, htext⟩ := exists_intercalate_concat "/" l last
  exact ⟨"/" ++ start, by rw [path, htext, String.append_assoc]⟩

/-- The path of an entry of a directory. -/
theorem path_join {l : Location} {name : String} (hl : ∀ other ∈ l, IsName other)
    (hname : IsName name) : l.path.join name = path (l ++ [name]) := by
  have hrelative : (Path.mk name).isAbsolute = false := by
    rw [Path.isAbsolute, beq_eq_false_iff_ne]
    exact fun h => hname.2.2.2 (List.mem_of_head? h)
  unfold Path.join
  rw [hrelative, if_neg Bool.false_ne_true]
  cases l using List.reverseRecOn with
  | nil =>
      rw [if_pos (by decide)]
      simp [path]
  | append_singleton l last =>
      obtain ⟨hempty, -, -, hslash⟩ := hl last (by simp)
      obtain ⟨c, hc⟩ : ∃ c, last.toList.getLast? = some c := by
        rw [← Option.isSome_iff_exists, List.getLast?_isSome]
        simpa using hempty
      -- the path of the directory does not end in a separator, so one is put in
      obtain ⟨start, htext⟩ := exists_text_path l last
      have hend : ¬((path (l ++ [last])).text = "" ∨
          (path (l ++ [last])).text.toList.getLast? = some '/') := by
        rw [htext, String.toList_append, List.getLast?_append, hc, Option.some_or]
        intro hend
        rcases hend with h | h
        · exact hempty (String.append_eq_empty_iff.mp h).2
        · rw [Option.some.inj h] at hc
          exact hslash (List.mem_of_getLast? hc)
      rw [if_neg hend]
      show Path.mk _ = Path.mk _
      rw [String.intercalate_append_of_ne_nil (by simp) (by simp), String.intercalate_singleton]
      simp only [path, String.append_assoc]

end Location

namespace FileTree

variable {t u : FileTree} {l m : Location} {p : Path}

theorem startOf_path (t : FileTree) (l : Location) : t.startOf l.path = [] := by
  unfold startOf
  rw [l.isAbsolute_path, if_pos rfl]

/-- The path of a location leads nowhere else. -/
theorem Plain.eq_of_resolve_path (ht : t.Plain) (hl : ∀ name ∈ l, IsName name)
    (h : t.resolve l.path = .ok m) : m = l := by
  obtain ⟨-, hleads⟩ := ht.resolve_eq_ok_iff.mp h
  rw [t.startOf_path] at hleads
  by_cases hne : l = []
  · subst hne
    have hsegments : (Location.path []).segments = ["", ""] := by decide
    rw [hsegments] at hleads
    exact hleads.of_empty.of_empty.eq_append (by simp)
  · rw [Location.segments_path hne hl] at hleads
    exact hleads.of_empty.eq_append hl

/-- A canonical path is the path of the location that the given one leads to. -/
theorem canonical_eq_ok_iff {q : Path} :
    t.canonical p = .ok q ↔ ∃ l, t.resolve p = .ok l ∧ q = l.path := by
  unfold canonical
  rw [bind_eq_ok_iff]
  refine exists_congr fun l => and_congr_right fun _ => ?_
  constructor
  · intro h
    cases h
    rfl
  · intro heq
    rw [heq]
    rfl

/-! ### Places -/

/-- Segments end in the last one that is not empty, and then empty ones. -/
theorem of_dropWhile_empty {segments before : List String} {name : String}
    (h : (segments.reverse.dropWhile (· = "")).reverse = before ++ [name]) :
    name ≠ "" ∧ ∃ ends, segments = before ++ name :: ends ∧ ∀ segment ∈ ends, segment = "" := by
  have hreverse : segments.reverse.dropWhile (· = "") = name :: before.reverse := by
    rw [← List.reverse_inj, h]
    simp
  have hhead := List.head?_dropWhile_not (· = "") segments.reverse
  rw [hreverse] at hhead
  refine ⟨by simpa using hhead, (segments.reverse.takeWhile (· = "")).reverse, ?_, ?_⟩
  · have hsplit := List.takeWhile_append_dropWhile (p := (· = "")) (l := segments.reverse)
    rw [hreverse, ← List.reverse_inj] at hsplit
    simpa using hsplit.symm
  · intro segment hsegment
    have hempty := List.all_eq_true.mp List.all_takeWhile segment (List.mem_reverse.mp hsegment)
    exact of_decide_eq_true hempty

/-- A place is a name in a directory. The path ends in the name, or in separators behind it. -/
theorem Plain.of_place? (ht : t.Plain) {links : Nat} {start : Location} {place : Place}
    (h : t.place? links start p.segments = .ok (some place)) :
    t.get? place.directory = some .directory ∧ IsName place.name ∧
      place.name.utf8ByteSize ≤ maxNameBytes ∧
      ∃ before ends, p.segments = before ++ place.name :: ends ∧
        (∀ segment ∈ ends, segment = "") ∧ t.Leads start before place.directory ∧
        (place.slash = false → ends = []) := by
  unfold place? at h
  generalize hkept : (p.segments.reverse.dropWhile (· = "")).reverse = kept at h
  cases hlast : kept.getLast? with
  | none => simp [hlast] at h
  | some name =>
      obtain ⟨before, rfl⟩ := List.getLast?_eq_some_iff.mp hlast
      obtain ⟨hempty, ends, hsegments, hends⟩ := of_dropWhile_empty hkept
      simp only [hlast, List.dropLast_concat, bind_eq_ok_iff] at h
      obtain ⟨directory, hwalk, h⟩ := h
      split at h
      · rename_i hdirectory
        split at h
        · cases h
        · rename_i hdots
          split at h
          · cases h
          · rename_i hlength
            cases h
            obtain ⟨hdot, hup⟩ := not_or.mp hdots
            have hmem : name ∈ p.segments := by
              rw [hsegments]
              exact List.mem_append_right _ List.mem_cons_self
            refine ⟨hdirectory, ⟨hempty, hdot, hup, Path.not_mem_of_mem_segments hmem⟩,
              Nat.le_of_not_lt hlength, before, ends, hsegments, hends,
              ht.walk_eq_ok_iff.mp hwalk, fun hend => ?_⟩
            have hlengths := Nat.le_of_not_lt (of_decide_eq_false hend)
            rw [hsegments] at hlengths
            simpa using hlengths
      · cases h
      · cases h

theorem Place.location_ne_nil (place : Place) : place.location ≠ [] := by
  simp [Place.location]

theorem Plain.of_freePlace (ht : t.Plain) {place : Place} (h : t.freePlace p = .ok place) :
    t.get? place.directory = some .directory ∧ IsName place.name ∧
      t.get? place.location = none ∧
      ∃ before ends, p.segments = before ++ place.name :: ends ∧
        (∀ segment ∈ ends, segment = "") ∧ t.Leads (t.startOf p) before place.directory := by
  unfold freePlace at h
  simp only [bind_eq_ok_iff] at h
  obtain ⟨_, -, found, hplace, h⟩ := h
  split at h
  · cases h
  · obtain ⟨hdirectory, hname, -, before, ends, hsegments, hends, hleads, -⟩ := ht.of_place? hplace
    split at h
    · cases h
    · rename_i hfree
      cases h
      exact ⟨hdirectory, hname, hfree, before, ends, hsegments, hends, hleads⟩

/-! ### Making directories -/

theorem Plain.of_makeDirectory (ht : t.Plain) (h : t.makeDirectory p = .ok u) :
    u.Plain ∧ t.PartOf u := by
  unfold makeDirectory at h
  obtain ⟨place, hplace, h⟩ := bind_eq_ok_iff.mp h
  cases h
  obtain ⟨hdirectory, hname, hfree, -⟩ := ht.of_freePlace hplace
  have hnew : t.get? place.location ≠ some .directory := by
    rw [hfree]
    exact nofun
  exact ⟨ht.set hdirectory hname hnew rfl, partOf_set place.location_ne_nil hfree⟩

theorem Plain.makeFirst (ht : t.Plain) (paths : List Path) :
    (t.makeFirst paths).2.Plain ∧ t.PartOf (t.makeFirst paths).2 := by
  induction paths generalizing t with
  | nil => exact ⟨ht, PartOf.refl t⟩
  | cons p above ih =>
      unfold FileTree.makeFirst
      split
      · rename_i made hmade
        exact ht.of_makeDirectory hmade
      · have habove := ih ht
        split
        · rename_i fault u hu
          rwa [hu] at habove
        · rename_i u hu
          rw [hu] at habove
          obtain ⟨hplain, hpart⟩ := habove
          split
          · rename_i made hmade
            obtain ⟨hplain', hpart'⟩ := hplain.of_makeDirectory hmade
            exact ⟨hplain', hpart.trans hpart'⟩
          · exact ⟨hplain, hpart⟩
      · exact ⟨ht, PartOf.refl t⟩

/-- Making a directory and those above it leaves all that was there in its place, even if it fails. -/
theorem Plain.makeDirectories (ht : t.Plain) (p : Path) :
    (t.makeDirectories p).2.Plain ∧ t.PartOf (t.makeDirectories p).2 := by
  unfold FileTree.makeDirectories
  split
  · exact ⟨ht, PartOf.refl t⟩
  · exact ht.makeFirst _

/-! ### Directories that are there -/

/-- There is no free place where a path leads somewhere. -/
theorem freePlace_of_resolve (h : t.resolve p = .ok l) : t.freePlace p = .error .alreadyExists := by
  obtain ⟨_, hcheck, hwalk⟩ := bind_eq_ok_iff.mp h
  unfold freePlace place?
  rw [hcheck]
  generalize hkept : (p.segments.reverse.dropWhile (· = "")).reverse = kept
  cases hlast : kept.getLast? with
  | none => simp only [hlast, bind, Except.bind]
  | some name =>
      obtain ⟨before, rfl⟩ := List.getLast?_eq_some_iff.mp hlast
      obtain ⟨hempty, ends, hsegments, -⟩ := of_dropWhile_empty hkept
      have hslash : '/' ∉ name.toList := by
        refine Path.not_mem_of_mem_segments (p := p) ?_
        rw [hsegments]
        exact List.mem_append_right _ List.mem_cons_self
      rw [hsegments] at hwalk
      obtain ⟨directory, _, hbefore, hrest⟩ := exists_of_walk_append hwalk
      have hdirectory := directory_of_walkWith_cons hrest
      simp only [hlast, List.dropLast_concat, bind, Except.bind, hbefore, hdirectory]
      by_cases hdots : name = "." ∨ name = ".."
      · simp only [if_pos hdots]
      · obtain ⟨hdot, hup⟩ := not_or.mp hdots
        obtain ⟨hlength, hpresent⟩ := of_walkWith_name ⟨hempty, hdot, hup, hslash⟩ hrest
        obtain ⟨e, he⟩ := Option.ne_none_iff_exists'.mp hpresent
        simp only [if_neg hdots, if_neg (Nat.not_lt.mpr hlength), Place.location, he]

/-- Nothing is made where there is a directory already. -/
theorem makeDirectories_of_isDirectory (h : t.isDirectory p = true) :
    t.makeDirectories p = (.ok (), t) := by
  obtain ⟨l, hresolve, -⟩ := exists_of_isDirectory h
  have hthere : t.makeDirectory p = .error .alreadyExists := by
    unfold FileTree.makeDirectory
    rw [freePlace_of_resolve hresolve]
    rfl
  unfold FileTree.makeDirectories
  split
  · rfl
  · unfold FileTree.makeFirst
    simp only [hthere, if_pos h]

/-- A directory that is made is where its path leads to. -/
theorem Plain.directory_of_makeDirectory (ht : t.Plain) (hmade : t.makeDirectory p = .ok u)
    (h : u.resolve p = .ok l) : u.get? l = some .directory := by
  obtain ⟨hplain, hpart⟩ := ht.of_makeDirectory hmade
  unfold FileTree.makeDirectory at hmade
  obtain ⟨place, hplace, hset⟩ := bind_eq_ok_iff.mp hmade
  obtain ⟨-, hname, -, before, ends, hsegments, hends, hbefore⟩ := ht.of_freePlace hplace
  obtain ⟨-, hleads⟩ := hplain.resolve_eq_ok_iff.mp h
  rw [hsegments] at hleads
  obtain ⟨directory, hsame, hrest⟩ := hleads.of_append
  rw [startOf_eq hpart.workDir] at hbefore
  obtain rfl := hplain.leads_unique hsame (hbefore.within hpart.within)
  obtain ⟨-, -, -, hstays⟩ := hrest.of_cons hname
  obtain rfl := hstays.eq_of_stays fun segment hsegment => Or.inl (hends segment hsegment)
  cases hset
  exact (get?_set t place.location_ne_nil _ _).trans (if_pos rfl)

theorem of_part?_eq_none {segment : String} (h : Path.part? segment = none) :
    segment = "" ∨ segment = "." := by
  unfold Path.part? at h
  split at h
  · assumption
  · split at h <;> cases h

/-- A path without names leads to a directory, if anywhere. -/
theorem Plain.directory_of_parts (ht : t.Plain) (hparts : p.parts = [] ∨ p.parts = [.root])
    (h : t.resolve p = .ok l) : t.get? l = some .directory := by
  have hnone : p.segments.filterMap Path.part? = [] := by
    unfold Path.parts at hparts
    split at hparts
    · simpa using hparts
    · split at hparts
      · simp at hparts
      · refine hparts.resolve_right fun hroot => ?_
        have hmem : Path.Part.root ∈ p.segments.filterMap Path.part? := by
          rw [hroot]
          exact List.mem_singleton_self _
        obtain ⟨segment, -, hsegment⟩ := List.mem_filterMap.mp hmem
        unfold Path.part? at hsegment
        split at hsegment
        · cases hsegment
        · split at hsegment <;> cases hsegment
  have hstays : ∀ segment ∈ p.segments, segment = "" ∨ segment = "." := fun segment hsegment =>
    of_part?_eq_none (List.filterMap_eq_nil_iff.mp hnone segment hsegment)
  obtain ⟨-, hleads⟩ := ht.resolve_eq_ok_iff.mp h
  obtain rfl := hleads.eq_of_stays hstays
  refine hleads.directory_of_ne_nil ?_
  unfold Path.segments
  simp

theorem Plain.directory_of_makeFirst (ht : t.Plain) {above : List Path}
    (hmade : t.makeFirst (p :: above) = (.ok (), u)) (h : u.resolve p = .ok l) :
    u.get? l = some .directory := by
  -- where the directory cannot be made, the path has to lead to one
  have hthere : ∀ {v : FileTree} {fault : Fault},
      ((if v.isDirectory p then .ok () else .error fault : Except Fault Unit), v) = (.ok (), u) →
      u.get? l = some .directory := by
    intro v fault hpair
    obtain ⟨hok, rfl⟩ := Prod.mk.inj hpair
    split at hok
    · rename_i hdirectory
      obtain ⟨k, hk, hget⟩ := exists_of_isDirectory hdirectory
      rw [h] at hk
      cases hk
      exact hget
    · cases hok
  unfold FileTree.makeFirst at hmade
  split at hmade
  · rename_i made hstep
    cases hmade
    exact ht.directory_of_makeDirectory hstep h
  · obtain ⟨hplain, -⟩ := ht.makeFirst above
    split at hmade
    · cases hmade
    · rename_i v hv
      rw [hv] at hplain
      split at hmade
      · rename_i made hstep
        cases hmade
        exact hplain.directory_of_makeDirectory hstep h
      · exact hthere hmade
  · exact hthere hmade

/-- Where a directory was made or was there already, the path leads to a directory. -/
theorem Plain.directory_of_makeDirectories (ht : t.Plain)
    (hmade : t.makeDirectories p = (.ok (), u)) (h : u.resolve p = .ok l) :
    u.get? l = some .directory := by
  unfold FileTree.makeDirectories at hmade
  split at hmade
  · rename_i hparts
    cases hmade
    exact ht.directory_of_parts hparts h
  · exact ht.directory_of_makeFirst hmade h

/-! ### Writing files -/

/-- The location to which a file is written that a path leads to. -/
def target (t : FileTree) (p : Path) : Except Fault Location := do
  checkText p
  t.fileLocation maxLinks (t.startOf p) p.segments

theorem writeText_eq (t : FileTree) (p : Path) (text : String) :
    t.writeText p text = t.target p >>= fun l => .ok (t.set l (.file text.toUTF8)) := by
  unfold writeText writeBytes target
  cases checkText p with
  | error fault => rfl
  | ok _ => rfl

theorem Plain.of_fileLocation (ht : t.Plain) {links : Nat} {start : Location}
    (h : t.fileLocation links start p.segments = .ok l) :
    ∃ directory name before, l = directory ++ [name] ∧ t.get? directory = some .directory ∧
      IsName name ∧ name.utf8ByteSize ≤ maxNameBytes ∧ t.get? l ≠ some .directory ∧
      p.segments = before ++ [name] ∧ t.Leads start before directory := by
  unfold fileLocation at h
  obtain ⟨found, hplace, h⟩ := bind_eq_ok_iff.mp h
  split at h
  · cases h
  · rename_i place
    obtain ⟨hdirectory, hname, hlength, hsegments⟩ := ht.of_place? hplace
    split at h
    · cases h
    · rename_i hslash
      obtain ⟨before, ends, hbefore, -, hleads, hends⟩ := hsegments
      rw [hends (Bool.eq_false_iff.mpr hslash)] at hbefore
      have hfree : l = place.location ∧ t.get? place.location ≠ some .directory := by
        split at h
        · rename_i hentry
          cases h
          exact ⟨rfl, by rw [hentry]; exact nofun⟩
        · rename_i hentry
          cases h
          exact ⟨rfl, by rw [hentry]; exact nofun⟩
        · cases h
        · rename_i target hlink
          exact absurd hlink (ht.get?_ne_link target)
      obtain ⟨rfl, hfree⟩ := hfree
      exact ⟨_, _, before, rfl, hdirectory, hname, hlength, hfree, hbefore, hleads⟩

/-- A file is written into a directory that is there, not in the place of a directory, and under the
name in which its path ends. -/
theorem Plain.of_target (ht : t.Plain) (h : t.target p = .ok l) :
    checkText p = .ok () ∧ ∃ directory name before, l = directory ++ [name] ∧
      t.get? directory = some .directory ∧ IsName name ∧ name.utf8ByteSize ≤ maxNameBytes ∧
      t.get? l ≠ some .directory ∧ p.segments = before ++ [name] ∧
      t.Leads (t.startOf p) before directory := by
  unfold target at h
  obtain ⟨_, hcheck, hlocation⟩ := bind_eq_ok_iff.mp h
  exact ⟨hcheck, ht.of_fileLocation hlocation⟩

/-- Where a file is written, its path leads to from then on. -/
theorem Plain.resolve_of_target (ht : t.Plain) (hu : u.Plain) (htu : t.Within u)
    (h : t.target p = .ok l) (hl : u.get? l ≠ none) : u.resolve p = .ok l := by
  obtain ⟨hcheck, directory, name, before, rfl, hdirectory, ⟨hempty, hdot, hup, -⟩, hlength, -,
    hsegments, hleads⟩ := ht.of_target h
  rw [startOf_eq htu.workDir] at hleads
  rw [hu.resolve_eq_ok_iff, hsegments]
  exact ⟨hcheck, (hleads.within htu).append (.down (htu.directory _ hdirectory)
    (not_or.mpr ⟨hempty, hdot⟩) hup hlength hl .nil)⟩

/-- Writing a file changes what stands at one location, which is not a directory and is where the
path leads to from then on. -/
theorem Plain.of_writeText (ht : t.Plain) {text : String} (h : t.writeText p text = .ok u) :
    ∃ l, l ≠ [] ∧ t.get? l ≠ some .directory ∧ u = t.set l (.file text.toUTF8) ∧ u.Plain ∧
      u.resolve p = .ok l := by
  rw [writeText_eq] at h
  obtain ⟨l, htarget, h⟩ := bind_eq_ok_iff.mp h
  cases h
  obtain ⟨-, directory, name, before, rfl, hdirectory, hname, -, hfree, -, -⟩ := ht.of_target htarget
  have hne : directory ++ [name] ≠ [] := by simp
  have hplain := ht.set hdirectory hname hfree (e := .file text.toUTF8) rfl
  have hwithin : t.Within (t.set (directory ++ [name]) (.file text.toUTF8)) := within_set hne hfree
  refine ⟨_, hne, hfree, rfl, hplain, ht.resolve_of_target hplain hwithin htarget ?_⟩
  rw [get?_set t hne, if_pos rfl]
  exact Option.some_ne_none _

end FileTree

end Understudy
