import Mathlib.Data.List.Induction
import Understudy.FileTree.Operations

/-!
# Understudy.Proofs.FileTree

**Plain** file trees: directories and files without links, every entry in a directory and under a
name that it can have. Changing a plain tree by paths leaves it plain.

Without links the way of a path is known from its segments alone, and it only depends on which
entries there are and which of them are directories (`Leads`, `Leads.within`). So a path that leads
somewhere leads there in every tree that holds at least as much, and two canonical paths never lead
to one place. The way to a directory even depends on the directories alone (`Leads.of_directories`).
-/

namespace Understudy

/-- What comes of two steps is what comes of the second one, if nothing goes wrong in the first. -/
theorem bind_eq_ok_iff {ε α β : Type} {x : Except ε α} {f : α → Except ε β} {b : β} :
    x >>= f = .ok b ↔ ∃ a, x = .ok a ∧ f a = .ok b := by
  cases x with
  | error e =>
      constructor
      · intro h
        cases h
      · intro hsteps
        obtain ⟨a, h, -⟩ := hsteps
        cases h
  | ok a =>
      constructor
      · intro h
        exact ⟨a, rfl, h⟩
      · intro hsteps
        obtain ⟨_, h, hf⟩ := hsteps
        cases h
        exact hf

namespace FileTree

/-! ### Rooted trees -/

theorem mem_entries_of_get? {t : FileTree} {l : Location} {e : Entry} (hl : l ≠ [])
    (h : t.get? l = some e) : (l, e) ∈ t.entries := by
  rw [get?_of_ne_nil t hl, List.lookup_eq_some_iff] at h
  obtain ⟨before, after, hsplit, -⟩ := h
  rw [hsplit]
  exact List.mem_append_right _ List.mem_cons_self

theorem get?_ne_none_of_mem {t : FileTree} {l : Location} {e : Entry} (h : (l, e) ∈ t.entries) :
    t.get? l ≠ none := by
  cases l with
  | nil => exact Option.some_ne_none _
  | cons name rest =>
      rw [get?_of_ne_nil t (List.cons_ne_nil name rest), ← Option.isSome_iff_ne_none,
        List.lookup_isSome_iff]
      exact ⟨_, h, by simp⟩

/-- Every entry stands in a directory. -/
def Rooted (t : FileTree) : Prop := ∀ entry ∈ t.entries, t.get? entry.1.dropLast = some .directory

instance (t : FileTree) : Decidable t.Rooted :=
  inferInstanceAs (Decidable (∀ entry ∈ t.entries, _))

section Rooted

variable {t : FileTree} {l : Location}

/-- What stands in another entry stands in a directory. -/
theorem Rooted.get?_of_append_ne_none (ht : t.Rooted) {name : String}
    (h : t.get? (l ++ [name]) ≠ none) : t.get? l = some .directory := by
  obtain ⟨e, he⟩ := Option.ne_none_iff_exists'.mp h
  have hentry := ht _ (mem_entries_of_get? (by simp) he)
  rwa [List.dropLast_concat] at hentry

/-- All that an entry stands in is there. -/
theorem Rooted.ne_none_of_append (ht : t.Rooted) {k : List String} (h : t.get? (l ++ k) ≠ none) :
    t.get? l ≠ none := by
  induction k using List.reverseRecOn with
  | nil => rwa [List.append_nil] at h
  | append_singleton k name ih =>
      rw [← List.append_assoc] at h
      exact ih (by rw [ht.get?_of_append_ne_none h]; exact Option.some_ne_none _)

/-- Only directories hold other entries. -/
theorem Rooted.get?_of_append_cons (ht : t.Rooted) {name : String} {k : List String}
    (h : t.get? (l ++ name :: k) ≠ none) : t.get? l = some .directory := by
  rw [List.append_cons] at h
  exact ht.get?_of_append_ne_none (ht.ne_none_of_append h)

theorem Rooted.get?_dropLast (ht : t.Rooted) (h : t.get? l = some .directory) :
    t.get? l.dropLast = some .directory := by
  cases l using List.reverseRecOn with
  | nil => rfl
  | append_singleton l name =>
      rw [List.dropLast_concat]
      exact ht.get?_of_append_ne_none (by rw [h]; exact Option.some_ne_none _)

end Rooted

/-! ### Plain trees -/

/-- A name that an entry can have. -/
def IsName (name : String) : Prop :=
  name ≠ "" ∧ name ≠ "." ∧ name ≠ ".." ∧ '/' ∉ name.toList

instance (name : String) : Decidable (IsName name) := inferInstanceAs (Decidable (_ ∧ _))

/-- Only short texts stand for the directory itself or for the one above. -/
theorem isName_of_length {name : String} (hlength : 2 < name.toList.length)
    (hslash : '/' ∉ name.toList) : IsName name := by
  refine ⟨?_, ?_, ?_, hslash⟩
  all_goals
    intro h
    rw [h] at hlength
    exact absurd hlength (by decide)

theorem isName_of_mem_concat {l : Location} {last : String} (hl : ∀ name ∈ l, IsName name)
    (hlast : IsName last) : ∀ name ∈ l ++ [last], IsName name := by
  intro name hname
  rcases List.mem_append.mp hname with hname | hname
  · exact hl name hname
  · rwa [List.mem_singleton.mp hname]

end FileTree

def Entry.isLink : Entry → Bool
  | link _ => true
  | _ => false

namespace FileTree

/-- Every entry is a directory or a file, stands in a directory and has a name of its own there. -/
def Plain (t : FileTree) : Prop :=
  ∀ entry ∈ t.entries, entry.2.isLink = false ∧ t.get? entry.1.dropLast = some .directory ∧
    ∀ name ∈ entry.1, IsName name

instance (t : FileTree) : Decidable t.Plain :=
  inferInstanceAs (Decidable (∀ entry ∈ t.entries, _ ∧ _ ∧ ∀ name ∈ entry.1, IsName name))

section Plain

variable {t : FileTree} {l : Location}

theorem Plain.isLink_get? (ht : t.Plain) {e : Entry} (h : t.get? l = some e) : e.isLink = false := by
  by_cases hl : l = []
  · subst hl
    cases h
    rfl
  · exact (ht _ (mem_entries_of_get? hl h)).1

theorem Plain.get?_ne_link (ht : t.Plain) (target : String) : t.get? l ≠ some (.link target) := by
  intro h
  have hlink := ht.isLink_get? h
  contradiction

theorem Plain.rooted (ht : t.Plain) : t.Rooted := fun entry hentry => (ht entry hentry).2.1

/-- Every entry has a name that an entry can have, and stands in directories that have. -/
def Named (t : FileTree) : Prop := ∀ entry ∈ t.entries, ∀ name ∈ entry.1, IsName name

instance (t : FileTree) : Decidable t.Named :=
  inferInstanceAs (Decidable (∀ entry ∈ t.entries, ∀ name ∈ entry.1, IsName name))

theorem Plain.named (ht : t.Plain) : t.Named := fun entry hentry => (ht entry hentry).2.2

theorem Plain.isName_of_mem (ht : t.Plain) (h : t.get? l ≠ none) {name : String} (hn : name ∈ l) :
    IsName name := by
  obtain ⟨e, he⟩ := Option.ne_none_iff_exists'.mp h
  exact (ht _ (mem_entries_of_get? (List.ne_nil_of_mem hn) he)).2.2 name hn

end Plain

/-! ### Changes -/

section Changes

variable {t u : FileTree} {l k : Location} {e : Entry}

theorem lookup_filter_key (entries : List (Location × Entry)) (keep : Location → Bool) :
    (entries.filter fun entry => keep entry.1).lookup l =
      if keep l then entries.lookup l else none := by
  induction entries with
  | nil => simp
  | cons entry rest ih =>
      obtain ⟨k, e⟩ := entry
      by_cases hk : keep k = true
      · rw [List.filter_cons, if_pos hk, List.lookup_cons, List.lookup_cons, ih]
        by_cases hl : l = k
        · simp [hl, hk]
        · simp [beq_eq_false_iff_ne.mpr hl]
      · rw [List.filter_cons, if_neg hk, ih, List.lookup_cons]
        by_cases hl : l = k
        · simp [hl, hk]
        · simp [beq_eq_false_iff_ne.mpr hl]

/-- Erasing takes away what stands at a location and below it. -/
theorem get?_erase (hl : l ≠ []) : (t.erase l).get? k = if l <+: k then none else t.get? k := by
  by_cases hk : k = []
  · subst hk
    simp [hl]
  · rw [get?_of_ne_nil _ hk, get?_of_ne_nil _ hk]
    show (t.entries.filter fun entry => !l.isPrefixOf entry.1).lookup k = _
    rw [lookup_filter_key _ fun k => !l.isPrefixOf k]
    by_cases h : l <+: k
    · rw [if_pos h, List.isPrefixOf_iff_prefix.mpr h]
      rfl
    · have hbelow : l.isPrefixOf k = false := by
        rw [← Bool.not_eq_true, List.isPrefixOf_iff_prefix]
        exact h
      rw [if_neg h, hbelow]
      rfl

/-- Emptying takes away what stands below a location. -/
theorem get?_empty : (t.empty l).get? k = if l <+: k ∧ k ≠ l then none else t.get? k := by
  by_cases hk : k = []
  · subst hk
    simp [eq_comm]
  · rw [get?_of_ne_nil _ hk, get?_of_ne_nil _ hk]
    show (t.entries.filter fun entry => !(l.isPrefixOf entry.1 && entry.1 != l)).lookup k = _
    rw [lookup_filter_key _ fun k => !(l.isPrefixOf k && k != l)]
    have hbelow : (l.isPrefixOf k && k != l) = decide (l <+: k ∧ k ≠ l) := by
      rw [Bool.decide_and, ← Bool.decide_coe (l.isPrefixOf k)]
      simp only [List.isPrefixOf_iff_prefix, bne, ne_eq, decide_not, Bool.beq_eq_decide_eq]
    rw [hbelow]
    by_cases h : l <+: k ∧ k ≠ l
    · rw [if_pos h, decide_eq_true h]
      rfl
    · rw [if_neg h, decide_eq_false h]
      rfl

/-- An emptied directory can be taken away itself. -/
theorem erase_empty : (t.empty l).erase l = t.erase l := by
  unfold erase empty
  congr 1
  rw [List.filter_filter]
  refine List.filter_congr fun entry _ => ?_
  cases l.isPrefixOf entry.1 <;> simp

theorem mem_setEntry {entries : List (Location × Entry)} {x : Location × Entry}
    (h : x ∈ setEntry l e entries) : x = (l, e) ∨ x ∈ entries := by
  induction entries with
  | nil => exact Or.inl (List.mem_singleton.mp h)
  | cons entry rest ih =>
      obtain ⟨k, old⟩ := entry
      unfold setEntry at h
      split at h
      · rcases List.mem_cons.mp h with rfl | h
        · exact Or.inl rfl
        · exact Or.inr (List.mem_cons_of_mem _ h)
      · rcases List.mem_cons.mp h with rfl | h
        · exact Or.inr List.mem_cons_self
        · exact (ih h).imp_right (List.mem_cons_of_mem _)

theorem Plain.erase (ht : t.Plain) (hl : l ≠ []) : (t.erase l).Plain := by
  intro entry hentry
  obtain ⟨hmem, hkept⟩ := List.mem_filter.mp hentry
  obtain ⟨hlink, hdirectory, hnames⟩ := ht entry hmem
  have hnot : ¬ l <+: entry.1.dropLast := by
    intro hbelow
    have hbelow := hbelow.trans (List.dropLast_prefix entry.1)
    rw [← List.isPrefixOf_iff_prefix] at hbelow
    rw [hbelow] at hkept
    contradiction
  exact ⟨hlink, by rw [get?_erase hl, if_neg hnot, hdirectory], hnames⟩

theorem Rooted.empty (ht : t.Rooted) : (t.empty l).Rooted := by
  intro entry hentry
  obtain ⟨hmem, hkept⟩ := List.mem_filter.mp hentry
  rw [get?_empty, if_neg, ht entry hmem]
  intro hbelow
  obtain ⟨hstart, hne⟩ := hbelow
  have habove := hstart.trans (List.dropLast_prefix entry.1)
  have hself : entry.1 = l := by simpa [List.isPrefixOf_iff_prefix.mpr habove] using hkept
  refine hne (((List.dropLast_prefix entry.1).eq_of_length_le ?_).trans hself)
  rw [hself]
  exact hself ▸ hstart.length_le

theorem Plain.empty (ht : t.Plain) : (t.empty l).Plain := by
  intro entry hentry
  obtain ⟨hlink, -, hnames⟩ := ht entry (List.mem_filter.mp hentry).1
  exact ⟨hlink, ht.rooted.empty entry hentry, hnames⟩

/-- A new entry in a directory, or another one in the place of a file. -/
theorem Plain.set (ht : t.Plain) {name : String} (hl : t.get? l = some .directory)
    (hname : IsName name) (hfree : t.get? (l ++ [name]) ≠ some .directory)
    (he : e.isLink = false) : (t.set (l ++ [name]) e).Plain := by
  have hne : l ++ [name] ≠ [] := by simp
  intro entry hentry
  rcases mem_setEntry hentry with rfl | hmem
  · have hpresent : t.get? l ≠ none := by
      rw [hl]
      exact Option.some_ne_none _
    refine ⟨he, ?_, isName_of_mem_concat (fun _ => ht.isName_of_mem hpresent) hname⟩
    rw [List.dropLast_concat, get?_set t hne, if_neg (by simp), hl]
  · obtain ⟨hlink, hdirectory, hnames⟩ := ht entry hmem
    refine ⟨hlink, ?_, hnames⟩
    -- no other entry stands in the one that is set, as there was no directory
    have hother : entry.1.dropLast ≠ l ++ [name] := fun heq => hfree (heq ▸ hdirectory)
    rw [get?_set t hne, if_neg hother, hdirectory]

theorem childName?_eq_some_iff {name : String} : l.childName? k = some name ↔ k = l ++ [name] := by
  induction l generalizing k with
  | nil =>
      cases k with
      | nil => simp [Location.childName?]
      | cons other rest =>
          cases rest with
          | nil => simp [Location.childName?]
          | cons next rest => simp [Location.childName?]
  | cons d l ih =>
      cases k with
      | nil => simp [Location.childName?]
      | cons other rest =>
          unfold Location.childName?
          by_cases hd : d = other
          · subst hd
            rw [if_pos rfl, ih, List.cons_append, List.cons_inj_right]
          · rw [if_neg hd, List.cons_append, List.cons_eq_cons]
            exact iff_of_false nofun fun h => hd h.1.symm

/-- A directory lists the names of the entries that stand in it. -/
theorem mem_names_iff {name : String} : name ∈ t.names l ↔ t.get? (l ++ [name]) ≠ none := by
  constructor
  · intro h
    obtain ⟨⟨k, e⟩, hentry, hname⟩ := List.mem_filterMap.mp h
    obtain rfl : k = l ++ [name] := childName?_eq_some_iff.mp hname
    exact get?_ne_none_of_mem hentry
  · intro h
    obtain ⟨e, he⟩ := Option.ne_none_iff_exists'.mp h
    exact List.mem_filterMap.mpr
      ⟨_, mem_entries_of_get? (by simp) he, childName?_eq_some_iff.mpr rfl⟩

theorem Named.isName_of_mem_names (ht : t.Named) {name : String} (h : name ∈ t.names l) :
    IsName name := by
  obtain ⟨⟨k, e⟩, hentry, hname⟩ := List.mem_filterMap.mp h
  obtain rfl : k = l ++ [name] := childName?_eq_some_iff.mp hname
  exact ht _ hentry name (List.mem_append_right _ List.mem_cons_self)

end Changes

/-! ### Trees that hold as much as another -/

/-- All that stands in the first tree stands in the second one. -/
structure PartOf (t u : FileTree) : Prop where
  workDir : t.workDir = u.workDir
  entry : ∀ l e, t.get? l = some e → u.get? l = some e

/-- The second tree has an entry wherever the first one has, and a directory for a directory. -/
structure Within (t u : FileTree) : Prop where
  workDir : t.workDir = u.workDir
  directory : ∀ l, t.get? l = some .directory → u.get? l = some .directory
  present : ∀ l, t.get? l ≠ none → u.get? l ≠ none

/-- Whether two trees hold the same, in whatever order they list it. -/
structure Alike (t u : FileTree) : Prop where
  workDir : t.workDir = u.workDir
  get? : ∀ l, t.get? l = u.get? l

section Order

variable {t u v : FileTree} {l : Location} {e : Entry}

theorem PartOf.refl (t : FileTree) : t.PartOf t := ⟨rfl, fun _ _ h => h⟩

theorem PartOf.trans (htu : t.PartOf u) (huv : u.PartOf v) : t.PartOf v :=
  ⟨htu.workDir.trans huv.workDir, fun l e h => huv.entry l e (htu.entry l e h)⟩

theorem PartOf.within (h : t.PartOf u) : t.Within u where
  workDir := h.workDir
  directory := fun l => h.entry l .directory
  present := by
    intro l hl
    obtain ⟨e, he⟩ := Option.ne_none_iff_exists'.mp hl
    rw [h.entry l e he]
    exact Option.some_ne_none e

theorem Within.refl (t : FileTree) : t.Within t := (PartOf.refl t).within

theorem Within.trans (htu : t.Within u) (huv : u.Within v) : t.Within v where
  workDir := htu.workDir.trans huv.workDir
  directory := fun l h => huv.directory l (htu.directory l h)
  present := fun l h => huv.present l (htu.present l h)

theorem partOf_erase (hl : l ≠ []) : (t.erase l).PartOf t where
  workDir := rfl
  entry := by
    intro k e h
    rw [get?_erase hl] at h
    split at h
    · cases h
    · exact h

theorem partOf_empty : (t.empty l).PartOf t where
  workDir := rfl
  entry := by
    intro k e h
    rw [get?_empty] at h
    split at h
    · cases h
    · exact h

theorem partOf_set (hl : l ≠ []) (hfree : t.get? l = none) : t.PartOf (t.set l e) where
  workDir := rfl
  entry := by
    intro k old h
    have hk : k ≠ l := by
      intro heq
      rw [heq, hfree] at h
      contradiction
    rw [get?_set t hl, if_neg hk, h]

theorem within_set (hl : l ≠ []) (hfree : t.get? l ≠ some .directory) : t.Within (t.set l e) where
  workDir := rfl
  directory := by
    intro k h
    have hk : k ≠ l := by
      intro heq
      exact hfree (heq ▸ h)
    rw [get?_set t hl, if_neg hk, h]
  present := by
    intro k h
    rw [get?_set t hl]
    split
    · exact Option.some_ne_none e
    · exact h

end Order

/-! ### Ways through a tree without links -/

/-- The way of some segments from a location to another one. -/
inductive Leads (t : FileTree) : Location → List String → Location → Prop
  | nil {here} : Leads t here [] here
  | stay {here segment rest l} : t.get? here = some .directory → segment = "" ∨ segment = "." →
      Leads t here rest l → Leads t here (segment :: rest) l
  | up {here segment rest l} : t.get? here = some .directory → segment = ".." →
      Leads t here.dropLast rest l → Leads t here (segment :: rest) l
  | down {here segment rest l} : t.get? here = some .directory → ¬(segment = "" ∨ segment = ".") →
      segment ≠ ".." → segment.utf8ByteSize ≤ maxNameBytes → t.get? (here ++ [segment]) ≠ none →
      Leads t (here ++ [segment]) rest l → Leads t here (segment :: rest) l

section Leads

variable {t u : FileTree} {here l m : Location} {segments : List String}

theorem Leads.within (h : t.Leads here segments l) (hu : t.Within u) : u.Leads here segments l := by
  induction h with
  | nil => exact .nil
  | stay hdirectory hstay _ ih => exact .stay (hu.directory _ hdirectory) hstay ih
  | up hdirectory hup _ ih => exact .up (hu.directory _ hdirectory) hup ih
  | down hdirectory hstay hup hlength hpresent _ ih =>
      exact .down (hu.directory _ hdirectory) hstay hup hlength (hu.present _ hpresent) ih

theorem Leads.append {rest : List String} (h : t.Leads here segments l) (hrest : t.Leads l rest m) :
    t.Leads here (segments ++ rest) m := by
  induction h with
  | nil => exact hrest
  | stay hdirectory hstay _ ih => exact .stay hdirectory hstay (ih hrest)
  | up hdirectory hup _ ih => exact .up hdirectory hup (ih hrest)
  | down hdirectory hstay hup hlength hpresent _ ih =>
      exact .down hdirectory hstay hup hlength hpresent (ih hrest)

theorem Leads.of_append {before rest : List String} (h : t.Leads here (before ++ rest) l) :
    ∃ m, t.Leads here before m ∧ t.Leads m rest l := by
  induction before generalizing here with
  | nil => exact ⟨here, .nil, h⟩
  | cons segment before ih =>
      cases h with
      | stay hdirectory hstay hrest =>
          obtain ⟨m, hbefore, hrest⟩ := ih hrest
          exact ⟨m, .stay hdirectory hstay hbefore, hrest⟩
      | up hdirectory hup hrest =>
          obtain ⟨m, hbefore, hrest⟩ := ih hrest
          exact ⟨m, .up hdirectory hup hbefore, hrest⟩
      | down hdirectory hstay hup hlength hpresent hrest =>
          obtain ⟨m, hbefore, hrest⟩ := ih hrest
          exact ⟨m, .down hdirectory hstay hup hlength hpresent hbefore, hrest⟩

/-- A name leads to the entry that has it, and on from there. -/
theorem Leads.of_cons {name : String} (h : t.Leads here (name :: segments) l) (hname : IsName name) :
    t.get? here = some .directory ∧ name.utf8ByteSize ≤ maxNameBytes ∧
      t.get? (here ++ [name]) ≠ none ∧ t.Leads (here ++ [name]) segments l := by
  obtain ⟨hempty, hdot, hdots, -⟩ := hname
  cases h with
  | stay _ hstay _ => exact absurd hstay (not_or.mpr ⟨hempty, hdot⟩)
  | up _ hup _ => exact absurd hup hdots
  | down hdirectory _ _ hlength hpresent hrest => exact ⟨hdirectory, hlength, hpresent, hrest⟩

/-- Names lead on to what stands under them. -/
theorem Leads.eq_append (h : t.Leads here segments l) (hnames : ∀ name ∈ segments, IsName name) :
    l = here ++ segments := by
  induction h with
  | nil => rw [List.append_nil]
  | @stay _ segment _ _ _ hstay _ _ =>
      obtain ⟨hempty, hdot, -⟩ := hnames segment List.mem_cons_self
      exact absurd hstay (not_or.mpr ⟨hempty, hdot⟩)
  | @up _ segment _ _ _ hup _ _ =>
      obtain ⟨-, -, hname, -⟩ := hnames segment List.mem_cons_self
      exact absurd hup hname
  | down _ _ _ _ _ _ ih =>
      rw [ih fun name hname => hnames name (List.mem_cons_of_mem _ hname), List.append_assoc]
      rfl

/-- Segments that are no steps lead nowhere. -/
theorem Leads.eq_of_stays (h : t.Leads here segments l)
    (hstays : ∀ segment ∈ segments, segment = "" ∨ segment = ".") : l = here := by
  induction h with
  | nil => rfl
  | stay _ _ _ ih => exact ih fun segment h => hstays segment (List.mem_cons_of_mem _ h)
  | @up _ segment _ _ _ hup _ _ =>
      subst hup
      exact absurd (hstays ".." List.mem_cons_self) (by decide)
  | @down _ segment _ _ _ hstay _ _ _ _ _ => exact absurd (hstays segment List.mem_cons_self) hstay

/-- An empty segment leads nowhere. -/
theorem Leads.of_empty (h : t.Leads here ("" :: segments) l) : t.Leads here segments l := by
  cases h with
  | stay _ _ hrest => exact hrest
  | up _ hup => exact absurd hup (by decide)
  | down _ hstay => exact absurd (Or.inl rfl) hstay

/-- Where a way ends there is an entry, if there is one where it starts. -/
theorem Leads.ne_none (h : t.Leads here segments l) (ht : t.Plain) (hhere : t.get? here ≠ none) :
    t.get? l ≠ none := by
  induction h with
  | nil => exact hhere
  | stay _ _ _ ih => exact ih hhere
  | up hdirectory _ _ ih =>
      exact ih (by rw [ht.rooted.get?_dropLast hdirectory]; exact Option.some_ne_none _)
  | down _ _ _ _ hpresent _ ih => exact ih hpresent

/-- A way of at least one step starts in a directory. -/
theorem Leads.directory_of_ne_nil (h : t.Leads here segments l) (hne : segments ≠ []) :
    t.get? here = some .directory := by
  cases h with
  | nil => contradiction
  | stay hdirectory _ _ => exact hdirectory
  | up hdirectory _ _ => exact hdirectory
  | down hdirectory _ _ _ _ _ => exact hdirectory

theorem Leads.ne_none_of_ne_nil (h : t.Leads here segments l) (ht : t.Plain)
    (hne : segments ≠ []) : t.get? l ≠ none :=
  h.ne_none ht (by rw [h.directory_of_ne_nil hne]; exact Option.some_ne_none _)

variable {follow : Bool} {onLink : Location → List String → Except Fault Location}

theorem Plain.leads_of_walkWith (ht : t.Plain)
    (h : t.walkWith follow onLink here segments = .ok l) : t.Leads here segments l := by
  induction segments generalizing here with
  | nil =>
      cases h
      exact .nil
  | cons segment rest ih =>
      unfold walkWith at h
      split at h
      · rename_i hhere
        split at h
        · rename_i hstay
          exact .stay hhere hstay (ih h)
        · rename_i hstay
          split at h
          · rename_i hup
            exact .up hhere hup (ih h)
          · rename_i hup
            split at h
            · contradiction
            · rename_i hlength
              split at h
              · contradiction
              · rename_i target hlink
                exact absurd hlink (ht.get?_ne_link target)
              · rename_i hentry
                exact .down hhere hstay hup (Nat.le_of_not_lt hlength)
                  (by rw [hentry]; exact Option.some_ne_none _) (ih h)
      · contradiction
      · contradiction

theorem Plain.walkWith_of_leads (ht : t.Plain) (h : t.Leads here segments l) :
    t.walkWith follow onLink here segments = .ok l := by
  induction h with
  | nil => rfl
  | stay hdirectory hstay _ ih =>
      unfold walkWith
      simp only [hdirectory, if_pos hstay, ih]
  | up hdirectory hup _ ih =>
      subst hup
      unfold walkWith
      simp only [hdirectory, ih]
      rfl
  | @down here segment rest l hdirectory hstay hup hlength hpresent _ ih =>
      obtain ⟨e, he⟩ := Option.ne_none_iff_exists'.mp hpresent
      unfold walkWith
      simp only [hdirectory, if_neg hstay, if_neg hup, if_neg (Nat.not_lt.mpr hlength), he]
      cases e with
      | link target => exact absurd he (ht.get?_ne_link target)
      | file bytes => exact ih
      | directory => exact ih

/-- Without links, neither their number nor following them matters to a walk. -/
theorem Plain.walk_eq_ok_iff (ht : t.Plain) {links : Nat} :
    t.walk follow links here segments = .ok l ↔ t.Leads here segments l := by
  cases links with
  | zero => exact ⟨ht.leads_of_walkWith, ht.walkWith_of_leads⟩
  | succ links => exact ⟨ht.leads_of_walkWith, ht.walkWith_of_leads⟩

theorem Plain.leads_unique (ht : t.Plain) (h : t.Leads here segments l)
    (h' : t.Leads here segments m) : l = m := by
  have hwalk : t.walk true 0 here segments = .ok l := ht.walk_eq_ok_iff.mpr h
  have hwalk' : t.walk true 0 here segments = .ok m := ht.walk_eq_ok_iff.mpr h'
  rw [hwalk] at hwalk'
  exact Except.ok.inj hwalk'

theorem Plain.resolve_eq_ok_iff (ht : t.Plain) {p : Path} :
    t.resolve p = .ok l ↔ checkText p = .ok () ∧ t.Leads (t.startOf p) p.segments l := by
  unfold resolve
  rw [bind_eq_ok_iff]
  constructor
  · intro hsteps
    obtain ⟨_, hcheck, hwalk⟩ := hsteps
    exact ⟨hcheck, ht.walk_eq_ok_iff.mp hwalk⟩
  · intro hway
    obtain ⟨hcheck, hleads⟩ := hway
    exact ⟨(), hcheck, ht.walk_eq_ok_iff.mpr hleads⟩

theorem startOf_eq (h : t.workDir = u.workDir) (p : Path) : t.startOf p = u.startOf p := by
  unfold startOf
  rw [h]

/-- A path leads to the same place in every tree that holds as much. -/
theorem Plain.resolve_within (ht : t.Plain) (hu : u.Plain) (htu : t.Within u) {p : Path}
    (h : t.resolve p = .ok l) : u.resolve p = .ok l := by
  obtain ⟨hcheck, hleads⟩ := ht.resolve_eq_ok_iff.mp h
  rw [startOf_eq htu.workDir] at hleads
  exact hu.resolve_eq_ok_iff.mpr ⟨hcheck, hleads.within htu⟩

/-- What a path leads to stands where the path leads. -/
theorem find?_eq_some_iff {p : Path} {e : Entry} :
    t.find? p = some e ↔ ∃ l, t.resolve p = .ok l ∧ t.get? l = some e := by
  unfold find?
  cases t.resolve p with
  | error fault => simp
  | ok l => simp

theorem readBytes_of_find? {p : Path} {bytes : ByteArray} (h : t.find? p = some (.file bytes)) :
    t.readBytes p = .ok bytes := by
  obtain ⟨l, hresolve, hl⟩ := find?_eq_some_iff.mp h
  unfold readBytes
  simp only [hresolve, bind, Except.bind, hl]

theorem isFile_iff {p : Path} : t.isFile p = true ↔ ∃ bytes, t.find? p = some (.file bytes) := by
  unfold isFile
  split
  · rename_i bytes hfind
    exact iff_of_true rfl ⟨bytes, hfind⟩
  · rename_i hother
    refine iff_of_false Bool.false_ne_true fun h => ?_
    obtain ⟨bytes, hfind⟩ := h
    exact hother bytes hfind

theorem exists_of_isDirectory {p : Path} (h : t.isDirectory p = true) :
    ∃ l, t.resolve p = .ok l ∧ t.get? l = some .directory :=
  find?_eq_some_iff.mp (of_decide_eq_true h)

theorem isDirectory_of_resolve {p : Path} (h : t.resolve p = .ok l)
    (hl : t.get? l = some .directory) : t.isDirectory p = true :=
  decide_eq_true (find?_eq_some_iff.mpr ⟨l, h, hl⟩)

theorem Plain.ne_none_of_resolve (ht : t.Plain) {p : Path} (h : t.resolve p = .ok l) :
    t.get? l ≠ none := by
  obtain ⟨-, hleads⟩ := ht.resolve_eq_ok_iff.mp h
  refine hleads.ne_none_of_ne_nil ht ?_
  unfold Path.segments
  simp

theorem Plain.isName_of_resolve (ht : t.Plain) {p : Path} (h : t.resolve p = .ok l) :
    ∀ name ∈ l, IsName name := fun _ => ht.isName_of_mem (ht.ne_none_of_resolve h)

end Leads

end FileTree

end Understudy
