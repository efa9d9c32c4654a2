import Understudy.Destination
import Understudy.Proofs.Entries

/-!
# Understudy.Proofs.Clearing

Clearing a directory entry by entry, in trees that may hold links and whatever the system refuses.
Each entry is looked up by its path in what is left of the tree at its turn, and that settles its
**fate** (`fate`): a step does just what the fate says (`clearName_eq`), and so the whole clearing is
the sequence of the fates (`clearNames_eq`). What it leaves of the tree is all that no fate takes
(`get?_left_of_taken`, `get?_left_of_not_taken`).

What was removed before may have cut the way to the directory. As long as it has not, an entry whose
path the system takes is looked up, and its fate is known from the tree before the clearing
(`fate_eq_verdict`).
-/

namespace Understudy

open FileTree

namespace Clearing

/-! ### Fates -/

/-- What becomes of an entry of a directory that is cleared. -/
inductive Fate
  /-- It is a directory that is not asked for, and passed over. -/
  | passed
  /-- It stays, as it cannot be looked up or the system does not let it go. -/
  | kept (cause : Fault)
  /-- What is below it is removed. It stays itself, as its path does not lead to it any longer. -/
  | emptied
  /-- It is removed with all that is below it. -/
  | removed
  deriving DecidableEq

namespace Fate

/-- Whether what stands below an entry is taken away, given by the names that lead there. -/
def Takes : Fate → List String → Prop
  | passed, _ | kept _, _ => False
  | emptied, below => below ≠ []
  | removed, _ => True

/-- What is left of a tree by the fate of the entry at a location. -/
def leave (t : FileTree) (l : Location) : Fate → FileTree
  | passed | kept _ => t
  | emptied => t.empty l
  | removed => t.erase l

/-- Whether an entry is counted as removed. -/
def isRemoved : Fate → Bool
  | emptied | removed => true
  | passed | kept _ => false

/-- Whether an entry is counted as one that could not be removed. -/
def isKept : Fate → Bool
  | kept _ => true
  | passed | emptied | removed => false

/-- What is reported of the entry at a path. -/
def event? (p : Path) : Fate → Option Event
  | kept cause => some (.kept p cause)
  | passed | emptied | removed => none

end Fate

/-- What becomes of an entry that can be looked up, also when it is emptied. -/
def verdict (refusals : Refusals) (recursive : Bool) (l : Location) (e : Entry) : Fate :=
  if e = .directory ∧ recursive = false then .passed
  else
    match refusals (.remove l) with
    | some cause => .kept cause
    | none => .removed

section Turns

variable (refusals : Refusals) (recursive : Bool) (p : Path) (directory : Location)

/-- What becomes of an entry of a directory at its turn, by what is left of the tree then. -/
def fate (t : FileTree) (name : String) : Fate :=
  match t.entryAt (p.join name) with
  | .error cause => .kept cause
  | .ok e =>
    match verdict refusals recursive (directory ++ [name]) e with
    | .removed =>
      if e = .directory ∧ (t.empty (directory ++ [name])).hasEntry (p.join name) = false then
        .emptied
      else .removed
    | settled => settled

/-- What becomes of entries of a directory, one after another. -/
def fates (t : FileTree) : List String → List (String × Fate)
  | [] => []
  | name :: rest =>
    let f := fate refusals recursive p directory t name
    (name, f) :: fates (f.leave t (directory ++ [name])) rest

end Turns

/-- What is left of a tree by the fates of entries of a directory. -/
def left (directory : Location) (t : FileTree) (fs : List (String × Fate)) : FileTree :=
  fs.foldl (fun u entry => entry.2.leave u (directory ++ [entry.1])) t

/-- Whether the fates of entries of a directory take a location away. -/
def Taken (directory : Location) (fs : List (String × Fate)) (l : Location) : Prop :=
  ∃ name f below, (name, f) ∈ fs ∧ f.Takes below ∧ l = directory ++ name :: below

/-- The names that a listing gives. -/
def listed (listing : List (Except Fault String)) : List String := listing.filterMap Except.toOption

/-- Whether clearing a directory takes a location away. -/
def Takes (refusals : Refusals) (recursive : Bool) (p : Path) (t : FileTree)
    (directory l : Location) : Prop :=
  Taken directory
    (fates refusals recursive p directory t (listed (t.listing refusals directory))) l

variable {t u v : FileTree} {refusals : Refusals} {recursive : Bool} {directory l k : Location}
  {p : Path} {c : Clearing} {name : String} {f : Fate} {e : Entry} {names : List String}
  {fs : List (String × Fate)} {taken others : Location → Prop}

/-! ### What is left -/

theorem Fate.partOf_leave (hl : l ≠ []) : (f.leave t l).PartOf t := by
  cases f with
  | passed => exact PartOf.refl t
  | kept cause => exact PartOf.refl t
  | emptied => exact partOf_empty
  | removed => exact partOf_erase hl

theorem Fate.plain_leave (ht : t.Plain) (hl : l ≠ []) : (f.leave t l).Plain := by
  cases f with
  | passed => exact ht
  | kept cause => exact ht
  | emptied => exact ht.empty
  | removed => exact ht.erase hl

theorem Fate.get?_leave_of_takes {below : List String} (hl : l ≠ []) (h : f.Takes below) :
    (f.leave t l).get? (l ++ below) = none := by
  cases f with
  | passed => cases h
  | kept cause => cases h
  | emptied =>
      have hne : l ++ below ≠ l := fun heq => h (List.append_right_eq_self.mp heq)
      exact get?_empty.trans (if_pos ⟨List.prefix_append l below, hne⟩)
  | removed => exact (get?_erase hl).trans (if_pos (List.prefix_append l below))

theorem Fate.get?_leave_of_not_takes (hl : l ≠ []) (h : ∀ below, f.Takes below → k ≠ l ++ below) :
    (f.leave t l).get? k = t.get? k := by
  cases f with
  | passed => rfl
  | kept cause => rfl
  | emptied =>
      refine get?_empty.trans (if_neg fun hbelow => ?_)
      obtain ⟨⟨below, rfl⟩, hne⟩ := hbelow
      exact h below (fun hnil => hne (by rw [hnil, List.append_nil])) rfl
  | removed =>
      refine (get?_erase hl).trans (if_neg fun hbelow => ?_)
      obtain ⟨below, rfl⟩ := hbelow
      exact h below trivial rfl

theorem left_cons : left directory t ((name, f) :: fs) =
    left directory (f.leave t (directory ++ [name])) fs := rfl

theorem left_append (fs others : List (String × Fate)) :
    left directory t (fs ++ others) = left directory (left directory t fs) others :=
  List.foldl_append

theorem partOf_left : (left directory t fs).PartOf t := by
  induction fs generalizing t with
  | nil => exact PartOf.refl t
  | cons entry rest ih => exact ih.trans (Fate.partOf_leave (by simp))

theorem plain_left (ht : t.Plain) : (left directory t fs).Plain := by
  induction fs generalizing t with
  | nil => exact ht
  | cons entry rest ih => exact ih (Fate.plain_leave ht (by simp))

theorem get?_left_of_not_taken (h : ¬Taken directory fs l) :
    (left directory t fs).get? l = t.get? l := by
  induction fs generalizing t with
  | nil => rfl
  | cons entry rest ih =>
      obtain ⟨name, f⟩ := entry
      rw [left_cons, ih fun hrest => h ?_]
      · refine Fate.get?_leave_of_not_takes (by simp) fun below htakes hl => ?_
        exact h ⟨name, f, below, List.mem_cons_self, htakes, by rw [hl, ← List.append_cons]⟩
      · obtain ⟨other, f', below, hmem, htakes⟩ := hrest
        exact ⟨other, f', below, List.mem_cons_of_mem _ hmem, htakes⟩

theorem get?_left_of_taken (h : Taken directory fs l) : (left directory t fs).get? l = none := by
  obtain ⟨name, f, below, hmem, htakes, rfl⟩ := h
  obtain ⟨before, after, rfl⟩ := List.append_of_mem hmem
  rw [left_append, left_cons]
  by_contra hpresent
  -- what is there in the end was there right behind the turn of the entry
  obtain ⟨e, he⟩ := Option.ne_none_iff_exists'.mp hpresent
  have hleft := partOf_left.entry _ e he
  rw [List.append_cons directory name below, Fate.get?_leave_of_takes (by simp) htakes] at hleft
  cases hleft

/-- The directory itself is in none of its entries. -/
theorem get?_left_self : (left directory t fs).get? directory = t.get? directory := by
  refine get?_left_of_not_taken fun htaken => ?_
  obtain ⟨name, f, below, -, -, heq⟩ := htaken
  simp at heq

/-- What is left of a plain tree when some of it is taken away. -/
structure Leaves (taken : Location → Prop) (t u : FileTree) : Prop where
  plain : u.Plain
  workDir : u.workDir = t.workDir
  gone : ∀ l, taken l → u.get? l = none
  kept : ∀ l, ¬taken l → u.get? l = t.get? l

theorem Leaves.partOf (h : Leaves taken t u) : u.PartOf t where
  workDir := h.workDir
  entry := by
    intro l e hl
    by_cases htaken : taken l
    · rw [h.gone l htaken] at hl
      cases hl
    · rw [← h.kept l htaken, hl]

theorem leaves_left (ht : t.Plain) : Leaves (Taken directory fs) t (left directory t fs) where
  plain := plain_left ht
  workDir := partOf_left.workDir
  gone := fun _ => get?_left_of_taken
  kept := fun _ => get?_left_of_not_taken

/-! ### One entry -/

/-- What removing an entry comes to, if its path leads into the directory or nowhere. -/
theorem removal_eq (hname : IsName name) (hway : ∀ d, t.approach p = .ok d → d = directory) :
    removal refusals recursive t (p.join name) =
      match fate refusals recursive p directory t name with
      | .passed => .ok none
      | .kept cause => .error cause
      | .emptied => .ok (some (t.empty (directory ++ [name])))
      | .removed => .ok (some (t.erase (directory ++ [name]))) := by
  -- in whatever is left of the tree, the path of the entry leads to it or nowhere
  have honly : ∀ {u : FileTree} {l : Location}, u.PartOf t → u.resolveLink (p.join name) = .ok l →
      l = directory ++ [name] := by
    intro u l hpart hresolve
    obtain ⟨-, d, happroach, -, rfl⟩ := (resolveLink_join_eq_ok_iff hname).mp hresolve
    rw [hway d (hpart.approach happroach)]
  unfold removal fate
  cases hentry : t.entryAt (p.join name) with
  | error cause => rfl
  | ok e =>
      obtain ⟨l, hresolve, -⟩ := bind_eq_ok_iff.mp hentry
      obtain rfl := honly (PartOf.refl t) hresolve
      have hreleased : t.released refusals (p.join name) =
          match refusals (.remove (directory ++ [name])) with
          | some cause => .error cause
          | none => .ok (directory ++ [name]) := by
        unfold released
        rw [hresolve]
        rfl
      unfold verdict removeFile removeDirectory
      rw [hreleased]
      cases hrefusal : refusals (.remove (directory ++ [name])) with
      | some cause => cases e <;> cases recursive <;> rfl
      | none =>
          cases e with
          | file bytes => rfl
          | link target => rfl
          | directory =>
              cases recursive with
              | false => rfl
              | true =>
                  simp only [hasEntry, bind, Except.bind]
                  cases hagain : (t.empty (directory ++ [name])).resolveLink (p.join name) with
                  | error fault => rfl
                  | ok k =>
                      obtain rfl := honly partOf_empty hagain
                      simp [erase_empty]

/-- Clearing an entry does what its fate says. -/
theorem clearName_eq (hname : IsName name) (hway : ∀ d, c.tree.approach p = .ok d → d = directory) :
    clearName refusals recursive p c name =
      let f := fate refusals recursive p directory c.tree name
      { tree := f.leave c.tree (directory ++ [name])
        report.removed := c.report.removed + f.isRemoved.toNat
        report.failed := c.report.failed + f.isKept.toNat
        events := c.events ++ (f.event? (p.join name)).toList } := by
  unfold clearName
  rw [removal_eq hname hway]
  cases fate refusals recursive p directory c.tree name with
  | passed => simp [Fate.leave, Fate.isRemoved, Fate.isKept, Fate.event?]
  | kept cause => rfl
  | emptied => simp [Fate.leave, Fate.isRemoved, Fate.isKept, Fate.event?, remove]
  | removed => simp [Fate.leave, Fate.isRemoved, Fate.isKept, Fate.event?, remove]

/-- How the fate of an entry is settled at its turn. -/
inductive Settles (refusals : Refusals) (recursive : Bool) (p : Path) (directory : Location)
    (t : FileTree) (name : String) : Fate → Prop
  /-- It is a directory, and directories are not asked for. -/
  | passed : t.entryAt (p.join name) = .ok .directory → recursive = false →
      Settles refusals recursive p directory t name .passed
  /-- It cannot be looked up. -/
  | missed {cause : Fault} : t.entryAt (p.join name) = .error cause →
      Settles refusals recursive p directory t name (.kept cause)
  /-- The system does not let it go. -/
  | refused {e : Entry} {cause : Fault} : t.entryAt (p.join name) = .ok e →
      (e = .directory → recursive = true) →
      refusals (.remove (directory ++ [name])) = some cause →
      Settles refusals recursive p directory t name (.kept cause)
  /-- It is a directory to which its path does not lead any longer when it is empty. -/
  | emptied : t.entryAt (p.join name) = .ok .directory → recursive = true →
      refusals (.remove (directory ++ [name])) = none →
      (t.empty (directory ++ [name])).hasEntry (p.join name) = false →
      Settles refusals recursive p directory t name .emptied
  /-- Nothing is in the way. -/
  | removed {e : Entry} : t.entryAt (p.join name) = .ok e → (e = .directory → recursive = true) →
      refusals (.remove (directory ++ [name])) = none →
      (e = .directory → (t.empty (directory ++ [name])).hasEntry (p.join name) = true) →
      Settles refusals recursive p directory t name .removed

theorem settles_fate (refusals : Refusals) (recursive : Bool) (p : Path) (directory : Location)
    (t : FileTree) (name : String) : Settles refusals recursive p directory t name
      (fate refusals recursive p directory t name) := by
  unfold fate verdict
  cases hentry : t.entryAt (p.join name) with
  | error cause => exact .missed hentry
  | ok e =>
      by_cases hpassed : e = .directory ∧ recursive = false
      · obtain ⟨rfl, hshallow⟩ := hpassed
        simp only [hshallow, and_self, if_true]
        exact .passed hentry rfl
      · have hasked : e = .directory → recursive = true := fun hdirectory =>
          Bool.of_not_eq_false fun hshallow => hpassed ⟨hdirectory, hshallow⟩
        simp only [if_neg hpassed]
        cases hrefusal : refusals (.remove (directory ++ [name])) with
        | some cause => exact .refused hentry hasked hrefusal
        | none =>
            dsimp only
            split
            · rename_i hlost
              obtain ⟨rfl, hlost⟩ := hlost
              exact .emptied hentry (hasked rfl) hrefusal hlost
            · rename_i hfound
              exact .removed hentry hasked hrefusal fun hdirectory =>
                Bool.of_not_eq_false fun hlost => hfound ⟨hdirectory, hlost⟩

/-- As long as the path of a directory leads there, the fate of an entry is known from the tree before
the clearing, if the system takes the path of the entry. -/
theorem fate_eq_verdict (hname : IsName name) (hadmits : p.Admits name)
    (hdirectory : t.get? directory = some .directory) (hentry : t.get? (directory ++ [name]) = some e)
    (hstill : ((fate refusals recursive p directory t name).leave t
      (directory ++ [name])).approach p = .ok directory) :
    fate refusals recursive p directory t name =
      verdict refusals recursive (directory ++ [name]) e := by
  have hne : directory ++ [name] ≠ [] := by simp
  have hpart := Fate.partOf_leave (t := t) (f := fate refusals recursive p directory t name) hne
  have hlookup : t.entryAt (p.join name) = .ok e := (entryAt_join_eq_ok_iff hname).mpr
    ⟨hadmits, directory, hpart.approach hstill, hdirectory, hentry⟩
  have hsettles := settles_fate refusals recursive p directory t name
  generalize fate refusals recursive p directory t name = f at hstill hsettles ⊢
  unfold verdict
  cases hsettles with
  | passed hlookup' hshallow =>
      rw [hlookup] at hlookup'
      cases hlookup'
      rw [if_pos ⟨rfl, hshallow⟩]
  | missed hmissed =>
      rw [hlookup] at hmissed
      cases hmissed
  | refused hlookup' hasked hrefusal =>
      rw [hlookup] at hlookup'
      cases hlookup'
      rw [if_neg fun h => Bool.false_ne_true (h.2.symm.trans (hasked h.1)), hrefusal]
  | emptied hlookup' _ _ hlost =>
      -- the emptied directory is still there, and its path leads to it
      rw [Fate.leave] at hstill
      have hheld : (t.empty (directory ++ [name])).Holds directory name := by
        refine ⟨?_, hadmits.2, ?_⟩
        · rw [get?_empty, if_neg (fun h => absurd h.1.length_le (by simp)), hdirectory]
        · rw [get?_empty, if_neg (fun h => h.2 rfl), hentry]
          exact Option.some_ne_none e
      have hfound := (resolveLink_join_eq_ok_iff hname).mpr
        ⟨hadmits.1, directory, hstill, hheld, rfl⟩
      rw [hasEntry, hfound] at hlost
      cases hlost
  | removed hlookup' hasked hrefusal _ =>
      rw [hlookup] at hlookup'
      cases hlookup'
      rw [if_neg fun h => Bool.false_ne_true (h.2.symm.trans (hasked h.1)), hrefusal]

/-! ### All entries -/

theorem fates_cons : fates refusals recursive p directory t (name :: names) =
    (name, fate refusals recursive p directory t name) :: fates refusals recursive p directory
      ((fate refusals recursive p directory t name).leave t (directory ++ [name])) names := rfl

theorem map_fst_fates : (fates refusals recursive p directory t names).map Prod.fst = names := by
  induction names generalizing t with
  | nil => rfl
  | cons name rest ih => rw [fates_cons, List.map_cons, ih]

/-- The fate of an entry is what it is in the tree that the entries before it leave. What the entry
leaves is part of that, and what is left in the end is part of what the entry leaves. -/
theorem exists_of_mem_fates (h : (name, f) ∈ fates refusals recursive p directory t names) :
    ∃ before after, names = before ++ name :: after ∧
      f = fate refusals recursive p directory
        (left directory t (fates refusals recursive p directory t before)) name ∧
      (left directory t (fates refusals recursive p directory t names)).PartOf
        (f.leave (left directory t (fates refusals recursive p directory t before))
          (directory ++ [name])) := by
  induction names generalizing t with
  | nil => cases h
  | cons first rest ih =>
      rcases List.mem_cons.mp h with heq | hmem
      · cases heq
        refine ⟨[], rest, rfl, rfl, ?_⟩
        rw [fates_cons, left_cons]
        exact partOf_left
      · obtain ⟨before, after, rfl, hfate, hpart⟩ := ih hmem
        exact ⟨first :: before, after, rfl, hfate, hpart⟩

theorem exists_of_mem_names (h : name ∈ names) :
    ∃ f, (name, f) ∈ fates refusals recursive p directory t names := by
  have hmap : (fates refusals recursive p directory t names).map Prod.fst = names := map_fst_fates
  rw [← hmap] at h
  obtain ⟨⟨_, f⟩, hmem, rfl⟩ := List.mem_map.mp h
  exact ⟨f, hmem⟩

/-- What is taken away is in an entry that was looked up and let go, and directories were asked for if
it was one. -/
theorem exists_of_taken (hnames : ∀ name ∈ names, IsName name)
    (hway : ∀ d, t.approach p = .ok d → d = directory)
    (h : Taken directory (fates refusals recursive p directory t names) l) :
    ∃ name ∈ names, ∃ e below, l = directory ++ name :: below ∧ p.Admits name ∧
      t.get? (directory ++ [name]) = some e ∧ (e = .directory → recursive = true) ∧
      refusals (.remove (directory ++ [name])) = none := by
  obtain ⟨name, f, below, hmem, htakes, rfl⟩ := h
  obtain ⟨before, after, hsplit, hfate, -⟩ := exists_of_mem_fates hmem
  have hname : name ∈ names := by
    rw [hsplit]
    exact List.mem_append_right _ List.mem_cons_self
  refine ⟨name, hname, ?_⟩
  generalize hturn : left directory t (fates refusals recursive p directory t before) = u at hfate
  have hu : u.PartOf t := hturn ▸ partOf_left
  -- what is looked up at its turn was there before
  have hbefore : ∀ {e : Entry}, u.entryAt (p.join name) = .ok e →
      p.Admits name ∧ t.get? (directory ++ [name]) = some e := by
    intro e hlookup
    obtain ⟨hadmits, d, happroach, -, hentry⟩ :=
      (entryAt_join_eq_ok_iff (hnames name hname)).mp hlookup
    rw [hway d (hu.approach happroach)] at hentry
    exact ⟨hadmits, hu.entry _ _ hentry⟩
  have hsettles := settles_fate refusals recursive p directory u name
  rw [← hfate] at hsettles
  cases hsettles with
  | passed _ _ => cases htakes
  | missed _ => cases htakes
  | refused _ _ _ => cases htakes
  | emptied hlookup hasked hlet _ =>
      obtain ⟨hadmits, hentry⟩ := hbefore hlookup
      exact ⟨_, below, rfl, hadmits, hentry, fun _ => hasked, hlet⟩
  | removed hlookup hasked hlet _ =>
      obtain ⟨hadmits, hentry⟩ := hbefore hlookup
      exact ⟨_, below, rfl, hadmits, hentry, hasked, hlet⟩

/-- A file that is still there, although the clearing reaches it, is in an entry that was kept. -/
theorem exists_kept_of_get?_left {rest : List String} {bytes : ByteArray} (hname : name ∈ names)
    (hvalid : IsName name) (hreach : rest = [] ∨ recursive = true)
    (hway : ∀ d, t.approach p = .ok d → d = directory)
    (h : (left directory t (fates refusals recursive p directory t names)).get?
      (directory ++ name :: rest) = some (.file bytes)) :
    ∃ cause, (name, .kept cause) ∈ fates refusals recursive p directory t names := by
  obtain ⟨f, hmem⟩ : ∃ f, (name, f) ∈ fates refusals recursive p directory t names :=
    exists_of_mem_names hname
  obtain ⟨before, after, -, hfate, hpart⟩ := exists_of_mem_fates hmem
  have hstays : ¬f.Takes rest := by
    intro htakes
    rw [get?_left_of_taken ⟨name, f, rest, hmem, htakes, rfl⟩] at h
    cases h
  generalize hturn : left directory t (fates refusals recursive p directory t before) = u
    at hfate hpart
  -- if the file is the entry itself, it was no directory at its turn
  have hfile : rest = [] → u.entryAt (p.join name) ≠ .ok .directory := by
    intro hrest hlookup
    obtain ⟨-, d, happroach, -, hentry⟩ := (entryAt_join_eq_ok_iff hvalid).mp hlookup
    have hu : u.PartOf t := hturn ▸ partOf_left
    rw [hway d (hu.approach happroach)] at hentry
    have hne : directory ++ [name] ≠ [] := by simp
    rw [hrest] at h
    rw [(hpart.trans (Fate.partOf_leave hne)).entry _ _ h] at hentry
    cases hentry
  have hsettles := settles_fate refusals recursive p directory u name
  rw [← hfate] at hsettles
  cases hsettles with
  | passed hlookup hshallow =>
      rw [hshallow] at hreach
      exact absurd hlookup (hfile (hreach.resolve_right Bool.false_ne_true))
  | missed _ => exact ⟨_, hmem⟩
  | refused _ _ _ => exact ⟨_, hmem⟩
  | emptied hlookup _ _ _ => exact absurd hlookup (hfile (not_not.mp hstays))
  | removed _ _ _ _ => exact absurd trivial hstays

/-- If the path of a directory still leads there in the end, what is left of its entries was not due to
be removed, or the system does not take its path. -/
theorem verdict_ne_removed_of_get?_left (hname : name ∈ names) (hvalid : IsName name)
    (hadmits : p.Admits name) (hdirectory : t.get? directory = some .directory)
    (hstill : (left directory t (fates refusals recursive p directory t names)).approach p =
      .ok directory)
    (h : (left directory t (fates refusals recursive p directory t names)).get?
      (directory ++ [name]) = some e) :
    verdict refusals recursive (directory ++ [name]) e ≠ .removed := by
  intro hremoved
  obtain ⟨f, hmem⟩ : ∃ f, (name, f) ∈ fates refusals recursive p directory t names :=
    exists_of_mem_names hname
  obtain ⟨before, after, -, hfate, hpart⟩ := exists_of_mem_fates hmem
  have hne : directory ++ [name] ≠ [] := by simp
  have hturn := (hpart.trans (Fate.partOf_leave hne)).entry _ e h
  rw [hfate] at hpart
  have hverdict := fate_eq_verdict hvalid hadmits (get?_left_self.trans hdirectory) hturn
    (hpart.approach hstill)
  rw [← hfate, hremoved] at hverdict
  rw [get?_left_of_taken ⟨name, f, [], hmem, hverdict ▸ trivial, rfl⟩] at h
  cases h

theorem way_of_resolve (ht : t.Rooted) (hresolve : t.resolve p = .ok directory)
    (hdirectory : t.get? directory = some .directory) {d : Location} (hd : t.approach p = .ok d) :
    d = directory :=
  Except.ok.inj (hd.symm.trans (ht.approach_of_resolve hresolve hdirectory))

theorem isName_of_mem_listed (ht : t.Named) (h : name ∈ listed (t.listing refusals directory)) :
    IsName name :=
  ht.isName_of_mem_names (sublist_names_of_listing.subset h)

/-- If nothing is refused to be listed, all names of a directory are. -/
theorem listed_listing_of_forall (h : ∀ name ∈ t.names directory,
    refusals (.entry (directory ++ [name])) = none) :
    listed (t.listing refusals directory) = t.names directory := by
  rw [listing_of_forall h, listed, List.filterMap_map]
  exact List.filterMap_some

/-- Then an entry is listed that something stands in. -/
theorem mem_listed_of_get? (ht : t.Rooted) {rest : List String}
    (h : t.get? (directory ++ name :: rest) ≠ none) :
    name ∈ listed (t.listing (fun _ => none) directory) := by
  rw [List.append_cons] at h
  rw [listed_listing_of_forall fun _ _ => rfl]
  exact mem_names_iff.mpr (ht.ne_none_of_append h)

/-- What clearing a directory takes away is in an entry that may be removed. -/
theorem Takes.exists_entry (ht : t.Plain) (hresolve : t.resolve p = .ok directory)
    (hdirectory : t.get? directory = some .directory)
    (h : Takes refusals recursive p t directory l) :
    ∃ name e below, l = directory ++ name :: below ∧ p.Admits name ∧
      t.get? (directory ++ [name]) = some e ∧ (e = .directory → recursive = true) ∧
      refusals (.remove (directory ++ [name])) = none := by
  obtain ⟨name, -, hentry⟩ := exists_of_taken (fun _ => isName_of_mem_listed ht.named)
    (fun _ => way_of_resolve ht.rooted hresolve hdirectory) h
  exact ⟨name, hentry⟩

/-- Clearing entries does what their fates say, if the path of the directory leads there or nowhere. -/
theorem clearNames_eq (hnames : ∀ name ∈ names, IsName name)
    (hway : ∀ d, c.tree.approach p = .ok d → d = directory) :
    clearNames refusals recursive p c names =
      let fs := fates refusals recursive p directory c.tree names
      { tree := left directory c.tree fs
        report.removed := c.report.removed + fs.countP (·.2.isRemoved)
        report.failed := c.report.failed + fs.countP (·.2.isKept)
        events := c.events ++ fs.filterMap fun entry => entry.2.event? (p.join entry.1) } := by
  induction names generalizing c with
  | nil => simp [clearNames, fates, left]
  | cons name rest ih =>
      obtain ⟨hname, hrest⟩ := List.forall_mem_cons.mp hnames
      have hne : directory ++ [name] ≠ [] := by simp
      have hpart := Fate.partOf_leave (t := c.tree)
        (f := fate refusals recursive p directory c.tree name) hne
      rw [clearNames, List.foldl_cons, ← clearNames, clearName_eq hname hway,
        ih hrest fun d happroach => hway d (hpart.approach happroach)]
      simp only [fates_cons, left_cons, List.countP_cons, List.filterMap_cons]
      cases fate refusals recursive p directory c.tree name with
      | passed => simp [Fate.isRemoved, Fate.isKept, Fate.event?]
      | kept cause => simp [Fate.isRemoved, Fate.isKept, Fate.event?, Nat.add_assoc, Nat.add_comm 1]
      | emptied => simp [Fate.isRemoved, Fate.isKept, Fate.event?, Nat.add_assoc, Nat.add_comm 1]
      | removed => simp [Fate.isRemoved, Fate.isKept, Fate.event?, Nat.add_assoc, Nat.add_comm 1]

/-- Clearing what a directory lists does what the fates of the names say. What is not listed is counted
as kept. -/
theorem clear_eq {listing : List (Except Fault String)}
    (hnames : ∀ name ∈ listed listing, IsName name)
    (hway : ∀ d, t.approach p = .ok d → d = directory) :
    clear refusals recursive p t listing =
      let fs := fates refusals recursive p directory t (listed listing)
      { tree := left directory t fs
        report.removed := fs.countP (·.2.isRemoved)
        report.failed := (listing.filterMap fault?).length + fs.countP (·.2.isKept)
        events := (listing.filterMap fault?).map (.unlisted p) ++
          fs.filterMap fun entry => entry.2.event? (p.join entry.1) } := by
  unfold clear
  refine (clearNames_eq hnames hway).trans ?_
  simp only [Nat.zero_add, listed]

/-! ### Paths that the system does not take -/

/-- Entries whose paths the system does not take are kept and counted. -/
theorem clearNames_of_forall_not_admits (h : ∀ name ∈ names, IsName name ∧ ¬p.Admits name) :
    (clearNames refusals recursive p c names).tree = c.tree ∧
      (clearNames refusals recursive p c names).report =
        { c.report with failed := c.report.failed + names.length } := by
  induction names generalizing c with
  | nil => exact ⟨rfl, rfl⟩
  | cons name rest ih =>
      obtain ⟨⟨hname, hlong⟩, hrest⟩ := List.forall_mem_cons.mp h
      have hmissed : ∃ cause, c.tree.entryAt (p.join name) = .error cause := by
        cases hlookup : c.tree.entryAt (p.join name) with
        | error cause => exact ⟨cause, rfl⟩
        | ok e => exact absurd ((entryAt_join_eq_ok_iff hname).mp hlookup).1 hlong
      obtain ⟨cause, hmissed⟩ := hmissed
      have hstep : clearName refusals recursive p c name = c.keep (p.join name) cause := by
        unfold clearName removal
        rw [hmissed]
        rfl
      rw [clearNames, List.foldl_cons, ← clearNames, hstep, (ih hrest).1, (ih hrest).2]
      exact ⟨rfl, by simp [keep, Nat.add_assoc, Nat.add_comm 1]⟩

/-- What a directory lists are names and faults. -/
theorem length_listing (listing : List (Except Fault String)) :
    (listing.filterMap fault?).length + (listed listing).length = listing.length := by
  induction listing with
  | nil => rfl
  | cons entry rest ih =>
      unfold listed at ih ⊢
      cases entry with
      | error fault =>
          rw [List.filterMap_cons_some (f := fault?) rfl, List.filterMap_cons_none rfl,
            List.length_cons, List.length_cons, ← ih, Nat.add_right_comm]
      | ok name =>
          rw [List.filterMap_cons_none (f := fault?) rfl,
            List.filterMap_cons_some (f := Except.toOption) rfl, List.length_cons, List.length_cons,
            ← ih, Nat.add_assoc]

theorem clear_of_forall_not_admits {listing : List (Except Fault String)}
    (h : ∀ name ∈ listed listing, IsName name ∧ ¬p.Admits name) :
    (clear refusals recursive p t listing).tree = t ∧
      (clear refusals recursive p t listing).report = ⟨0, listing.length⟩ := by
  unfold clear
  refine ⟨(clearNames_of_forall_not_admits h).1, (clearNames_of_forall_not_admits h).2.trans ?_⟩
  rw [← length_listing]

end Clearing

namespace Destination

/-! ### Preparing a destination -/

variable {t u : FileTree} {refusals : Refusals} {recursive : Bool} {p : Path} {directory : Location}
  {e : Entry} {report : ClearReport} {failure : Failure} {events : List Event}

/-- A destination is prepared by making it, opening it and clearing what it lists. -/
theorem prepare_eq_ok_iff : prepare refusals t p recursive = (.ok report, u, events) ↔
    (t.makeDirectories p).1 = .ok () ∧ ∃ directory,
      (t.makeDirectories p).2.openDirectory refusals p = .ok directory ∧
      Clearing.clear refusals recursive p (t.makeDirectories p).2
        ((t.makeDirectories p).2.listing refusals directory) = ⟨u, report, events⟩ := by
  unfold prepare
  generalize t.makeDirectories p = made
  obtain ⟨result, made⟩ := made
  cases result with
  | error fault => simp
  | ok _ =>
      cases hopen : made.openDirectory refusals p with
      | error fault => simp [hopen]
      | ok directory =>
          simp only [hopen, true_and, Except.ok.injEq, exists_eq_left', Prod.mk.injEq]
          generalize Clearing.clear refusals recursive p made (made.listing refusals directory) = c
          obtain ⟨tree, cleared, reported⟩ := c
          simp only [Clearing.mk.injEq]
          exact and_left_comm

/-- A directory that is there is opened and cleared. -/
theorem prepare_eq (hresolve : t.resolve p = .ok directory)
    (hdirectory : t.get? directory = some .directory) (hlist : refusals (.list directory) = none) :
    prepare refusals t p recursive =
      let c := Clearing.clear refusals recursive p t (t.listing refusals directory)
      (.ok c.report, c.tree, c.events) := by
  have hthere := makeDirectories_of_isDirectory (isDirectory_of_resolve hresolve hdirectory)
  refine prepare_eq_ok_iff.mpr ⟨by rw [hthere], directory, ?_, by rw [hthere]⟩
  rw [hthere]
  exact openDirectory_eq_ok_iff.mpr ⟨hresolve, hdirectory, hlist⟩

/-- A directory is left as it is if the system takes the path of none of its entries. All of them are
counted. -/
theorem prepare_of_forall_not_admits (ht : t.Named) (hresolve : t.resolve p = .ok directory)
    (hdirectory : t.get? directory = some .directory) (hlist : refusals (.list directory) = none)
    (h : ∀ name ∈ t.names directory, ¬p.Admits name) :
    ∃ events, prepare refusals t p recursive =
      (.ok ⟨0, (t.listing refusals directory).length⟩, t, events) := by
  rw [prepare_eq hresolve hdirectory hlist]
  have hlisted : ∀ name ∈ Clearing.listed (t.listing refusals directory),
      IsName name ∧ ¬p.Admits name := fun name hname =>
    ⟨Clearing.isName_of_mem_listed ht hname, h name (sublist_names_of_listing.subset hname)⟩
  exact ⟨_, Prod.ext (congrArg Except.ok (Clearing.clear_of_forall_not_admits hlisted).2)
    (Prod.ext (Clearing.clear_of_forall_not_admits hlisted).1 rfl)⟩

/-- A destination that could not be prepared was not cleared. -/
theorem of_prepare_error (h : prepare refusals t p recursive = (.error failure, u, events)) :
    u = (t.makeDirectories p).2 ∧
      ((t.makeDirectories p).1 = .ok () →
        ∀ directory, (t.makeDirectories p).2.openDirectory refusals p ≠ .ok directory) ∧
      ∃ cause, failure = .destinationSetup p cause := by
  unfold prepare at h
  generalize t.makeDirectories p = made at h
  obtain ⟨result, made⟩ := made
  cases result with
  | error fault =>
      cases h
      exact ⟨rfl, nofun, fault, rfl⟩
  | ok _ =>
      cases hopen : made.openDirectory refusals p with
      | error fault =>
          simp only [hopen] at h
          cases h
          exact ⟨rfl, fun _ directory => nofun, fault, rfl⟩
      | ok directory =>
          simp only [hopen] at h
          cases h

section Plain

variable (ht : t.Plain) (h : prepare refusals t p recursive = (.ok report, u, events))

include ht h

/-- Preparing a destination in a plain tree does what the fates of its entries say. -/
theorem of_prepare_ok :
    (t.makeDirectories p).1 = .ok () ∧ ∃ directory fs,
      (t.makeDirectories p).2.resolve p = .ok directory ∧
      fs = Clearing.fates refusals recursive p directory (t.makeDirectories p).2
        (Clearing.listed ((t.makeDirectories p).2.listing refusals directory)) ∧
      u = Clearing.left directory (t.makeDirectories p).2 fs ∧
      fs.countP (·.2.isKept) ≤ report.failed ∧
      ∀ name cause, (name, Clearing.Fate.kept cause) ∈ fs → .kept (p.join name) cause ∈ events := by
  obtain ⟨hplain, -⟩ := ht.makeDirectories p
  obtain ⟨hmade, directory, hopen, hclear⟩ := prepare_eq_ok_iff.mp h
  obtain ⟨hresolve, hdirectory, -⟩ := openDirectory_eq_ok_iff.mp hopen
  rw [Clearing.clear_eq (fun _ => Clearing.isName_of_mem_listed hplain.named) fun _ =>
    Clearing.way_of_resolve hplain.rooted hresolve hdirectory] at hclear
  cases hclear
  refine ⟨hmade, directory, _, hresolve, rfl, rfl, Nat.le_add_left _ _, fun name cause hkept => ?_⟩
  exact List.mem_append_right _ (List.mem_filterMap.mpr ⟨_, hkept, rfl⟩)

end Plain

section Still

variable (ht : t.Plain)
  (h : prepare (fun _ => none) t p recursive = (.ok report, u, events))
  (hstill : u.resolve p = .ok directory)

include ht h hstill

/-- If the path of a destination still leads there when it is prepared, it has done so all along. -/
theorem of_prepare_ok_of_resolve :
    (t.makeDirectories p).2.resolve p = .ok directory ∧
      (t.makeDirectories p).2.get? directory = some .directory ∧ u.approach p = .ok directory ∧
      ∃ fs, fs = Clearing.fates (fun _ => none) recursive p directory (t.makeDirectories p).2
          (Clearing.listed ((t.makeDirectories p).2.listing (fun _ => none) directory)) ∧
        u = Clearing.left directory (t.makeDirectories p).2 fs ∧
        fs.countP (·.2.isKept) ≤ report.failed ∧
        ∀ name cause, (name, Clearing.Fate.kept cause) ∈ fs → .kept (p.join name) cause ∈ events := by
  obtain ⟨hplain, -⟩ := ht.makeDirectories p
  obtain ⟨hmade, l, fs, hresolve, hfs, rfl, hrest⟩ := of_prepare_ok ht h
  have hu : (Clearing.left l (t.makeDirectories p).2 fs).Plain := Clearing.plain_left hplain
  have hsame := hu.resolve_within hplain Clearing.partOf_left.within hstill
  rw [hresolve] at hsame
  cases hsame
  have hdirectory := ht.directory_of_makeDirectories (Prod.ext hmade rfl) hresolve
  exact ⟨hresolve, hdirectory,
    hu.rooted.approach_of_resolve hstill (Clearing.get?_left_self.trans hdirectory),
    fs, hfs, rfl, hrest⟩

/-- What it leads to is a directory. -/
theorem directory_left : u.get? directory = some .directory := by
  obtain ⟨-, hdirectory, -, fs, -, rfl, -⟩ := of_prepare_ok_of_resolve ht h hstill
  exact Clearing.get?_left_self.trans hdirectory

/-- Then what is left right in it are directories that were not asked for, and entries whose paths the
system does not take. -/
theorem of_entry_left {name : String} (hadmits : p.Admits name)
    (hentry : u.get? (directory ++ [name]) = some e) : e = .directory ∧ recursive = false := by
  obtain ⟨hplain, -⟩ := ht.makeDirectories p
  obtain ⟨-, hdirectory, happroach, fs, rfl, rfl, -⟩ := of_prepare_ok_of_resolve ht h hstill
  have hlisted := Clearing.mem_listed_of_get? hplain.rooted
    ((Clearing.partOf_left.entry _ _ hentry).trans_ne (Option.some_ne_none _))
  have hvalid := Clearing.isName_of_mem_listed hplain.named hlisted
  by_contra hdue
  refine Clearing.verdict_ne_removed_of_get?_left hlisted hvalid hadmits hdirectory happroach hentry ?_
  rw [Clearing.verdict, if_neg hdue]

/-- The files that are left right in it are counted and reported. -/
theorem of_file_left {name : String} {bytes : ByteArray}
    (hfile : u.get? (directory ++ [name]) = some (.file bytes)) :
    (t.makeDirectories p).2.get? (directory ++ [name]) = some (.file bytes) ∧ ¬p.Admits name ∧
      0 < report.failed ∧ ∃ cause, .kept (p.join name) cause ∈ events := by
  obtain ⟨hplain, -⟩ := ht.makeDirectories p
  have hlong : ¬p.Admits name := by
    intro hadmits
    obtain ⟨hdirectory, -⟩ := of_entry_left ht h hstill hadmits hfile
    cases hdirectory
  obtain ⟨hresolve, hdirectory, -, fs, rfl, rfl, hfailed, hevents⟩ :=
    of_prepare_ok_of_resolve ht h hstill
  have hbefore := Clearing.partOf_left.entry _ _ hfile
  have hlisted := Clearing.mem_listed_of_get? hplain.rooted
    (hbefore.trans_ne (Option.some_ne_none _))
  have hvalid := Clearing.isName_of_mem_listed hplain.named hlisted
  obtain ⟨cause, hkept⟩ := Clearing.exists_kept_of_get?_left hlisted hvalid (Or.inl rfl)
    (fun _ => Clearing.way_of_resolve hplain.rooted hresolve hdirectory) hfile
  exact ⟨hbefore, hlong, Nat.lt_of_lt_of_le (List.countP_pos_iff.mpr ⟨_, hkept, rfl⟩) hfailed, cause,
    hevents name cause hkept⟩

end Still

/-- What is left of a tree by preparing a destination: it is made, is where its path leads to, and
is cleared. -/
def Prepared (refusals : Refusals) (recursive : Bool) (p : Path) (t u : FileTree) : Prop :=
  (t.makeDirectories p).1 = .ok () ∧ ∃ directory,
    (t.makeDirectories p).2.resolve p = .ok directory ∧
    Clearing.Leaves (Clearing.Takes refusals recursive p (t.makeDirectories p).2 directory)
      (t.makeDirectories p).2 u

theorem prepared_of_prepare_ok (ht : t.Plain)
    (h : prepare refusals t p recursive = (.ok report, u, events)) :
    Prepared refusals recursive p t u := by
  obtain ⟨hmade, directory, fs, hresolve, rfl, rfl, -⟩ := of_prepare_ok ht h
  exact ⟨hmade, directory, hresolve, Clearing.leaves_left (ht.makeDirectories p).1⟩

end Destination

end Understudy
