import Understudy.Proofs.FileTree

/-!
# Understudy.Proofs.Ways

Walks through trees that may hold links. A walk that follows links goes segment by segment, each
time to a location or on through a link (`walkWith_cons`). So a walk over some segments and then
others is a walk over the first and one over the others from where it ends, with fewer links left
(`walk_append`, `exists_of_walk_append`). It ends at no link if every entry stands in a directory
(`Rooted.isEnd_of_walk`), and it goes the same way in every tree that has the same directories and
links (`Keeps.walk`).
-/

namespace Understudy.FileTree

/-- Where one segment leads that is walked from a location. -/
inductive Next
  | reached (l : Location)
  /-- A link: what it holds is to be walked from a location. -/
  | through (start : Location) (segments : List String)

/-- The next step of a walk that follows links. -/
def next (t : FileTree) (here : Location) (segment : String) : Except Fault Next :=
  match t.get? here with
  | some .directory =>
    if segment = "" ∨ segment = "." then .ok (.reached here)
    else if segment = ".." then .ok (.reached here.dropLast)
    else if maxNameBytes < segment.utf8ByteSize then .error .nameTooLong
    else
      match t.get? (here ++ [segment]) with
      | none => .error .notFound
      | some (.link target) => .ok (.through (linkStart here ⟨target⟩) (Path.mk target).segments)
      | some _ => .ok (.reached (here ++ [segment]))
  | some _ => .error .notADirectory
  | none => .error .notFound

variable {t u : FileTree} {here l m : Location} {segment : String} {before after : List String}
  {onLink : Location → List String → Except Fault Location} {links : Nat}

/-- A step that is not the last one follows links in any case. -/
theorem walkWith_cons_of {follow : Bool} {rest : List String} (h : ¬(rest = [] ∧ follow = false)) :
    t.walkWith follow onLink here (segment :: rest) = t.next here segment >>= fun
      | .reached l => t.walkWith follow onLink l rest
      | .through start segments => onLink start (segments ++ rest) := by
  rw [walkWith, next]
  cases t.get? here with
  | none => rfl
  | some e =>
      cases e with
      | file bytes => rfl
      | link target => rfl
      | directory =>
          dsimp only
          split
          · rfl
          · split
            · rfl
            · split
              · rfl
              · split <;> simp_all [bind, Except.bind]

theorem walkWith_cons (t : FileTree) (onLink : Location → List String → Except Fault Location)
    (here : Location) (segment : String) (rest : List String) :
    t.walkWith true onLink here (segment :: rest) = t.next here segment >>= fun
      | .reached l => t.walkWith true onLink l rest
      | .through start segments => onLink start (segments ++ rest) :=
  walkWith_cons_of (by simp)

/-! ### Segments that follow others -/

/-- What follows is walked from where the walk before it ends, if it can be walked from there through
no link. -/
theorem walkWith_append {onLink' : Location → List String → Except Fault Location}
    (hafter : ∀ onLink, t.walkWith true onLink l after = .ok m)
    (honLink : ∀ start segments,
      onLink start segments = .ok l → onLink' start (segments ++ after) = .ok m)
    (h : t.walkWith true onLink here before = .ok l) :
    t.walkWith true onLink' here (before ++ after) = .ok m := by
  induction before generalizing here with
  | nil =>
      cases h
      exact hafter onLink'
  | cons segment rest ih =>
      rw [walkWith_cons, bind_eq_ok_iff] at h
      obtain ⟨step, hstep, h⟩ := h
      rw [List.cons_append, walkWith_cons, hstep]
      cases step with
      | reached k => exact ih h
      | through start segments =>
          have hrest := honLink start _ h
          rwa [List.append_assoc] at hrest

theorem walk_append (hafter : ∀ onLink, t.walkWith true onLink l after = .ok m)
    (h : t.walk true links here before = .ok l) :
    t.walk true links here (before ++ after) = .ok m := by
  induction links generalizing here before with
  | zero => exact walkWith_append hafter (fun _ _ hnone => by cases hnone) h
  | succ links ih => exact walkWith_append hafter (fun _ _ => ih) h

/-- A walk over segments that follow others is one over the others, and one on from where it ends. -/
theorem exists_of_walkWith_append
    (honLink : ∀ start segments, onLink start (segments ++ after) = .ok m →
      ∃ l onLink', onLink start segments = .ok l ∧ t.walkWith true onLink' l after = .ok m)
    (h : t.walkWith true onLink here (before ++ after) = .ok m) :
    ∃ l onLink', t.walkWith true onLink here before = .ok l ∧
      t.walkWith true onLink' l after = .ok m := by
  induction before generalizing here with
  | nil => exact ⟨here, onLink, rfl, h⟩
  | cons segment rest ih =>
      rw [List.cons_append, walkWith_cons, bind_eq_ok_iff] at h
      obtain ⟨step, hstep, h⟩ := h
      rw [walkWith_cons, hstep]
      cases step with
      | reached k => exact ih h
      | through start segments =>
          refine honLink start _ ?_
          rwa [List.append_assoc]

theorem exists_of_walk_append (h : t.walk true links here (before ++ after) = .ok m) :
    ∃ l onLink, t.walk true links here before = .ok l ∧ t.walkWith true onLink l after = .ok m := by
  induction links generalizing here before with
  | zero => exact exists_of_walkWith_append (fun _ _ hnone => by cases hnone) h
  | succ links ih => exact exists_of_walkWith_append (fun _ _ => ih) h

/-! ### Single steps -/

/-- A step is taken in a directory. -/
theorem directory_of_walkWith_cons (h : t.walkWith true onLink here (segment :: after) = .ok m) :
    t.get? here = some .directory := by
  rw [walkWith_cons, bind_eq_ok_iff] at h
  obtain ⟨step, hstep, -⟩ := h
  unfold next at hstep
  split at hstep
  · assumption
  · cases hstep
  · cases hstep

theorem directory_of_walk_cons (h : t.walk true links here (segment :: after) = .ok m) :
    t.get? here = some .directory := by
  cases links with
  | zero => exact directory_of_walkWith_cons h
  | succ links => exact directory_of_walkWith_cons h

theorem walkWith_empty (h : t.get? here = some .directory) :
    t.walkWith true onLink here ("" :: after) = t.walkWith true onLink here after := by
  have hstep : t.next here "" = .ok (.reached here) := by simp [next, h]
  rw [walkWith_cons, hstep]
  rfl

/-- The name that is walked from a directory is that of an entry. -/
theorem of_walkWith_name (hname : IsName segment)
    (h : t.walkWith true onLink here (segment :: after) = .ok m) :
    segment.utf8ByteSize ≤ maxNameBytes ∧ t.get? (here ++ [segment]) ≠ none := by
  obtain ⟨hempty, hdot, hup, -⟩ := hname
  have hdirectory := directory_of_walkWith_cons h
  rw [walkWith_cons, bind_eq_ok_iff] at h
  obtain ⟨step, hstep, -⟩ := h
  unfold next at hstep
  simp only [hdirectory, hempty, hdot, hup, or_self, if_false] at hstep
  split at hstep
  · cases hstep
  · rename_i hlength
    refine ⟨Nat.le_of_not_lt hlength, fun hnone => ?_⟩
    rw [hnone] at hstep
    cases hstep

/-- A name leads to the entry that has it, unless that is a link. -/
theorem walkWith_name (hname : IsName segment) (hdirectory : t.get? here = some .directory)
    (hlength : segment.utf8ByteSize ≤ maxNameBytes) {e : Entry}
    (he : t.get? (here ++ [segment]) = some e) (hlink : e.isLink = false) :
    t.walkWith true onLink here [segment] = .ok (here ++ [segment]) := by
  obtain ⟨hempty, hdot, hup, -⟩ := hname
  have hstep : t.next here segment = .ok (.reached (here ++ [segment])) := by
    unfold next
    simp only [hdirectory, hempty, hdot, hup, or_self, if_false, if_neg (Nat.not_lt.mpr hlength), he]
    cases e with
    | file bytes => rfl
    | directory => rfl
    | link target => cases hlink
  rw [walkWith_cons, hstep]
  rfl

/-! ### A link at the end -/

/-- Whether a directory holds an entry that can be looked up under its name. -/
def Holds (t : FileTree) (directory : Location) (name : String) : Prop :=
  t.get? directory = some .directory ∧ name.utf8ByteSize ≤ maxNameBytes ∧
    t.get? (directory ++ [name]) ≠ none

/-- The last name is looked up, and what has it is not followed. -/
theorem walkWith_singleton_eq_ok_iff (hname : IsName segment) :
    t.walkWith false onLink here [segment] = .ok l ↔ t.Holds here segment ∧ l = here ++ [segment] := by
  obtain ⟨hempty, hdot, hup, -⟩ := hname
  unfold walkWith Holds
  cases t.get? here with
  | none => simp
  | some e =>
      cases e with
      | file bytes => simp
      | link target => simp
      | directory =>
          by_cases hlength : maxNameBytes < segment.utf8ByteSize
          · simp [hempty, hdot, hup, hlength, Nat.not_le.mpr hlength]
          · have hshort := Nat.le_of_not_lt hlength
            cases t.get? (here ++ [segment]) with
            | none => simp [hempty, hdot, hup, hlength]
            | some e => cases e <;> simp [hempty, hdot, hup, hlength, hshort, walkWith, eq_comm]

/-- A walk that does not follow the last name is one that follows all before it. -/
theorem walkWith_concat_eq_ok_iff {onLink' : Location → List String → Except Fault Location}
    (hname : IsName segment)
    (honLink : ∀ start segments, onLink start (segments ++ [segment]) = .ok l ↔
      ∃ d, onLink' start segments = .ok d ∧ t.Holds d segment ∧ l = d ++ [segment]) :
    t.walkWith false onLink here (before ++ [segment]) = .ok l ↔
      ∃ d, t.walkWith true onLink' here before = .ok d ∧ t.Holds d segment ∧ l = d ++ [segment] := by
  induction before generalizing here with
  | nil =>
      rw [List.nil_append, walkWith_singleton_eq_ok_iff hname]
      simp [walkWith]
  | cons first rest ih =>
      rw [List.cons_append, walkWith_cons_of (by simp), walkWith_cons]
      cases t.next here first with
      | error fault => simp [bind, Except.bind]
      | ok step =>
          cases step with
          | reached k => exact ih
          | through start segments =>
              have hrest := honLink start (segments ++ rest)
              rwa [List.append_assoc] at hrest

theorem walk_concat_eq_ok_iff (hname : IsName segment) :
    t.walk false links here (before ++ [segment]) = .ok l ↔
      ∃ d, t.walk true links here before = .ok d ∧ t.Holds d segment ∧ l = d ++ [segment] := by
  induction links generalizing here before with
  | zero => exact walkWith_concat_eq_ok_iff hname fun _ _ => by simp
  | succ links ih => exact walkWith_concat_eq_ok_iff hname fun _ _ => ih

/-! ### Where walks end -/

/-- Whether an entry stands at a location that is not a link. -/
def IsEnd (t : FileTree) (l : Location) : Prop := ∃ e, t.get? l = some e ∧ e.isLink = false

theorem isEnd_of_directory (h : t.get? l = some .directory) : t.IsEnd l := ⟨_, h, rfl⟩

/-- A step ends at no link: it goes on through a link, and there is more to walk then. -/
theorem Rooted.of_next (ht : t.Rooted) {step : Next} (h : t.next here segment = .ok step) :
    match step with
    | .reached k => t.IsEnd k
    | .through _ segments => segments ≠ [] := by
  unfold next at h
  split at h
  case h_1 hhere =>
    split at h
    · cases h
      exact isEnd_of_directory hhere
    · split at h
      · cases h
        exact isEnd_of_directory (ht.get?_dropLast hhere)
      · split at h
        · cases h
        · split at h
          · cases h
          · cases h
            simp [Path.segments, List.splitOn_ne_nil]
          · rename_i e hlink hentry
            cases h
            refine ⟨e, hentry, ?_⟩
            cases e with
            | file bytes => rfl
            | directory => rfl
            | link target => exact absurd rfl (hlink target)
  case h_2 => cases h
  case h_3 => cases h

theorem Rooted.isEnd_of_walkWith (ht : t.Rooted)
    (honLink : ∀ start segments, segments ≠ [] → onLink start segments = .ok l → t.IsEnd l)
    (hsteps : before ≠ [] ∨ t.IsEnd here) (h : t.walkWith true onLink here before = .ok l) :
    t.IsEnd l := by
  induction before generalizing here with
  | nil =>
      cases h
      exact hsteps.resolve_left (· rfl)
  | cons segment rest ih =>
      rw [walkWith_cons, bind_eq_ok_iff] at h
      obtain ⟨step, hstep, h⟩ := h
      have hend := ht.of_next hstep
      cases step with
      | reached k => exact ih (Or.inr hend) h
      | through start segments =>
          exact honLink start _ (List.append_ne_nil_of_left_ne_nil hend rest) h

theorem Rooted.isEnd_of_walk (ht : t.Rooted) (hsteps : before ≠ [])
    (h : t.walk true links here before = .ok l) : t.IsEnd l := by
  induction links generalizing here before with
  | zero => exact ht.isEnd_of_walkWith (fun _ _ _ hnone => by cases hnone) (Or.inl hsteps) h
  | succ links ih => exact ht.isEnd_of_walkWith (fun _ _ hne => ih hne) (Or.inl hsteps) h

/-- No path leads to a link, or to anything below one. -/
theorem Rooted.not_prefix_of_resolve (ht : t.Rooted) {p : Path} {target : String}
    (hlink : t.get? here = some (.link target)) (h : t.resolve p = .ok l) : ¬here <+: l := by
  have hsegments : p.segments ≠ [] := by simp [Path.segments, List.splitOn_ne_nil]
  obtain ⟨_, -, hwalk⟩ := bind_eq_ok_iff.mp h
  obtain ⟨e, he, hend⟩ := ht.isEnd_of_walk hsegments hwalk
  intro hprefix
  obtain ⟨rest, rfl⟩ := hprefix
  cases rest with
  | nil =>
      rw [List.append_nil, hlink] at he
      cases he
      cases hend
  | cons name rest =>
      have hdirectory := ht.get?_of_append_cons (he.trans_ne (Option.some_ne_none e))
      rw [hlink] at hdirectory
      cases hdirectory

/-! ### Walks in other trees -/

/-- The second tree has the directories and the links of the first one, and other files at most. -/
structure Keeps (t u : FileTree) : Prop where
  workDir : t.workDir = u.workDir
  directory : ∀ l, t.get? l = some .directory → u.get? l = some .directory
  link : ∀ l target, t.get? l = some (.link target) → u.get? l = some (.link target)
  file : ∀ l bytes, t.get? l = some (.file bytes) → ∃ bytes', u.get? l = some (.file bytes')

theorem Keeps.refl (t : FileTree) : t.Keeps t :=
  ⟨rfl, fun _ h => h, fun _ _ h => h, fun _ bytes h => ⟨bytes, h⟩⟩

/-- A file that is put where there is neither a directory nor a link is another file at most. -/
theorem Keeps.set (h : t.Keeps u) (hl : l ≠ []) (hfree : t.get? l ≠ some .directory)
    (hlink : ∀ target, t.get? l ≠ some (.link target)) (bytes : ByteArray) :
    t.Keeps (u.set l (.file bytes)) where
  workDir := h.workDir
  directory := by
    intro k hk
    have hne : k ≠ l := fun heq => hfree (heq ▸ hk)
    rw [get?_set u hl, if_neg hne, h.directory k hk]
  link := by
    intro k target hk
    have hne : k ≠ l := fun heq => hlink target (heq ▸ hk)
    rw [get?_set u hl, if_neg hne, h.link k target hk]
  file := by
    intro k old hk
    rw [get?_set u hl]
    split
    · exact ⟨bytes, rfl⟩
    · exact h.file k old hk

theorem Keeps.next (h : t.Keeps u) {step : Next} (hstep : t.next here segment = .ok step) :
    u.next here segment = .ok step := by
  unfold FileTree.next at hstep ⊢
  split at hstep
  · rename_i hhere
    rw [h.directory here hhere]
    dsimp only
    split at hstep
    · rename_i hstay
      rwa [if_pos hstay]
    · rename_i hstay
      rw [if_neg hstay]
      split at hstep
      · rename_i hup
        rwa [if_pos hup]
      · rename_i hup
        rw [if_neg hup]
        split at hstep
        · cases hstep
        · rename_i hlength
          rw [if_neg hlength]
          cases hentry : t.get? (here ++ [segment]) with
          | none => simp [hentry] at hstep
          | some e =>
              cases e with
              | file bytes =>
                  obtain ⟨bytes', hfile⟩ := h.file _ bytes hentry
                  simpa [hentry, hfile] using hstep
              | directory => simpa [hentry, h.directory _ hentry] using hstep
              | link target => simpa [hentry, h.link _ target hentry] using hstep
  · cases hstep
  · cases hstep

theorem Keeps.walkWith (h : t.Keeps u) {onLink' : Location → List String → Except Fault Location}
    (honLink : ∀ start segments, onLink start segments = .ok l → onLink' start segments = .ok l)
    (hwalk : t.walkWith true onLink here before = .ok l) :
    u.walkWith true onLink' here before = .ok l := by
  induction before generalizing here with
  | nil => exact hwalk
  | cons segment rest ih =>
      rw [walkWith_cons, bind_eq_ok_iff] at hwalk
      obtain ⟨step, hstep, hwalk⟩ := hwalk
      rw [walkWith_cons, h.next hstep]
      cases step with
      | reached k => exact ih hwalk
      | through start segments => exact honLink start _ hwalk

theorem Keeps.walk (h : t.Keeps u) (hwalk : t.walk true links here before = .ok l) :
    u.walk true links here before = .ok l := by
  induction links generalizing here before with
  | zero => exact h.walkWith (fun _ _ hnone => by cases hnone) hwalk
  | succ links ih => exact h.walkWith (fun _ _ => ih) hwalk

/-- A path that leads somewhere leads there as well. -/
theorem Keeps.resolve (h : t.Keeps u) {p : Path} (hresolve : t.resolve p = .ok l) :
    u.resolve p = .ok l := by
  unfold FileTree.resolve at hresolve ⊢
  rw [bind_eq_ok_iff] at hresolve ⊢
  obtain ⟨_, hcheck, hwalk⟩ := hresolve
  rw [startOf_eq h.workDir] at hwalk
  exact ⟨(), hcheck, h.walk hwalk⟩

end Understudy.FileTree
