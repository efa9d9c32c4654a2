import Mathlib.Data.List.Basic
import Understudy.MockModule
import Understudy.Proofs.Operations

/-!
# Understudy.Proofs.Resolution

The import of the type leads back to the declaration. A reader of the module starts in the directory
of the module and **follows** the segments of the specifier one by one, on names alone
(`Location.follow?`). What a specifier climbs and then descends is the rest of each side behind the
longest start that the two have in common (`Specifier.isLongestShared_take`): the ascents undo the
one rest (`Location.follow?_ascents`), the names are the other (`Location.follow?_names`).

Whether `./` is put in front of a specifier is decided by its first two characters and not by its
first segment. So a specifier is relative but for one case: it is that of an entry below the
directory of the module, and the first name on the way down starts with two dots
(`Specifier.head?_segments_relative`).
-/

namespace Understudy

open FileTree

/-! ### Following segments -/

namespace Location

variable {here there : Location} {segments : List String}

/-- The parts of the path of a location are its names. -/
theorem parts_path {l : Location} (hl : ∀ name ∈ l, IsName name) :
    l.path.parts = .root :: l.map .name := by
  have hpart : ∀ name ∈ l, Path.part? name = some (.name name) := by
    intro name hname
    obtain ⟨hempty, hcurrent, hparent, -⟩ := hl name hname
    simp [Path.part?, hempty, hcurrent, hparent]
  have hparts : l.filterMap Path.part? = l.map .name :=
    List.filterMap_eq_map_iff_forall_eq_some.mpr hpart
  rw [Path.parts, if_pos l.isAbsolute_path]
  by_cases hne : l = []
  · rw [hne]
    decide
  · rw [segments_path hne hl, List.filterMap_cons, ← hparts]
    rfl

/-- Different locations have different paths. -/
theorem path_inj {l m : Location} (hl : ∀ name ∈ l, IsName name) (hm : ∀ name ∈ m, IsName name)
    (h : l.path = m.path) : l = m := by
  have hparts := congrArg Path.parts h
  rw [parts_path hl, parts_path hm] at hparts
  exact List.map_injective_iff.mpr (fun _ _ => Path.Part.name.inj) (List.cons.inj hparts).2

end Location

/-- A name among the parts of a path is one of its segments, and one that an entry can have. -/
theorem Path.segment_of_mem_parts {p : Path} {name : String} (h : .name name ∈ p.parts) :
    name ∈ p.segments ∧ IsName name := by
  have hmem : .name name ∈ p.segments.filterMap part? := by
    unfold parts at h
    split at h
    · simpa using h
    · split at h
      · simpa using h
      · exact h
  obtain ⟨segment, hsegment, hpart⟩ := List.mem_filterMap.mp hmem
  unfold part? at hpart
  split at hpart
  · cases hpart
  · rename_i hdots
    split at hpart
    · cases hpart
    · rename_i hparent
      obtain ⟨hempty, hcurrent⟩ := not_or.mp hdots
      cases hpart
      exact ⟨hsegment, hempty, hcurrent, hparent, not_mem_of_mem_segments hsegment⟩

theorem Path.isName_of_mem_parts {p : Path} {name : String} (h : .name name ∈ p.parts) :
    IsName name := (segment_of_mem_parts h).2

/-- The names that the parts of a path are made of are names that entries can have. -/
theorem isName_of_parts {p : Path} {l : Location} (h : p.parts = .root :: l.map .name) :
    ∀ name ∈ l, IsName name := by
  intro name hname
  refine Path.isName_of_mem_parts (p := p) ?_
  rw [h]
  exact List.mem_cons_of_mem _ (List.mem_map_of_mem hname)

/-! ### The longest shared start -/

namespace Specifier

section Shared

variable {α β : Type} [DecidableEq α] [DecidableEq β]

theorem sharedLength_cons (a b : α) (as bs : List α) :
    sharedLength (a :: as) (b :: bs) = if a = b then sharedLength as bs + 1 else 0 := rfl

theorem sharedLength_map {f : α → β} (hf : Function.Injective f) (as bs : List α) :
    sharedLength (as.map f) (bs.map f) = sharedLength as bs := by
  induction as generalizing bs with
  | nil => simp [sharedLength]
  | cons a as ih =>
      cases bs with
      | nil => simp [sharedLength]
      | cons b bs =>
          simp only [List.map_cons, sharedLength_cons, hf.eq_iff, ih]

theorem take_sharedLength (as bs : List α) :
    as.take (sharedLength as bs) = bs.take (sharedLength as bs) := by
  induction as generalizing bs with
  | nil => simp [sharedLength]
  | cons a as ih =>
      cases bs with
      | nil => simp [sharedLength]
      | cons b bs =>
          rw [sharedLength_cons]
          split
          · rename_i heq
            rw [heq, List.take_succ_cons, List.take_succ_cons, ih]
          · rw [List.take_zero, List.take_zero]

/-- What two lists share is no longer than either. -/
theorem sharedLength_le (as bs : List α) :
    sharedLength as bs ≤ as.length ∧ sharedLength as bs ≤ bs.length := by
  induction as generalizing bs with
  | nil => simp [sharedLength]
  | cons a as ih =>
      cases bs with
      | nil => simp [sharedLength]
      | cons b bs =>
          rw [sharedLength_cons]
          split
          · exact ⟨Nat.succ_le_succ (ih bs).1, Nat.succ_le_succ (ih bs).2⟩
          · exact ⟨Nat.zero_le _, Nat.zero_le _⟩

theorem length_le_sharedLength {other as bs : List α} (ha : other <+: as) (hb : other <+: bs) :
    other.length ≤ sharedLength as bs := by
  induction other generalizing as bs with
  | nil => exact Nat.zero_le _
  | cons c other ih =>
      obtain ⟨as', rfl, has⟩ := List.cons_prefix_iff.mp ha
      obtain ⟨bs', rfl, hbs⟩ := List.cons_prefix_iff.mp hb
      rw [sharedLength_cons, if_pos rfl]
      exact Nat.succ_le_succ (ih has hbs)

end Shared

end Specifier

/-! ### The route between two locations -/

namespace Location

open Specifier

/-- The segments that lead from a location to another one: up to where the two part, and down. -/
def route (here there : Location) : List String :=
  List.replicate (here.length - sharedLength there here) ".." ++
    there.drop (sharedLength there here)

variable {here there : Location}

theorem climb_eq_route : climb (.root :: here.map .name) (.root :: there.map .name) =
    route here there := by
  have hshared : sharedLength (Path.Part.root :: there.map .name) (.root :: here.map .name) =
      sharedLength there here + 1 := by
    rw [sharedLength_cons, if_pos rfl, sharedLength_map fun _ _ h => Path.Part.name.inj h]
  have htext : Path.Part.text ∘ Path.Part.name = id := rfl
  unfold climb
  dsimp only
  rw [hshared]
  simp [route, ← List.map_drop, htext]

theorem not_mem_of_mem_route (h : ∀ name ∈ there, IsName name) :
    ∀ segment ∈ here.route there, '/' ∉ segment.toList := by
  intro segment hsegment
  rcases List.mem_append.mp hsegment with hascent | hname
  · rw [List.eq_of_mem_replicate hascent]
    decide
  · exact (h segment (List.mem_of_mem_drop hname)).2.2.2

theorem route_append (here below : Location) : route here (here ++ below) = below := by
  have hshared : sharedLength (here ++ below) here = here.length :=
    Nat.le_antisymm (sharedLength_le _ here).2
      (length_le_sharedLength (List.prefix_append here below) List.prefix_rfl)
  rw [route, hshared, Nat.sub_self, List.replicate_zero, List.nil_append, List.drop_left]

/-- A route to what is not below starts with an ascent. -/
theorem exists_route_of_not_prefix (h : ¬here <+: there) :
    ∃ rest, route here there = ".." :: rest := by
  have hlt : sharedLength there here < here.length := by
    rw [Nat.lt_iff_le_and_not_ge]
    refine ⟨(sharedLength_le there here).2, fun hle => h ?_⟩
    -- otherwise the two share all of the start
    rw [← List.take_of_length_le hle, ← take_sharedLength]
    exact List.take_prefix _ there
  obtain ⟨n, hn⟩ := Nat.exists_eq_add_one_of_ne_zero (Nat.sub_ne_zero_of_lt hlt)
  exact ⟨_, by rw [route, hn, List.replicate_succ, List.cons_append]⟩

end Location

/-! ### The text of a specifier -/

namespace Specifier

/-- Whether a text starts with two dots. -/
def StartsWithDots (text : String) : Prop := "..".toList <+: text.toList

instance (text : String) : Decidable (StartsWithDots text) :=
  inferInstanceAs (Decidable ("..".toList <+: text.toList))

/-- Segments put together start with two dots if the first one does. -/
theorem startsWithDots_intercalate_iff {first : String} {rest : List String} :
    StartsWithDots ("/".intercalate (first :: rest)) ↔ StartsWithDots first := by
  by_cases hrest : rest = []
  · rw [hrest, String.intercalate_singleton]
  · have hseparated : ∀ chars more : List Char,
        ['.', '.'] <+: chars ++ '/' :: more ↔ ['.', '.'] <+: chars := by
      intro chars more
      match chars with
      | [] => simp
      | [c] => simp
      | c :: d :: chars => simp
    have htext : ("/".intercalate (first :: rest)).toList =
        first.toList ++ '/' :: ("/".intercalate rest).toList := by
      simp [String.intercalate_cons_of_ne_nil hrest]
    rw [StartsWithDots, htext]
    exact hseparated _ _

/-- A specifier is segments put together, with a `.` before them unless the first one starts with two
dots. -/
theorem ofSegments_cons (first : String) (rest : List String) :
    ofSegments (first :: rest) =
      "/".intercalate ((if StartsWithDots first then [] else ["."]) ++ first :: rest) := by
  have hjoined : "..".toList.isPrefixOf ("/".intercalate (first :: rest)).toList = true ↔
      StartsWithDots first := by
    rw [List.isPrefixOf_iff_prefix]
    exact startsWithDots_intercalate_iff
  unfold ofSegments
  dsimp only
  by_cases hdots : StartsWithDots first
  · rw [if_pos (hjoined.mpr hdots), if_pos hdots, List.nil_append]
  · rw [if_neg (hjoined.not.mpr hdots), if_neg hdots, List.singleton_append,
      String.intercalate_cons_cons]
    rfl

/-- What is seen from a directory is reached by the route between the two. -/
theorem relative_eq {target base : Path} {dirs names : Location}
    (hbase : base.parts = .root :: dirs.map .name)
    (htarget : target.parts = .root :: names.map .name) :
    relative target base = ofSegments (dirs.route names) := by
  have hshared : sharedLength target.parts base.parts ≠ 0 := by
    rw [hbase, htarget, sharedLength_cons, if_pos rfl]
    exact Nat.succ_ne_zero _
  rw [relative, if_neg hshared, hbase, htarget, Location.climb_eq_route]

end Specifier

namespace Declaration

open Specifier

variable {d : Declaration} {layout : Layout} {directory : Path} {dirs names : Location}
  {last : String}

end Declaration

/-! ### The start of a specifier -/

namespace Specifier

theorem head?_segments_ofSegments {first : String} {rest : List String}
    (h : ∀ segment ∈ first :: rest, '/' ∉ segment.toList) :
    (Path.mk (ofSegments (first :: rest))).segments.head? =
      some (if StartsWithDots first then first else ".") := by
  rw [ofSegments_cons]
  split
  · rw [List.nil_append, Path.segments_intercalate (List.cons_ne_nil _ _) h]
    rfl
  · rw [List.singleton_append, Path.segments_intercalate (List.cons_ne_nil _ _)]
    · rfl
    · exact List.forall_mem_cons.mpr ⟨by decide, h⟩

/-- **How a specifier starts.** As seen from a directory, a target that is not below it is named by a
specifier that starts with a `..`, and any other one by a specifier that starts with a `.`. The only
exception is a way down that starts with two dots. There the first segment is the first name on the
way, and so the specifier is not relative. -/
theorem head?_segments_relative {target base : Path} {dirs names : Location}
    (hbase : base.parts = .root :: dirs.map .name)
    (htarget : target.parts = .root :: names.map .name) :
    ∃ first, (Path.mk (relative target base)).segments.head? = some first ∧
      (first = ".." ↔ ¬dirs <+: names) ∧
      (first = "." ↔ dirs <+: names ∧
        ∀ name rest, names = dirs ++ name :: rest → ¬StartsWithDots name) ∧
      ∀ name rest, names = dirs ++ name :: rest → StartsWithDots name → first = name := by
  have hnames : ∀ name ∈ names, IsName name := isName_of_parts htarget
  rw [relative_eq hbase htarget]
  by_cases hbelow : dirs <+: names
  · obtain ⟨below, rfl⟩ := hbelow
    rw [Location.route_append]
    cases below with
    | nil =>
        have hhead : (Path.mk (ofSegments [])).segments.head? = some "." := by decide
        refine ⟨".", hhead, ?_, ?_, ?_⟩
        · simp
        · simp
        · simp
    | cons name rest =>
        have hslash : ∀ segment ∈ name :: rest, '/' ∉ segment.toList := fun segment h =>
          (hnames segment (List.mem_append_right _ h)).2.2.2
        obtain ⟨-, hcurrent, hparent, -⟩ := hnames name (by simp)
        refine ⟨_, head?_segments_ofSegments hslash, ?_⟩
        by_cases hdots : StartsWithDots name
        · simp [hdots, hcurrent, hparent]
        · simp [hdots]
  · obtain ⟨rest, hroute⟩ := Location.exists_route_of_not_prefix hbelow
    have hslash : ∀ segment ∈ ".." :: rest, '/' ∉ segment.toList :=
      hroute ▸ Location.not_mem_of_mem_route hnames
    have hdots : StartsWithDots ".." := by decide
    rw [hroute]
    refine ⟨_, head?_segments_ofSegments hslash, ?_⟩
    rw [if_pos hdots]
    refine ⟨by simp [hbelow], by simp [hbelow], ?_⟩
    intro name below hnot
    exact absurd ⟨name :: below, hnot.symm⟩ hbelow

/-- One dot at the start of a name, or two at the start of a later one, do no harm. -/
theorem head?_segments_relative_hidden :
    (Path.mk (relative (Location.path ["a", ".b", "..c.ts"]) (Location.path ["a"]))).segments.head? =
      some "." := by
  have hbase : (Location.path ["a"]).parts = .root :: ["a"].map .name :=
    Location.parts_path (by decide)
  have htarget : (Location.path ["a", ".b", "..c.ts"]).parts =
      .root :: ["a", ".b", "..c.ts"].map .name := Location.parts_path (by decide)
  obtain ⟨first, hfirst, -, hcurrent, -⟩ := head?_segments_relative hbase htarget
  rw [hfirst, hcurrent.mpr]
  refine ⟨by decide, ?_⟩
  intro name rest h
  -- the first name below `/a` is `.b`
  obtain ⟨rfl, -⟩ := List.cons.inj (List.cons.inj h).2
  decide

/-- The specifier of `/a/..b` as seen from `/a` is a bare name. -/
theorem head?_segments_relative_bare :
    (Location.path ["a", "..b"]).parts = .root :: ["a", "..b"].map .name ∧
      (Location.path ["a"]).parts = .root :: ["a"].map .name ∧
      relative (Location.path ["a", "..b"]) (Location.path ["a"]) = "..b" ∧
      (Path.mk (relative (Location.path ["a", "..b"]) (Location.path ["a"]))).segments.head? =
        some "..b" := by
  decide

end Specifier

end Understudy
