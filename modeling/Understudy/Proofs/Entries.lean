import Understudy.Proofs.Operations

/-!
# Understudy.Proofs.Entries

The entries of a directory by the path of the directory and their names, in trees that may hold
links. The path of an entry is walked like that of the directory and then one step further
(`Path.segments_join`). So it leads to the entry just if the system takes it, the first part still
leads to the directory, and the directory holds the entry (`resolveLink_join_eq_ok_iff`). In a tree
that is part of another one, the first part leads where it leads there, or nowhere
(`PartOf.approach`).

A directory lists its names until the system breaks the listing off (`sublist_names_of_listing`).
-/

namespace Understudy

open FileTree

/-! ### The segments of an entry of a directory -/

namespace Path

/-- The segments of the path of a directory that come before the name of an entry. -/
def base (p : Path) : List String :=
  if p.text = "" ∨ p.text.toList.getLast? = some '/' then p.segments.dropLast else p.segments

theorem segments_append_slash (s name : String) (h : '/' ∉ name.toList) :
    (Path.mk (s ++ "/" ++ name)).segments = (Path.mk s).segments ++ [name] := by
  have htext : (s ++ "/" ++ name).toList = s.toList ++ '/' :: name.toList := by
    simp [String.toList_append]
  unfold segments
  rw [htext, List.splitOn_append_cons_self, List.splitOn_eq_singleton h, List.map_append,
    List.map_singleton, String.ofList_toList]

theorem isAbsolute_of_not_mem {name : String} (h : '/' ∉ name.toList) :
    (Path.mk name).isAbsolute = false := by
  rw [isAbsolute, beq_eq_false_iff_ne]
  exact fun hhead => h (List.mem_of_head? hhead)

/-- A text that ends in a separator. -/
theorem exists_of_getLast? {s : String} (h : s.toList.getLast? = some '/') :
    ∃ front, s = front ++ "/" := by
  obtain ⟨front, hfront⟩ := List.getLast?_eq_some_iff.mp h
  refine ⟨String.ofList front, ?_⟩
  rw [← String.toList_inj, hfront]
  simp [String.toList_append]

/-- The path of a directory may end in a separator. -/
theorem segments_eq_base (p : Path) : p.segments = p.base ∨ p.segments = p.base ++ [""] := by
  obtain ⟨text⟩ := p
  unfold base
  by_cases hend : text = "" ∨ text.toList.getLast? = some '/'
  · rw [if_pos hend]
    right
    rcases hend with rfl | hslash
    · decide
    · obtain ⟨front, rfl⟩ := exists_of_getLast? hslash
      have hfront := segments_append_slash front "" List.not_mem_nil
      rw [String.append_empty] at hfront
      rw [hfront, List.dropLast_concat]
  · exact Or.inl (if_neg hend).symm

/-- An entry of a directory is one step further. -/
theorem segments_join (p : Path) {name : String} (h : '/' ∉ name.toList) :
    (p.join name).segments = p.base ++ [name] := by
  obtain ⟨text⟩ := p
  unfold join base
  rw [isAbsolute_of_not_mem h, if_neg Bool.false_ne_true]
  by_cases hend : text = "" ∨ text.toList.getLast? = some '/'
  · rw [if_pos hend, if_pos hend]
    rcases hend with rfl | hslash
    · rw [String.empty_append, segments, List.splitOn_eq_singleton h, List.map_singleton,
        String.ofList_toList]
      rfl
    · obtain ⟨front, rfl⟩ := exists_of_getLast? hslash
      have hfront := segments_append_slash front "" List.not_mem_nil
      rw [String.append_empty] at hfront
      rw [segments_append_slash front name h, hfront, List.dropLast_concat]
  · rw [if_neg hend, if_neg hend]
    exact segments_append_slash text name h

theorem isAbsolute_append {s : String} (h : s ≠ "") (rest : String) :
    (Path.mk (s ++ rest)).isAbsolute = (Path.mk s).isAbsolute := by
  have hne : s.toList ≠ [] := by simpa using h
  obtain ⟨c, chars, hchars⟩ := List.exists_cons_of_ne_nil hne
  unfold isAbsolute
  rw [String.toList_append, hchars]
  rfl

theorem isAbsolute_join (p : Path) {name : String} (h : '/' ∉ name.toList) :
    (p.join name).isAbsolute = p.isAbsolute := by
  obtain ⟨text⟩ := p
  unfold join
  rw [isAbsolute_of_not_mem h, if_neg Bool.false_ne_true]
  by_cases hempty : text = ""
  · rw [if_pos (Or.inl hempty), hempty, String.empty_append, isAbsolute_of_not_mem h]
    rfl
  · split
    · exact isAbsolute_append hempty name
    · rw [String.append_assoc]
      exact isAbsolute_append hempty _

theorem le_utf8ByteSize_join (p : Path) {name : String} (h : '/' ∉ name.toList) :
    p.text.utf8ByteSize + name.utf8ByteSize ≤ (p.join name).text.utf8ByteSize := by
  unfold join
  rw [isAbsolute_of_not_mem h, if_neg Bool.false_ne_true]
  split
  · exact Nat.le_of_eq (String.utf8ByteSize_append ..).symm
  · rw [String.utf8ByteSize_append, String.utf8ByteSize_append]
    omega

/-- A path with a number of steps behind it that stay where they are. -/
def dotted (s : String) : Nat → Path
  | 0 => ⟨s⟩
  | n + 1 => ⟨(dotted s n).text ++ "/" ++ "."⟩

theorem segments_dotted (s : String) (n : Nat) :
    (dotted s n).segments = (Path.mk s).segments ++ List.replicate n "." := by
  induction n with
  | zero => simp [dotted]
  | succ n ih =>
      rw [dotted, segments_append_slash _ "." (by decide), List.replicate_succ', ← List.append_assoc,
        ← ih]

theorem utf8ByteSize_dotted (s : String) (n : Nat) :
    (dotted s n).text.utf8ByteSize = s.utf8ByteSize + 2 * n := by
  induction n with
  | zero => rfl
  | succ n ih =>
      have hslash : "/".utf8ByteSize = 1 := by decide
      have hdot : ".".utf8ByteSize = 1 := by decide
      rw [dotted, String.utf8ByteSize_append, String.utf8ByteSize_append, ih, hslash, hdot]
      omega

theorem exists_text_dotted (s : String) (n : Nat) :
    ∃ rest, (dotted s n).text = s ++ rest ∧ ∀ c ∈ rest.toList, c = '/' ∨ c = '.' := by
  induction n with
  | zero => exact ⟨"", by simp [dotted], by simp⟩
  | succ n ih =>
      obtain ⟨rest, htext, hrest⟩ := ih
      refine ⟨rest ++ "/" ++ ".", by simp only [dotted, htext, String.append_assoc], fun c hc => ?_⟩
      simp only [String.toList_append, List.mem_append] at hc
      rcases hc with (hc | hc) | hc
      · exact hrest c hc
      · exact Or.inl (List.mem_singleton.mp hc)
      · exact Or.inr (List.mem_singleton.mp hc)

/-- Whether the system takes the path of an entry of a directory. -/
def Admits (p : Path) (name : String) : Prop :=
  checkText (p.join name) = .ok () ∧ name.utf8ByteSize ≤ maxNameBytes

instance (p : Path) (name : String) : Decidable (p.Admits name) :=
  inferInstanceAs (Decidable (_ ∧ _))

end Path

namespace FileTree

variable {t u : FileTree} {here l m directory : Location} {p : Path} {name : String}
  {segments : List String} {links : Nat} {e : Entry} {refusals : Refusals}

theorem checkText_eq_ok_iff : checkText p = .ok () ↔
    '\x00' ∉ p.text.toList ∧ p.text ≠ "" ∧ p.text.utf8ByteSize ≤ maxPathBytes := by
  unfold checkText
  by_cases hnull : '\x00' ∈ p.text.toList
  · simp [hnull]
  · by_cases hempty : p.text = ""
    · simp [hempty]
    · by_cases hlong : maxPathBytes < p.text.utf8ByteSize
      · simp [hnull, hempty, hlong]
      · simp [hnull, hempty, hlong, Nat.le_of_not_lt hlong]

/-- With enough steps before its name, the path of an entry is too long. -/
theorem not_admits_dotted {s : String} {n : Nat} (hname : '/' ∉ name.toList)
    (h : maxPathBytes < s.utf8ByteSize + 2 * n + name.utf8ByteSize) :
    ¬(Path.dotted s n).Admits name := by
  intro hadmits
  obtain ⟨-, -, hlength⟩ := checkText_eq_ok_iff.mp hadmits.1
  have hbound := (Path.dotted s n).le_utf8ByteSize_join hname
  rw [Path.utf8ByteSize_dotted] at hbound
  exact Nat.not_lt.mpr (Nat.le_trans hbound hlength) h

theorem startOf_join (t : FileTree) (p : Path) (h : '/' ∉ name.toList) :
    t.startOf (p.join name) = t.startOf p := by
  rw [startOf, startOf, p.isAbsolute_join h]

/-! ### The directory of an entry -/

/-- The directory that holds the entries of a path. -/
def directoryOf (t : FileTree) (p : Path) : Except Fault Location :=
  t.walk true maxLinks (t.startOf p) p.base >>= fun l =>
    match t.get? l with
    | some .directory => .ok l
    | some _ => .error .notADirectory
    | none => .error .notFound

theorem directoryOf_eq_ok_iff :
    t.directoryOf p = .ok l ↔
      t.walk true maxLinks (t.startOf p) p.base = .ok l ∧ t.get? l = some .directory := by
  unfold directoryOf
  rw [bind_eq_ok_iff]
  constructor
  · intro h
    obtain ⟨k, hwalk, hk⟩ := h
    split at hk
    · rename_i hdirectory
      cases hk
      exact ⟨hwalk, hdirectory⟩
    · cases hk
    · cases hk
  · intro h
    exact ⟨l, h.1, by rw [h.2]⟩

/-- The entries of a directory are held where its path leads. -/
theorem directoryOf_of_resolve (hresolve : t.resolve p = .ok l)
    (hl : t.get? l = some .directory) : t.directoryOf p = .ok l := by
  obtain ⟨_, -, hwalk⟩ := bind_eq_ok_iff.mp hresolve
  refine directoryOf_eq_ok_iff.mpr ⟨?_, hl⟩
  rcases p.segments_eq_base with hbase | hbase
  · rwa [hbase] at hwalk
  · rw [hbase] at hwalk
    obtain ⟨k, _, hwalk, hend⟩ := exists_of_walk_append hwalk
    rw [walkWith_empty (directory_of_walkWith_cons hend)] at hend
    cases hend
    exact hwalk

theorem Keeps.directoryOf (h : t.Keeps u) (hdirectory : t.directoryOf p = .ok l) :
    u.directoryOf p = .ok l := by
  rw [directoryOf_eq_ok_iff] at hdirectory ⊢
  obtain ⟨hwalk, hl⟩ := hdirectory
  rw [startOf_eq h.workDir] at hwalk
  exact ⟨h.walk hwalk, h.directory l hl⟩

/-! ### The way up -/

theorem ascend_concat (hname : IsName name) (here : Location) (segments : List String) :
    ascend here (segments ++ [name]) =
      ((ascend here segments).1, (ascend here segments).2 ++ [name]) := by
  induction segments generalizing here with
  | nil =>
      obtain ⟨hempty, hdot, hup, -⟩ := hname
      simp [ascend, hempty, hdot, hup]
  | cons segment rest ih =>
      simp only [List.cons_append, ascend]
      split
      · exact ih here
      · split
        · exact ih here.dropLast
        · rfl

/-- Where directories are, a walk starts with going up anyway. -/
theorem Rooted.walkWith_ascend (ht : t.Rooted) (hhere : t.get? here = some .directory)
    {follow : Bool} {onLink : Location → List String → Except Fault Location} :
    t.walkWith follow onLink (ascend here segments).1 (ascend here segments).2 =
      t.walkWith follow onLink here segments := by
  induction segments generalizing here with
  | nil => rfl
  | cons segment rest ih =>
      unfold ascend
      split
      · rename_i hstay
        rw [ih hhere, walkWith]
        simp only [hhere, if_pos hstay]
      · rename_i hstay
        split
        · rename_i hup
          rw [ih (ht.get?_dropLast hhere), walkWith]
          simp only [hhere, if_neg hstay, if_pos hup]
        · rfl

theorem Rooted.walk_ascend (ht : t.Rooted) (hhere : t.get? here = some .directory) {follow : Bool} :
    t.walk follow links (ascend here segments).1 (ascend here segments).2 =
      t.walk follow links here segments := by
  cases links with
  | zero => exact ht.walkWith_ascend hhere
  | succ links => exact ht.walkWith_ascend hhere

/-! ### Looking up an entry -/

/-- Where the path of an entry leads before its last step, given the path of the directory. -/
def approach (t : FileTree) (p : Path) : Except Fault Location :=
  t.walk true maxLinks (ascend (t.startOf p) p.base).1 (ascend (t.startOf p) p.base).2

/-- The path of an entry leads to the entry. -/
theorem resolveLink_join_eq_ok_iff (hname : IsName name) :
    t.resolveLink (p.join name) = .ok l ↔ checkText (p.join name) = .ok () ∧
      ∃ d, t.approach p = .ok d ∧ t.Holds d name ∧ l = d ++ [name] := by
  unfold resolveLink approach
  rw [startOf_join t p hname.2.2.2, p.segments_join hname.2.2.2, ascend_concat hname, bind_eq_ok_iff]
  simp only [walk_concat_eq_ok_iff hname]
  exact ⟨fun ⟨_, hcheck, h⟩ => ⟨hcheck, h⟩, fun ⟨hcheck, h⟩ => ⟨(), hcheck, h⟩⟩

/-- What the path of an entry leads to, a link itself. -/
theorem entryAt_join_eq_ok_iff (hname : IsName name) :
    t.entryAt (p.join name) = .ok e ↔ p.Admits name ∧
      ∃ d, t.approach p = .ok d ∧ t.get? d = some .directory ∧ t.get? (d ++ [name]) = some e := by
  unfold entryAt
  rw [bind_eq_ok_iff]
  constructor
  · intro h
    obtain ⟨l, hresolve, hentry⟩ := h
    obtain ⟨hcheck, d, happroach, ⟨hd, hlength, -⟩, rfl⟩ :=
      (resolveLink_join_eq_ok_iff hname).mp hresolve
    refine ⟨⟨hcheck, hlength⟩, d, happroach, hd, ?_⟩
    split at hentry
    · rename_i found
      cases hentry
      exact found
    · cases hentry
  · intro h
    obtain ⟨⟨hcheck, hlength⟩, d, happroach, hd, hentry⟩ := h
    have hholds : t.Holds d name := ⟨hd, hlength, hentry.trans_ne (Option.some_ne_none e)⟩
    exact ⟨_, (resolveLink_join_eq_ok_iff hname).mpr ⟨hcheck, d, happroach, hholds, rfl⟩,
      by rw [hentry]⟩

/-- The path of an entry of a directory that a path leads to starts with the way there. -/
theorem Rooted.approach_of_resolve (ht : t.Rooted) (hresolve : t.resolve p = .ok l)
    (hl : t.get? l = some .directory) : t.approach p = .ok l := by
  have hstart : t.get? (t.startOf p) = some .directory := by
    obtain ⟨_, -, hwalk⟩ := bind_eq_ok_iff.mp hresolve
    obtain ⟨segment, rest, hsegments⟩ :=
      List.exists_cons_of_ne_nil (l := p.segments) (by simp [Path.segments, List.splitOn_ne_nil])
    rw [hsegments] at hwalk
    exact directory_of_walk_cons hwalk
  unfold approach
  rw [ht.walk_ascend hstart]
  exact (directoryOf_eq_ok_iff.mp (directoryOf_of_resolve hresolve hl)).1

theorem PartOf.keeps (h : t.PartOf u) : t.Keeps u where
  workDir := h.workDir
  directory := fun l => h.entry l .directory
  link := fun l target => h.entry l (.link target)
  file := fun l bytes hl => ⟨bytes, h.entry l _ hl⟩

/-- A way that is left leads where it led. -/
theorem PartOf.approach (h : t.PartOf u) (happroach : t.approach p = .ok l) :
    u.approach p = .ok l := by
  unfold FileTree.approach at happroach ⊢
  rw [startOf_eq h.workDir] at happroach
  exact h.keeps.walk happroach

/-- Steps that stay do not change where a path to a directory leads, if it does not get too long. -/
theorem resolve_dotted {s : String} {n : Nat} (hlength : s.utf8ByteSize + 2 * n ≤ maxPathBytes)
    (h : t.resolve ⟨s⟩ = .ok l) (hl : t.get? l = some .directory) :
    t.resolve (Path.dotted s n) = .ok l := by
  obtain ⟨_, hcheck, hwalk⟩ := bind_eq_ok_iff.mp h
  obtain ⟨hnull, hempty, -⟩ := checkText_eq_ok_iff.mp hcheck
  obtain ⟨rest, htext, hrest⟩ := Path.exists_text_dotted s n
  have hstart : t.startOf (Path.dotted s n) = t.startOf ⟨s⟩ := by
    have hpath : Path.dotted s n = ⟨s ++ rest⟩ := congrArg Path.mk htext
    rw [startOf, startOf, hpath, Path.isAbsolute_append hempty]
  have hchecked : checkText (Path.dotted s n) = .ok () := by
    refine checkText_eq_ok_iff.mpr ⟨?_, ?_, by rwa [Path.utf8ByteSize_dotted]⟩
    · rw [htext, String.toList_append, List.mem_append, not_or]
      exact ⟨hnull, fun hmem => absurd (hrest _ hmem) (by decide)⟩
    · rw [htext]
      exact fun heq => hempty (String.append_eq_empty_iff.mp heq).1
  have hstays : ∀ onLink, t.walkWith true onLink l (List.replicate n ".") = .ok l := by
    intro onLink
    clear hlength hstart hchecked htext
    induction n with
    | zero => rfl
    | succ n ih =>
        rw [List.replicate_succ, walkWith]
        simp only [hl, ih, or_true, if_true]
  unfold resolve
  rw [hchecked, hstart, Path.segments_dotted]
  exact walk_append hstays hwalk

/-- A directory can be opened if a path leads to it and the system lets it be listed. -/
theorem openDirectory_eq_ok_iff : t.openDirectory refusals p = .ok l ↔
    t.resolve p = .ok l ∧ t.get? l = some .directory ∧ refusals (.list l) = none := by
  unfold openDirectory
  rw [bind_eq_ok_iff]
  constructor
  · intro h
    obtain ⟨k, hresolve, h⟩ := h
    split at h
    · rename_i hdirectory
      split at h
      · cases h
      · rename_i hlist
        cases h
        exact ⟨hresolve, hdirectory, hlist⟩
    · cases h
    · cases h
  · intro h
    obtain ⟨hresolve, hdirectory, hlist⟩ := h
    exact ⟨l, hresolve, by rw [hdirectory]; simp only [hlist]⟩

/-- A listing gives names of the directory, each as often as the directory holds it at most. -/
theorem sublist_names_of_listing :
    ((t.listing refusals directory).filterMap Except.toOption).Sublist (t.names directory) := by
  unfold listing
  induction t.names directory with
  | nil => exact List.Sublist.slnil
  | cons name rest ih =>
      unfold listNames
      split
      · exact List.nil_sublist _
      · exact ih.cons_cons name

/-- A listing that the system does not break off gives all names of the directory. -/
theorem listing_of_forall (h : ∀ name ∈ t.names directory,
    refusals (.entry (directory ++ [name])) = none) :
    t.listing refusals directory = (t.names directory).map .ok := by
  unfold listing
  generalize t.names directory = names at h ⊢
  induction names with
  | nil => rfl
  | cons name rest ih =>
      obtain ⟨hname, hrest⟩ := List.forall_mem_cons.mp h
      simp only [listNames, hname, ih hrest, List.map_cons]

end FileTree

end Understudy
