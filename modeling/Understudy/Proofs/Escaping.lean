import Understudy.Proofs.Matching

/-!
# Understudy.Proofs.Escaping

**The pattern of declaration files, taken apart.** A text that is escaped becomes a pattern in which
each character stands for itself alone (`parseFrom_escape`), be it a wildcard or not; so the pattern
stands for the text and for nothing else (`Pattern.covers_exactly_iff`). No separator is escaped, and
so the components of an escaped path are those of the path, each escaped.

For the directory of some names the components are therefore these names, then any number of
directories, and last a star and the ending of declaration files (`Discovery.parse_pattern`). The
pattern is well-formed for every directory; the extension is all that could spoil it.
-/

namespace Understudy

open FileTree

/-- A test that no element of a list fails gives the results of all of them. -/
theorem mapM_eq_ok {ε α β : Type} {f : α → Except ε β} {g : α → β} {l : List α}
    (h : ∀ a ∈ l, f a = .ok (g a)) : l.mapM f = .ok (l.map g) := by
  induction l with
  | nil => rfl
  | cons a l ih =>
      obtain ⟨ha, hl⟩ := List.forall_mem_cons.mp h
      rw [List.mapM_cons, ha, ih hl]
      rfl

namespace Glob

/-! ### Escaped characters -/

/-- The piece that stands for one character alone. -/
def only (c : Char) : Token :=
  if c = '?' ∨ c = '*' ∨ c = '[' ∨ c = ']' then .inside [⟨c, c⟩] else .char c

/-- The pattern that stands for one text alone. -/
def exactly (text : List Char) : Pattern := text.map only

@[simp] theorem exactly_nil : exactly [] = [] := rfl

@[simp] theorem exactly_cons (c : Char) (text : List Char) :
    exactly (c :: text) = only c :: exactly text := rfl

variable {text rest name : List Char} {pattern : Pattern}

theorem only_cases (c : Char) : only c = .char c ∨ only c = .inside [⟨c, c⟩] := by
  unfold only
  split
  · exact Or.inr rfl
  · exact Or.inl rfl

theorem admits_only_iff {c d : Char} : (only c).admits d = true ↔ d = c := by
  rcases only_cases c with h | h
  · simp [h, Token.admits]
  · rw [h]
    simp only [Token.admits, inRanges, List.any_cons, List.any_nil, Bool.or_false, Bool.and_eq_true,
      Nat.ble_eq, ← Char.toNat_inj]
    omega

/-- A wildcard between brackets is read as a range of itself. -/
theorem parseFrom_bracketed {c : Char} (h : c = '?' ∨ c = '*' ∨ c = '[' ∨ c = ']')
    (hrest : ∀ place before, parseFrom place before rest = .ok pattern) (place : Nat)
    (before : Option Char) :
    parseFrom place before ('[' :: c :: ']' :: rest) = .ok (.inside [⟨c, c⟩] :: pattern) := by
  have hrange : range? (c :: ']' :: rest) = some (.inside [⟨c, c⟩], rest) := by
    have hbracketed : bracketed? (c :: ']' :: rest) = some ([c], rest) := by
      simp [bracketed?]
    rcases h with rfl | rfl | rfl | rfl <;> rw [range?, hbracketed] <;> simp [ranges]
  rw [parseFrom]
  split
  · rename_i token tail htail
    rw [hrange] at htail
    cases htail
    rw [hrest]
    rfl
  · rename_i hnone
    rw [hrange] at hnone
    cases hnone

/-- An escaped text is read as the pattern that stands for it alone, whatever follows. -/
theorem parseFrom_escape (text : List Char)
    (hrest : ∀ place before, parseFrom place before rest = .ok pattern) (place : Nat)
    (before : Option Char) :
    parseFrom place before (escape text ++ rest) = .ok (exactly text ++ pattern) := by
  induction text generalizing place before with
  | nil => exact hrest place before
  | cons c text ih =>
      by_cases h : c = '?' ∨ c = '*' ∨ c = '[' ∨ c = ']'
      · have htext : escape (c :: text) ++ rest = '[' :: c :: ']' :: (escape text ++ rest) := by
          simp [escape, h]
        have honly : only c = .inside [⟨c, c⟩] := if_pos h
        rw [htext, parseFrom_bracketed h ih, exactly_cons, honly]
        rfl
      · have htext : escape (c :: text) ++ rest = c :: (escape text ++ rest) := by
          simp [escape, h]
        have honly : only c = .char c := if_neg h
        have hplain : IsPlain c := by
          simp only [not_or] at h
          exact ⟨h.1, h.2.1, h.2.2.1⟩
        rw [htext, parseFrom_plain hplain ih, exactly_cons, honly]
        rfl

/-- Two stars between separators are read as any number of directories. -/
theorem parseFrom_directories (hrest : ∀ place before, parseFrom place before rest = .ok pattern)
    (place : Nat) (before : Option Char) :
    parseFrom place before ('/' :: '*' :: '*' :: '/' :: rest) =
      .ok (.char '/' :: .anyDirectories :: pattern) := by
  have hstars : ∀ place, parseFrom place (some '/') ('*' :: '*' :: '/' :: rest) =
      .ok (.anyDirectories :: pattern) := by
    intro place
    rw [parseFrom, if_pos (Or.inr rfl)]
    simp only [hrest]
    rfl
  rw [parseFrom]
  · rw [hstars]
    rfl
  · simp
  · simp
  · simp
  · simp
  · simp

theorem parse_escape (text : List Char) : parse (escape text) = .ok (exactly text) := by
  have hnil : ∀ place before, parseFrom place before [] = .ok [] := fun _ _ => by rw [parseFrom]
  have h := parseFrom_escape text hnil 0 none
  rwa [List.append_nil, List.append_nil] at h

namespace Pattern

theorem covers_exactly_iff : covers (exactly text) name = true ↔ name = text := by
  induction text generalizing name with
  | nil => simp [covers]
  | cons c text ih =>
      cases name with
      | nil => rcases only_cases c with h | h <;> simp [h, covers]
      | cons d name =>
          have hcovers : covers (exactly (c :: text)) (d :: name) =
              ((only c).admits d && covers (exactly text) name) := by
            rcases only_cases c with h | h <;> simp [h, covers]
          rw [hcovers, Bool.and_eq_true, admits_only_iff, ih, List.cons_eq_cons]

theorem isRecursive_exactly (text : List Char) : isRecursive (exactly text) = false := by
  rw [isRecursive, List.contains_eq_mem, decide_eq_false_iff_not]
  intro h
  obtain ⟨c, -, hc⟩ := List.mem_map.mp h
  rcases only_cases c with h | h <;> rw [h] at hc <;> cases hc

/-- An escaped text without wildcards stands for itself even without a look at the directory. -/
theorem literal?_exactly (text : List Char) :
    literal? (exactly text) = some text ∨ literal? (exactly text) = none := by
  induction text with
  | nil => exact Or.inl rfl
  | cons c text ih =>
      rcases only_cases c with h | h
      · rcases ih with ih | ih <;> simp [h, literal?, ih]
      · exact Or.inr (by simp [h, literal?])

end Pattern

/-! ### Escaped paths -/

theorem escape_append (text rest : List Char) : escape (text ++ rest) = escape text ++ escape rest :=
  List.flatMap_append

/-- Texts put together with separators are escaped one by one. -/
theorem escape_intercalate (parts : List (List Char)) :
    escape (['/'].intercalate parts) = ['/'].intercalate (parts.map escape) := by
  induction parts with
  | nil => rfl
  | cons part rest ih =>
      by_cases hrest : rest = []
      · rw [hrest, List.map_singleton, List.intercalate_singleton, List.intercalate_singleton]
      · have hslash : escape ['/'] = ['/'] := by decide
        rw [List.intercalate_cons_of_ne_nil hrest, escape_append, escape_append, hslash, ih,
          List.map_cons, List.intercalate_cons_of_ne_nil (by simpa using hrest)]

theorem not_mem_escape (h : '/' ∉ text) : '/' ∉ escape text := by
  intro hmem
  obtain ⟨c, hc, hescaped⟩ := List.mem_flatMap.mp hmem
  have hne : '/' ≠ c := fun heq => h (heq ▸ hc)
  split at hescaped
  · simp [hne] at hescaped
  · exact hne (List.mem_singleton.mp hescaped)

end Glob

/-! ### The pattern of declaration files -/

namespace Discovery

open Glob

/-- The segments of the path of a directory behind the first separator. For the root that is an empty
one. -/
def steps (directory : Location) : List String := if directory = [] then [""] else directory

/-- The piece for the names of declaration files. -/
def fileNames (extension : String) : Pattern := .anyText :: (ending extension).toList.map .char

/-- What the pattern of declaration files below a directory is made of: the way to the directory, any
number of directories, and the names of declaration files. -/
def query (directory : Location) (extension : String) : Query where
  isAbsolute := true
  components :=
    (steps directory).map (fun name => exactly name.toList) ++
      [[.anyDirectories], fileNames extension]
  onlyDirectories := false

variable {directory : Location} {extension : String}

theorem toList_text_path (directory : Location) :
    directory.path.text.toList = '/' :: ['/'].intercalate ((steps directory).map String.toList) := by
  have hsteps : ['/'].intercalate ((steps directory).map String.toList) =
      ['/'].intercalate (directory.map String.toList) := by
    unfold steps
    split
    · rename_i h
      rw [h]
      rfl
    · rfl
  rw [hsteps, Location.path, String.toList_append, String.toList_intercalate]
  rfl

/-- No step holds a separator. -/
theorem slash_not_mem_of_mem_steps (hdirectory : ∀ name ∈ directory, IsName name) {name : String}
    (h : name ∈ steps directory) : '/' ∉ name.toList := by
  unfold steps at h
  split at h
  · rw [List.mem_singleton.mp h]
    exact List.not_mem_nil
  · exact (hdirectory name h).2.2.2

/-- The components of the pattern are the steps to the directory, each escaped, and two more. -/
theorem componentTexts_pattern (hdirectory : ∀ name ∈ directory, IsName name)
    (hslash : '/' ∉ extension.toList) :
    componentTexts (pattern directory.path extension).tail =
      (steps directory).map (fun name => escape name.toList) ++
        [['*', '*'], '*' :: (ending extension).toList] := by
  have htail : (pattern directory.path extension).tail =
      (escape (['/'].intercalate ((steps directory).map String.toList)) ++ '/' :: ['*', '*']) ++
        '/' :: '*' :: (ending extension).toList := by
    rw [pattern_eq, toList_text_path]
    rfl
  have hescaped : ∀ part ∈ ((steps directory).map String.toList).map escape, '/' ∉ part := by
    intro part hpart
    obtain ⟨chars, hchars, rfl⟩ := List.mem_map.mp hpart
    obtain ⟨name, hname, rfl⟩ := List.mem_map.mp hchars
    exact not_mem_escape (slash_not_mem_of_mem_steps hdirectory hname)
  have hne : ((steps directory).map String.toList).map escape ≠ [] := by
    simp only [ne_eq, List.map_eq_nil_iff]
    unfold steps
    split
    · exact List.cons_ne_nil _ _
    · assumption
  rw [htail, componentTexts_append (slash_not_mem_fileName hslash) (List.cons_ne_nil _ _),
    List.splitOn_append_cons_self, escape_intercalate, List.splitOn_intercalate '/' hescaped hne,
    List.splitOn_eq_singleton (by decide), List.append_assoc, List.map_map]
  rfl

/-- The pattern of declaration files is well-formed whatever the directory is called. -/
theorem parse_pattern (hdirectory : ∀ name ∈ directory, IsName name)
    (hslash : '/' ∉ extension.toList) (hplain : ∀ c ∈ extension.toList, IsPlain c) :
    Query.parse (pattern directory.path extension) = .ok (query directory extension) := by
  have hending : ∀ c ∈ (ending extension).toList, IsPlain c :=
    forall_mem_ending (by simp [IsPlain]) hplain
  have hwhole : ∃ p, Glob.parse (pattern directory.path extension) = .ok p := by
    rw [pattern_eq, List.append_assoc]
    exact ⟨_, parseFrom_escape _ (parseFrom_directories (parseFrom_star hending)) 0 none⟩
  obtain ⟨p, hp⟩ := hwhole
  have hcomponents : (componentTexts (pattern directory.path extension).tail).mapM Glob.parse =
      .ok (query directory extension).components := by
    have hsteps := mapM_eq_ok (f := fun name : String => Glob.parse (escape name.toList))
      (l := steps directory) fun name _ => parse_escape name.toList
    have hdirectories : Glob.parse ['*', '*'] = .ok [.anyDirectories] := by
      rw [Glob.parse, parseFrom, if_pos (Or.inl rfl)]
    have hrest : [['*', '*'], '*' :: (ending extension).toList].mapM Glob.parse =
        .ok [[.anyDirectories], fileNames extension] := by
      rw [List.mapM_cons, List.mapM_cons, hdirectories, parse_star hending]
      rfl
    rw [componentTexts_pattern hdirectory hslash, List.mapM_append, List.mapM_map, hrest]
    exact congrArg (· >>= _) hsteps
  have hhead : (pattern directory.path extension).head? = some '/' := by
    rw [pattern_eq, toList_text_path]
    rfl
  have hend : ((pattern directory.path extension).getLast? == some '/') = false := by
    rw [pattern_eq, List.getLast?_append_of_ne_nil _ (List.cons_ne_nil _ _),
      List.getLast?_cons_of_ne_nil (List.cons_ne_nil _ _), beq_eq_false_iff_ne]
    exact fun h => slash_not_mem_fileName hslash (List.mem_of_getLast? h)
  unfold Query.parse
  rw [hp, hhead, hend]
  simp only [beq_self_eq_true, if_true, hcomponents]
  rfl

end Discovery

end Understudy
