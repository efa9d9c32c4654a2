import Understudy.Proofs.Writing

/-!
# Understudy.Proofs.Matching

What the pattern of declaration files finds. If the extension holds no wildcards, the last component
of the pattern is a star and then characters that stand for themselves (`exists_components`), and a
walk only ends at entries whose names the last component stands for (`mem_walk`). So every file that
is discovered has a name that ends in `.interface.` and the extension, wherever the source lies
(`exists_suffix_of_mem_files`). The file name of a module does not end so.
-/

namespace Understudy

open FileTree

namespace Glob

/-! ### Patterns without wildcards -/

/-- A character that stands for itself in a pattern, wherever it is. -/
def IsPlain (c : Char) : Prop := c ≠ '?' ∧ c ≠ '*' ∧ c ≠ '['

/-- Such a character is a piece of its own, whatever precedes it. -/
theorem parseFrom_plain {c : Char} {rest : List Char} {pattern : Pattern} (h : IsPlain c)
    (hrest : ∀ place before, parseFrom place before rest = .ok pattern) (place : Nat)
    (before : Option Char) : parseFrom place before (c :: rest) = .ok (.char c :: pattern) := by
  obtain ⟨hone, hstar, hbracket⟩ := h
  rw [parseFrom]
  · rw [hrest]
    rfl
  · exact hone
  · exact fun _ hc _ => hstar hc
  · exact fun _ hc _ => hstar hc
  · exact hstar
  · exact hbracket

theorem parseFrom_of_isPlain {text : List Char} (h : ∀ c ∈ text, IsPlain c) (place : Nat)
    (before : Option Char) : parseFrom place before text = .ok (text.map .char) := by
  induction text generalizing place before with
  | nil => rw [parseFrom, List.map_nil]
  | cons c rest ih =>
      obtain ⟨hc, hrest⟩ := List.forall_mem_cons.mp h
      exact parseFrom_plain hc (ih hrest) place before

/-- A star and characters that stand for themselves. -/
theorem parseFrom_star {text : List Char} (h : ∀ c ∈ text, IsPlain c) (place : Nat)
    (before : Option Char) :
    parseFrom place before ('*' :: text) = .ok (.anyText :: text.map .char) := by
  have hstar : ∀ rest, text = '*' :: rest → False := by
    rintro rest rfl
    exact (h '*' List.mem_cons_self).2.1 rfl
  rw [parseFrom, parseFrom_of_isPlain h]
  · rfl
  · exact fun rest => hstar _
  · exact hstar

theorem parse_star {text : List Char} (h : ∀ c ∈ text, IsPlain c) :
    parse ('*' :: text) = .ok (.anyText :: text.map .char) := parseFrom_star h 0 none

theorem anyTail_eq_true_iff {test : List Char → Bool} {text : List Char} :
    anyTail test text = true ↔ ∃ tail, tail <:+ text ∧ test tail = true := by
  induction text with
  | nil => simp [anyTail]
  | cons c rest ih =>
      simp only [anyTail, Bool.or_eq_true, ih, List.suffix_cons_iff, or_and_right, exists_or,
        exists_eq_left]

theorem Pattern.covers_chars_iff {text name : List Char} :
    Pattern.covers (text.map .char) name = true ↔ name = text := by
  induction text generalizing name with
  | nil => simp [Pattern.covers]
  | cons c rest ih =>
      cases name with
      | nil => simp [Pattern.covers]
      | cons d name => simp [Pattern.covers, Token.admits, ih]

/-- A star and some characters stand for the names that end in the characters. -/
theorem Pattern.covers_star_iff {text name : List Char} :
    Pattern.covers (.anyText :: text.map .char) name = true ↔ text <:+ name := by
  simp only [Pattern.covers, anyTail_eq_true_iff, covers_chars_iff, exists_eq_right]

theorem Pattern.isRecursive_star (text : List Char) :
    Pattern.isRecursive (.anyText :: text.map .char) = false := by
  simp [isRecursive]

/-! ### The last component of a pattern -/

theorem componentTexts_append {front name : List Char} (hslash : '/' ∉ name) (hne : name ≠ []) :
    componentTexts (front ++ '/' :: name) = front.splitOn '/' ++ [name] := by
  have hsplit : (front ++ '/' :: name).splitOn '/' = front.splitOn '/' ++ [name] := by
    rw [List.splitOn_append_cons_self, List.splitOn_eq_singleton hslash]
  simp [componentTexts, hsplit, hne]

/-- What follows the last separator of a pattern is its last component. -/
theorem exists_components {front name : List Char} {q : Query} (hfront : front ≠ [])
    (hslash : '/' ∉ name) (hne : name ≠ []) (h : Query.parse (front ++ '/' :: name) = .ok q) :
    ∃ last, parse name = .ok last ∧ q.components.getLast? = some last := by
  have htexts : ∃ before : List (List Char),
      componentTexts (if (front ++ '/' :: name).head? == some '/' then
        (front ++ '/' :: name).tail else front ++ '/' :: name) = before ++ [name] := by
    split
    · rw [List.tail_append_of_ne_nil hfront]
      exact ⟨_, componentTexts_append hslash hne⟩
    · exact ⟨_, componentTexts_append hslash hne⟩
  obtain ⟨before, hbefore⟩ := htexts
  unfold Query.parse at h
  obtain ⟨_, -, h⟩ := bind_eq_ok_iff.mp h
  simp only [hbefore] at h
  obtain ⟨components, hcomponents, h⟩ := bind_eq_ok_iff.mp h
  cases h
  rw [List.mapM_append] at hcomponents
  obtain ⟨first, -, hcomponents⟩ := bind_eq_ok_iff.mp hcomponents
  obtain ⟨rest, hrest, hcomponents⟩ := bind_eq_ok_iff.mp hcomponents
  cases hcomponents
  rw [List.mapM_cons] at hrest
  obtain ⟨last, hlast, hrest⟩ := bind_eq_ok_iff.mp hrest
  cases hrest
  exact ⟨last, hlast, by simp⟩

/-! ### Where a walk ends -/

/-- The last element stays if it does not meet the condition for which others are dropped. -/
theorem getLast?_dropWhile {α : Type} {test : α → Bool} {l : List α} {a : α}
    (h : l.getLast? = some a) (ha : test a = false) : (l.dropWhile test).getLast? = some a := by
  induction l with
  | nil => cases h
  | cons b rest ih =>
      rw [List.dropWhile_cons]
      split
      · rename_i hb
        cases rest with
        | nil =>
            obtain rfl : b = a := by simpa using h
            rw [ha] at hb
            cases hb
        | cons c rest => exact ih (by rwa [List.getLast?_cons_cons] at h)
      · exact h

/-- Steps that all succeed are those of what they give. -/
theorem mapM_id_eq_ok_iff {ε α : Type} {steps : List (Except ε α)} {results : List α} :
    steps.mapM id = .ok results ↔ steps = results.map .ok := by
  induction steps generalizing results with
  | nil =>
      rw [List.mapM_nil]
      cases results with
      | nil => exact iff_of_true rfl rfl
      | cons a rest => exact iff_of_false nofun nofun
  | cons step steps ih =>
      rw [List.mapM_cons, bind_eq_ok_iff]
      simp only [bind_eq_ok_iff, ih]
      constructor
      · rintro ⟨a, rfl, rest, rfl, hresults⟩
        cases hresults
        rfl
      · intro h
        obtain ⟨a, rest, rfl, hstep, hsteps⟩ := List.map_eq_cons_iff.mp h.symm
        exact ⟨a, hstep.symm, rest, hsteps.symm, rfl⟩

variable {t : FileTree} {refusals : Refusals} {directory found : Path} {name : String} {spot : Spot}

/-- The entries that a directory lists are those of names that it holds. -/
theorem of_mem_children {entries : List (String × Spot)}
    (h : children refusals t directory = .ok entries) (hmem : (name, spot) ∈ entries) :
    ∃ l, t.resolve directory = .ok l ∧ name ∈ t.names l ∧ spot.path = below directory name := by
  unfold children at h
  obtain ⟨l, hopen, h⟩ := bind_eq_ok_iff.mp h
  obtain ⟨names, hnames, h⟩ := bind_eq_ok_iff.mp h
  cases h
  rw [mapM_id_eq_ok_iff] at hnames
  obtain ⟨_, hname, heq⟩ := List.mem_map.mp hmem
  cases heq
  rw [List.mem_mergeSort] at hname
  have hlisted : ((t.listing refusals l).filterMap Except.toOption).Sublist (t.names l) :=
    sublist_names_of_listing
  refine ⟨l, (openDirectory_eq_ok_iff.mp hopen).1, hlisted.subset ?_, rfl⟩
  rw [hnames]
  exact List.mem_filterMap.mpr ⟨_, List.mem_map_of_mem hname, rfl⟩

theorem path?_eq_some_iff {find : Find} : find.path? = some found ↔ find = .path found := by
  cases find with
  | path p => simp [Find.path?]
  | unreadable directory cause => simp [Find.path?]

/-- Whether a path is that of an entry of a directory whose name a pattern stands for. -/
def Meets (t : FileTree) (pattern : Pattern) (found : Path) : Prop :=
  ∃ directory l name, t.resolve directory = .ok l ∧ name ∈ t.names l ∧
    found = below directory name ∧ pattern.covers name.toList = true

section Walk

variable {onlyDirectories : Bool} {next : List Pattern → Spot → List Find}
  {pattern last : Pattern} {rest : List Pattern} {entries : List (String × Spot)}
  (hnext : ∀ rest spot, rest.getLast? = some last → .path found ∈ next rest spot →
    Meets t last found)

include hnext

/-- A walk goes on behind a component, if it was not the last one. -/
theorem meets_of_mem_arrive (hrest : rest ≠ []) (hlast : (pattern :: rest).getLast? = some last)
    (h : .path found ∈ arrive onlyDirectories next rest spot) : Meets t last found := by
  obtain ⟨other, others, rfl⟩ := List.exists_cons_of_ne_nil hrest
  rw [List.getLast?_cons_cons] at hlast
  exact hnext _ spot hlast h

variable (hentries : children refusals t directory = .ok entries) (hmem : (name, spot) ∈ entries)

include hentries hmem

theorem meets_of_mem_compare (hlast : (pattern :: rest).getLast? = some last)
    (h : .path found ∈ compare onlyDirectories next pattern rest name spot) :
    Meets t last found := by
  obtain ⟨hcovers, h⟩ := List.mem_ite_nil_right.mp h
  by_cases hrest : rest = []
  · obtain rfl : pattern = last := by simpa [hrest] using hlast
    simp only [hrest, arrive, List.isEmpty_nil, if_true, List.mem_ite_nil_left] at h
    obtain ⟨l, hresolve, hname, hpath⟩ := of_mem_children hentries hmem
    exact ⟨directory, l, name, hresolve, hname,
      (Find.path.inj (List.mem_singleton.mp h.2)).trans hpath, hcovers⟩
  · exact meets_of_mem_arrive hnext hrest hlast h

variable (hrecursive : last.isRecursive = false)

include hrecursive

theorem meets_of_mem_visit (hlast : (pattern :: rest).getLast? = some last)
    (h : .path found ∈ visit onlyDirectories next pattern rest name spot) :
    Meets t last found := by
  simp only [visit] at h
  split at h
  · rename_i hpattern
    have hrest : (rest.dropWhile Pattern.isRecursive).getLast? = some last := by
      have hdropped := getLast?_dropWhile hlast hrecursive
      rwa [List.dropWhile_cons_of_pos hpattern] at hdropped
    obtain ⟨other, others, hothers⟩ :=
      List.exists_cons_of_ne_nil (List.getLast?_isSome.mp (Option.isSome_of_mem hrest))
    rw [hothers] at h hrest
    have hdeeper : (pattern :: other :: others).getLast? = some last := by
      rwa [List.getLast?_cons_cons]
    rcases List.mem_append.mp h with hentry | hbelow
    · exact meets_of_mem_compare hnext hentries hmem hrest hentry
    · exact hnext _ _ hdeeper (List.mem_ite_nil_right.mp hbelow).2
  · exact meets_of_mem_compare hnext hentries hmem hlast h

omit hentries hmem

/-- A step of a walk ends at an entry whose name the last component stands for, or it goes on. -/
theorem meets_of_mem_step (hliteral : last.literal? = none) (hdot : last.head? ≠ some (.char '.'))
    {patterns : List Pattern} (hlast : patterns.getLast? = some last)
    (h : .path found ∈ step refusals t onlyDirectories next patterns spot) : Meets t last found := by
  cases patterns with
  | nil => cases hlast
  | cons pattern rest =>
      simp only [step] at h
      split at h
      · rename_i text htext
        -- a component without wildcards is not the last one
        have hrest : rest ≠ [] := by
          rintro rfl
          obtain rfl : pattern = last := by simpa using hlast
          rw [hliteral] at htext
          cases htext
        exact meets_of_mem_arrive hnext hrest hlast (List.mem_ite_nil_right.mp h).2
      · have hfound := (List.mem_ite_nil_right.mp h).2
        split at hfound
        · cases List.mem_singleton.mp hfound
        · rename_i entries hentries
          rcases List.mem_append.mp hfound with hspecial | hentry
          · obtain ⟨name, hname, hfound⟩ := List.mem_flatMap.mp hspecial
            have hrest : rest ≠ [] := by
              rintro rfl
              obtain rfl : pattern = last := by simpa using hlast
              rw [if_neg hdot] at hname
              cases hname
            exact meets_of_mem_arrive hnext hrest hlast hfound
          · obtain ⟨⟨name, there⟩, hmem, hfound⟩ := List.mem_flatMap.mp hentry
            exact meets_of_mem_visit hnext hentries hmem hrecursive hlast hfound

end Walk

/-- A walk only ends at entries whose names the last component stands for. -/
theorem mem_walk {onlyDirectories : Bool} {steps : Nat} {patterns : List Pattern} {last : Pattern}
    (hlast : patterns.getLast? = some last) (hrecursive : last.isRecursive = false)
    (hliteral : last.literal? = none) (hdot : last.head? ≠ some (.char '.'))
    (h : .path found ∈ walk refusals t onlyDirectories steps patterns spot) : Meets t last found := by
  induction steps generalizing patterns spot with
  | zero => cases h
  | succ steps ih =>
      exact meets_of_mem_step (fun _ _ => ih) hrecursive hliteral hdot hlast h

end Glob

/-! ### Discovered files -/

namespace Discovery

variable {t : FileTree} {source found : Path} {extension : String} {files : List Path} {l : Location}

/-- The end of the name of a declaration file. -/
def ending (extension : String) : String := ".interface." ++ extension

theorem forall_mem_ending {test : Char → Prop} (hinterface : ∀ c ∈ ".interface.".toList, test c)
    (hextension : ∀ c ∈ extension.toList, test c) : ∀ c ∈ (ending extension).toList, test c := by
  intro c hc
  rw [ending, String.toList_append] at hc
  exact (List.mem_append.mp hc).elim (hinterface c) (hextension c)

/-- The last component of the pattern is one. -/
theorem slash_not_mem_fileName (hslash : '/' ∉ extension.toList) :
    '/' ∉ '*' :: (ending extension).toList := by
  have hother : ∀ c ∈ (ending extension).toList, c ≠ '/' :=
    forall_mem_ending (by simp) fun c hc => ne_of_mem_of_not_mem hc hslash
  rw [List.mem_cons, not_or]
  exact ⟨by decide, fun h => hother _ h rfl⟩

theorem pattern_eq (source : Path) (extension : String) :
    pattern source extension =
      (Glob.escape source.text.toList ++ "/**".toList) ++
        '/' :: '*' :: (ending extension).toList := by
  rw [ending, String.toList_append]
  simp [pattern]

section Files

variable (hslash : '/' ∉ extension.toList) (hplain : ∀ c ∈ extension.toList, Glob.IsPlain c)
  {refusals : Refusals} (hfiles : Discovery.files t source extension refusals = .ok files)
  (hfound : found ∈ files)

include hslash hplain hfiles hfound

/-- What is found is met by the star and the ending. -/
theorem meets_of_mem_files :
    Glob.Meets t (.anyText :: (ending extension).toList.map .char) found := by
  have hending : ∀ c ∈ (ending extension).toList, Glob.IsPlain c :=
    forall_mem_ending (by simp [Glob.IsPlain]) hplain
  unfold Discovery.files at hfiles
  split at hfiles
  · rename_i query hquery
    cases hfiles
    rw [pattern_eq] at hquery
    obtain ⟨last, hlast, hcomponents⟩ :=
      Glob.exists_components (by simp) (slash_not_mem_fileName hslash) (List.cons_ne_nil _ _) hquery
    rw [Glob.parse_star hending] at hlast
    cases hlast
    have hwalk := (List.mem_filter.mp (List.mem_mergeSort.mp hfound)).1
    obtain ⟨find, hfind, hpath⟩ := List.mem_filterMap.mp hwalk
    obtain rfl := Glob.path?_eq_some_iff.mp hpath
    exact Glob.mem_walk hcomponents (Glob.Pattern.isRecursive_star _) rfl (by simp) hfind
  · cases hfiles

/-- A file that is discovered has a name with the ending of declaration files. -/
theorem exists_suffix_of_mem_files (ht : t.Plain) (hresolve : t.resolve found = .ok l) :
    ∃ directory name, l = directory ++ [name] ∧ (ending extension).toList <:+ name.toList := by
  obtain ⟨directory, k, name, -, hname, rfl, hcovers⟩ :=
    meets_of_mem_files hslash hplain hfiles hfound
  have hvalid : IsName name := ht.named.isName_of_mem_names hname
  have hsegments : ∃ before, (Glob.below directory name).segments = before ++ [name] := by
    unfold Glob.below
    split
    · refine ⟨[], ?_⟩
      rw [Path.segments, List.splitOn_eq_singleton hvalid.2.2.2, List.map_singleton,
        String.ofList_toList]
      rfl
    · exact ⟨_, directory.segments_join hvalid.2.2.2⟩
  obtain ⟨before, hbefore⟩ := hsegments
  obtain ⟨-, hleads⟩ := ht.resolve_eq_ok_iff.mp hresolve
  rw [hbefore] at hleads
  -- the last step of the way is the name
  obtain ⟨m, -, hlast⟩ := hleads.of_append
  obtain ⟨-, -, -, hnil⟩ := hlast.of_cons hvalid
  cases hnil
  exact ⟨m, name, rfl, Glob.Pattern.covers_star_iff.mp hcovers⟩

end Files

/-- The file name of a module does not have the ending of declaration files. -/
theorem not_suffix_fileNameOf (interface extension : String) :
    ¬ (ending extension).toList <:+ (MockModule.fileNameOf interface extension).toList := by
  intro h
  obtain ⟨front, h⟩ := h
  simp only [ending, MockModule.fileNameOf, String.toList_append, ← List.append_assoc] at h
  have hreverse := congrArg List.reverse (List.append_cancel_right h)
  -- the last but one character is not the same
  simp at hreverse

end Discovery

end Understudy
