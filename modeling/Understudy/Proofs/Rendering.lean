import Understudy.Proofs.Grammar
import Understudy.Proofs.Separation

/-!
# Understudy.Proofs.Rendering

The texts that declare an interface. A text renders a name and some fields if its lines, separated
by line feeds, are property lines for the fields in order, header lines of which the first one with
a name has this one, and other lines, all of them mixed in any way (`Renders`). Without carriage
returns, a text is parsed to a declaration if and only if it renders it
(`parse?_eq_some_iff_renders`), and everything that can be declared has a rendering
(`exists_renders`).

What a line says is known from its grammar, so what is left is to see that the lines of a text are
what stands between its line feeds. They differ in an empty last line, which says nothing.
-/

namespace Understudy

open Text

/-! ### Lines with their parts -/

/-- A line of a declaration file, with the parts that it is put together from. -/
inductive SourceLine
  | property (p : PropertyLine)
  | header (h : HeaderLine)
  /-- A line that is neither. -/
  | other (text : List Char) (noProperty : ∀ p : PropertyLine, p.text ≠ text)
      (noHeader : ∀ h : HeaderLine, h.text ≠ text)

namespace Line

theorem property?_eq_none_iff {line : List Char} :
    property? line = none ↔ ∀ p : PropertyLine, p.text ≠ line := by
  simp [Option.eq_none_iff_forall_ne_some, property?_eq_some_iff]

theorem header?_eq_none_iff {line : List Char} :
    header? line = none ↔ ∀ h : HeaderLine, h.text ≠ line := by
  simp [Option.eq_none_iff_forall_ne_some, header?_eq_some_iff]

end Line

namespace SourceLine

def text : SourceLine → List Char
  | property p => p.text
  | header h => h.text
  | other text _ _ => text

/-- The field that a line declares. -/
def field? : SourceLine → Option Field
  | property p => some p.field
  | header _ | other _ _ _ => none

/-- The name that a line brings. -/
def name? : SourceLine → Option String
  | header h => if h.name = [] then none else some (String.ofList h.name)
  | property _ | other _ _ _ => none

theorem name?_eq_some_iff {line : SourceLine} {name : String} :
    line.name? = some name ↔
      ∃ h : HeaderLine, line = header h ∧ h.name ≠ [] ∧ String.ofList h.name = name := by
  cases line with
  | property p => simp [name?]
  | header h => simp [name?]
  | other text noProperty noHeader => simp [name?]

theorem property?_text (line : SourceLine) : Line.property? line.text = line.field? := by
  cases line with
  | property p => exact Line.property?_text p
  | header h => exact Line.property?_of_header? (Line.header?_text h)
  | other text noProperty noHeader => exact Line.property?_eq_none_iff.mpr noProperty

theorem header?_text (line : SourceLine) :
    (Line.header? line.text).filter (· ≠ "") = line.name? := by
  cases line with
  | property p =>
      have hnone := Line.header?_eq_none_iff.mpr fun h => (Line.text_ne_text p h).symm
      rw [text, hnone]
      rfl
  | header h =>
      rw [text, Line.header?_text, name?]
      by_cases hname : h.name = []
      · simp [hname]
      · rw [if_neg hname, Option.filter_some, if_pos]
        simpa using hname
  | other text noProperty noHeader =>
      have hnone := Line.header?_eq_none_iff.mpr noHeader
      rw [SourceLine.text, hnone]
      rfl

/-- Every line has parts of one kind or is neither. -/
theorem exists_text_eq (line : List Char) : ∃ s : SourceLine, s.text = line := by
  by_cases hproperty : ∃ p : PropertyLine, p.text = line
  · obtain ⟨p, hp⟩ := hproperty
    exact ⟨property p, hp⟩
  · by_cases hheader : ∃ h : HeaderLine, h.text = line
    · obtain ⟨h, hh⟩ := hheader
      exact ⟨header h, hh⟩
    · exact ⟨other line (fun p hp => hproperty ⟨p, hp⟩) (fun h hh => hheader ⟨h, hh⟩), rfl⟩

theorem exists_map_text_eq (lines : List (List Char)) :
    ∃ sources : List SourceLine, sources.map text = lines := by
  induction lines with
  | nil => exact ⟨[], rfl⟩
  | cons line rest ih =>
      obtain ⟨s, rfl⟩ := exists_text_eq line
      obtain ⟨sources, rfl⟩ := ih
      exact ⟨s :: sources, rfl⟩

end SourceLine

/-! ### Texts made of such lines -/

section Texts

variable {text : String} {sources : List SourceLine}

theorem declaredFields_eq (h : '\r' ∉ text.toList)
    (hlines : text.toList.splitOn '\n' = sources.map SourceLine.text) :
    declaredFields text = sources.filterMap SourceLine.field? := by
  have hread : sources.filterMap SourceLine.field? =
      (text.toList.splitOn '\n').filterMap Line.property? := by
    rw [hlines, List.filterMap_map]
    exact List.filterMap_congr fun line _ => line.property?_text.symm
  have hempty : Line.property? [] = none := by decide
  rw [hread, declaredFields]
  rcases splitOn_eq_lines h with hsplit | hsplit
  · rw [hsplit]
  · rw [hsplit, List.filterMap_append, List.filterMap_cons_none hempty, List.filterMap_nil,
      List.append_nil]

theorem declaredName?_eq (h : '\r' ∉ text.toList)
    (hlines : text.toList.splitOn '\n' = sources.map SourceLine.text) :
    declaredName? text = sources.findSome? SourceLine.name? := by
  have hread : sources.findSome? SourceLine.name? =
      (text.toList.splitOn '\n').findSome? fun line => (Line.header? line).filter (· ≠ "") := by
    rw [hlines, List.findSome?_map]
    congr 1
    exact funext fun line => line.header?_text.symm
  have hempty : (Line.header? []).filter (· ≠ "") = none := by decide
  rw [hread, declaredName?]
  rcases splitOn_eq_lines h with hsplit | hsplit
  · rw [hsplit]
  · rw [hsplit, List.findSome?_append, List.findSome?_cons, hempty, List.findSome?_nil,
      Option.or_none]

end Texts

/-! ### Renderings -/

/-- Whether a text renders a name and some fields. -/
def Renders (name : String) (fields : List Field) (text : String) : Prop :=
  ∃ (before : List SourceLine) (h : HeaderLine) (after : List SourceLine),
    (∀ line ∈ before, line.name? = none) ∧ h.name ≠ [] ∧ String.ofList h.name = name ∧
    (before ++ .header h :: after).filterMap SourceLine.field? = fields ∧
    (∀ line ∈ before ++ .header h :: after, '\n' ∉ line.text) ∧
    text.toList = ['\n'].intercalate ((before ++ .header h :: after).map SourceLine.text)

section Renders

variable {name : String} {fields : List Field} {text : String}

theorem Renders.parse?_eq (h : Renders name fields text) (hreturn : '\r' ∉ text.toList)
    (path : Path) : Declaration.parse? path text = some ⟨name, path, fields⟩ := by
  obtain ⟨before, header, after, hbefore, hne, rfl, rfl, hfeed, htext⟩ := h
  have hlines : text.toList.splitOn '\n' =
      (before ++ .header header :: after).map SourceLine.text := by
    rw [htext]
    refine List.splitOn_intercalate '\n' (fun chars hchars => ?_) (by simp)
    obtain ⟨line, hline, rfl⟩ := List.mem_map.mp hchars
    exact hfeed line hline
  have hname : (SourceLine.header header).name? = some (String.ofList header.name) := if_neg hne
  rw [Declaration.parse?_eq, declaredFields_eq hreturn hlines, declaredName?_eq hreturn hlines,
    List.findSome?_append, List.findSome?_eq_none_iff.mpr hbefore, List.findSome?_cons, hname]
  rfl

theorem renders_of_parse? (hreturn : '\r' ∉ text.toList) {path : Path} {d : Declaration}
    (h : Declaration.parse? path text = some d) : d.path = path ∧ Renders d.name d.fields text := by
  obtain ⟨sources, hsources⟩ := SourceLine.exists_map_text_eq (text.toList.splitOn '\n')
  rw [Declaration.parse?_eq, declaredFields_eq hreturn hsources.symm,
    declaredName?_eq hreturn hsources.symm] at h
  obtain ⟨name, hname, rfl⟩ := Option.map_eq_some_iff.mp h
  obtain ⟨before, line, after, rfl, hline, hbefore⟩ := List.findSome?_eq_some_iff.mp hname
  obtain ⟨header, rfl, hne, hheader⟩ := SourceLine.name?_eq_some_iff.mp hline
  refine ⟨rfl, before, header, after, hbefore, hne, hheader, rfl, fun line hline => ?_, ?_⟩
  · have hmem : line.text ∈ text.toList.splitOn '\n' := hsources ▸ List.mem_map_of_mem hline
    exact not_mem_of_mem_splitOn hmem
  · rw [hsources, List.intercalate_splitOn]

end Renders

/-- **Parsing undoes printing.** Without carriage returns, a text is parsed to a declaration if and
only if it renders the name and the fields of the declaration, whatever the layout of its lines, and
whatever other lines stand between them. -/
theorem Declaration.parse?_eq_some_iff_renders {text : String} (hreturn : '\r' ∉ text.toList)
    (path : Path) (d : Declaration) :
    parse? path text = some d ↔ d.path = path ∧ Renders d.name d.fields text := by
  constructor
  · exact renders_of_parse? hreturn
  · rintro ⟨rfl, hrenders⟩
    exact hrenders.parse?_eq hreturn d.path

/-- A text with a field before its header, in front of a second header and in odd layout. -/
def scattered : String :=
  "tags ? : string[][];\n\x7d\nExport  interface User\x7b\nexport interface Other\n\tid:number;"

/-- A declaration may be scattered over its text. -/
theorem renders_scattered :
    '\r' ∉ scattered.toList ∧
      Declaration.parse? ⟨"User.interface.ts"⟩ scattered = some
        ⟨"User", ⟨"User.interface.ts"⟩, [⟨"tags", "string", true⟩, ⟨"id", "number", false⟩]⟩ ∧
      Renders "User" [⟨"tags", "string", true⟩, ⟨"id", "number", false⟩] scattered := by
  have hreturn : '\r' ∉ scattered.toList := by decide +kernel
  have hparse : Declaration.parse? ⟨"User.interface.ts"⟩ scattered = some
      ⟨"User", ⟨"User.interface.ts"⟩, [⟨"tags", "string", true⟩, ⟨"id", "number", false⟩]⟩ := by
    decide +kernel
  have hrenders := (Declaration.parse?_eq_some_iff_renders hreturn _ _).mp hparse
  exact ⟨hreturn, hparse, hrenders.2⟩

/-! ### A rendering of everything -/

/-- The line of a field with a colon and nothing else that could be left out. -/
def Field.line (f : Field) (hname : IsIdentifier f.name.toList)
    (htype : IsIdentifier f.typeName.toList) : PropertyLine where
  indent := []
  name := f.name.toList
  separator := [':']
  type := f.typeName.toList
  brackets := if f.isArray then ['[', ']'] else []
  isBlank_indent := by simp
  isIdentifier_name := hname
  isSeparator_separator := by simp [Line.isSeparator]
  isIdentifier_type := htype
  isBracket_brackets := by split <;> simp [Line.isBracket]
  length_type := by simp

theorem Field.field_line (f : Field) (hname : IsIdentifier f.name.toList)
    (htype : IsIdentifier f.typeName.toList) : (f.line hname htype).field = f := by
  obtain ⟨name, typeName, isArray⟩ := f
  cases isArray <;> simp [line, PropertyLine.field]

theorem Field.not_mem_text_line (f : Field) (hname : IsIdentifier f.name.toList)
    (htype : IsIdentifier f.typeName.toList) {c : Char} (hc : isWord c = false)
    (hother : c ∉ [':', '[', ']', ';']) : c ∉ (f.line hname htype).text := by
  have hname := not_mem_of_forall hname.2 hc
  have htype := not_mem_of_forall htype.2 hc
  simp only [List.mem_cons, List.not_mem_nil, or_false, not_or] at hother
  simp [line, PropertyLine.text, hname, htype, hother]

/-- The line that opens an interface, with nothing that could be left out. -/
def plainHeader (name : List Char) (h : IsIdentifier name) : HeaderLine where
  first := "export".toList
  between := [' ']
  second := "interface".toList
  behind := [' ']
  name := name
  rest := []
  first_lower := by decide
  between_ne_nil := by simp
  isBlank_between := List.forall_mem_singleton.mpr (by decide)
  second_lower := by decide
  behind_ne_nil := by simp
  isBlank_behind := List.forall_mem_singleton.mpr (by decide)
  stops_behind := h.stops (fun _ => not_isBlank_of_isWord) []
  isWord_name := h.2
  stops_name := stops_of_forall (by simp)

theorem HeaderLine.not_mem_text (h : HeaderLine) {c : Char} (hc : isWord c = false)
    (hbetween : c ∉ h.between) (hbehind : c ∉ h.behind) (hrest : c ∉ h.rest) : c ∉ h.text := by
  simp only [text, List.mem_append, not_or]
  exact ⟨not_mem_of_forall h.isWord_first hc, hbetween, not_mem_of_forall h.isWord_second hc,
    hbehind, not_mem_of_forall h.isWord_name hc, hrest⟩

/-- Any fields have lines, none of which holds a line end. -/
theorem exists_fieldLines {fields : List Field}
    (h : ∀ f ∈ fields, IsIdentifier f.name.toList ∧ IsIdentifier f.typeName.toList) :
    ∃ lines : List SourceLine, lines.filterMap SourceLine.field? = fields ∧
      ∀ line ∈ lines, '\n' ∉ line.text ∧ '\r' ∉ line.text := by
  induction fields with
  | nil => exact ⟨[], rfl, by simp⟩
  | cons f rest ih =>
      obtain ⟨⟨hname, htype⟩, hrest⟩ := List.forall_mem_cons.mp h
      obtain ⟨lines, hlines, hends⟩ := ih hrest
      refine ⟨.property (f.line hname htype) :: lines, ?_,
        List.forall_mem_cons.mpr ⟨⟨?_, ?_⟩, hends⟩⟩
      · have hfield : (SourceLine.property (f.line hname htype)).field? = some f :=
          congrArg some (f.field_line hname htype)
        rw [List.filterMap_cons_some hfield, hlines]
      · exact f.not_mem_text_line hname htype (by decide) (by decide)
      · exact f.not_mem_text_line hname htype (by decide) (by decide)

/-- Any name and any fields have a rendering without carriage returns. -/
theorem exists_renders {name : String} {fields : List Field} (hname : IsIdentifier name.toList)
    (h : ∀ f ∈ fields, IsIdentifier f.name.toList ∧ IsIdentifier f.typeName.toList) :
    ∃ text : String, '\r' ∉ text.toList ∧ Renders name fields text := by
  obtain ⟨lines, hlines, hends⟩ := exists_fieldLines h
  have hheader : ∀ c, isWord c = false → c ∉ [' '] → c ∉ (plainHeader name.toList hname).text :=
    fun c hc hblank =>
      (plainHeader name.toList hname).not_mem_text hc hblank hblank List.not_mem_nil
  have hall : ∀ line ∈ SourceLine.header (plainHeader name.toList hname) :: lines,
      '\n' ∉ line.text ∧ '\r' ∉ line.text :=
    List.forall_mem_cons.mpr
      ⟨⟨hheader '\n' (by decide) (by decide), hheader '\r' (by decide) (by decide)⟩, hends⟩
  refine ⟨String.ofList (['\n'].intercalate
      ((.header (plainHeader name.toList hname) :: lines).map SourceLine.text)), ?_,
    [], plainHeader name.toList hname, lines, by simp, hname.1, String.ofList_toList, hlines,
    fun line hline => (hall line hline).1, String.toList_ofList⟩
  intro hmem
  rw [String.toList_ofList] at hmem
  rcases mem_intercalate hmem with hmem | ⟨chars, hchars, hmem⟩
  · contradiction
  · obtain ⟨line, hline, rfl⟩ := List.mem_map.mp hchars
    exact (hall line hline).2 hmem

end Understudy
