import Understudy.Proofs.Draws
import Understudy.Proofs.Grammar
import Understudy.Proofs.Quotation
import Understudy.Proofs.Separation
import Understudy.Provider.Scripted

/-!
# Understudy.Proofs.Readback

**Reading a module back.** The content of a module is a sequence of lines, each with a line feed
behind it (`Document.text_eq`). A reader who knows this layout and nothing else splits the text at
line feeds, the lines at empty ones and a property at the first colon with a blank behind it, and
drops the comma that a line may end in. This gives the names and the values of all constants if no
part of the document holds a line feed, no name a colon, and no value ends in a comma
(`Document.IsLegible.readConstants_text`).

Drafts are of this kind. All names and types of a declaration are words, for the reader of
declarations finds no others. What a provider answers is escaped before it is written, and each form
of a value has an end of its own, so no answer can bring in a line feed or a last comma
(`Kind.Shows.isInline`).
-/

namespace Understudy

/-! ### The lines of a document -/

/-- The line of an import. -/
def Import.line (i : Import) : String :=
  "import \x7b " ++ i.name ++ " \x7d from '" ++ i.specifier ++ "';"

/-- The lines of some properties. A comma ends each but the last. -/
def propertyLines : List Property → List String
  | [] => []
  | [q] => [q.text]
  | q :: q' :: rest => (q.text ++ ",") :: propertyLines (q' :: rest)

namespace Constant

/-- The definition of a constant up to its object. -/
def head (c : Constant) : String :=
  "export const " ++ c.name.text ++ ": " ++ c.name.interface ++ " = "

/-- The lines of a constant. Without properties there is one only. -/
def lines (c : Constant) : List String :=
  if c.properties = [] then [c.head ++ "\x7b\x7d;"]
  else (c.head ++ "\x7b") :: (propertyLines c.properties ++ ["\x7d;"])

end Constant

/-- The lines of a document: those of its imports, and those of each constant after an empty one. -/
def Document.lines (d : Document) : List String :=
  d.imports.map Import.line ++ d.constants.flatMap fun c => "" :: c.lines

/-- Lines as a text, each with a line feed behind it. -/
def ended (lines : List String) : String := String.join (lines.map (· ++ "\n"))

theorem toList_ended (lines : List String) :
    (ended lines).toList = (lines.map String.toList).flatMap fun line => line ++ ['\n'] := by
  rw [ended, String.toList_join, List.flatMap_map, List.flatMap_map]
  exact List.flatMap_congr fun line _ => String.toList_append

theorem ended_nil : ended [] = "" := rfl

theorem ended_cons (line : String) (rest : List String) :
    ended (line :: rest) = line ++ "\n" ++ ended rest := String.join_cons

theorem ended_append (lines more : List String) :
    ended (lines ++ more) = ended lines ++ ended more := by
  rw [← String.toList_inj, String.toList_append, toList_ended, toList_ended, toList_ended,
    List.map_append, List.flatMap_append]

theorem ended_flatMap {α : Type} (f : α → List String) (as : List α) :
    ended (as.flatMap f) = String.join (as.map fun a => ended (f a)) := by
  induction as with
  | nil => rfl
  | cons a rest ih => rw [List.flatMap_cons, ended_append, ih, List.map_cons, String.join_cons]

theorem ended_propertyLines {qs : List Property} (h : qs ≠ []) :
    ended (propertyLines qs) = ",\n".intercalate (qs.map Property.text) ++ "\n" := by
  induction qs with
  | nil => exact absurd rfl h
  | cons q rest ih =>
      cases rest with
      | nil =>
          rw [propertyLines, ended_cons, List.map_singleton, String.intercalate_singleton]
          exact String.append_empty
      | cons q' rest =>
          have hfeed : ",\n" = "," ++ "\n" := rfl
          rw [propertyLines, ended_cons, ih (List.cons_ne_nil _ _), List.map_cons, List.map_cons,
            List.map_cons, String.intercalate_cons_cons]
          simp only [hfeed, String.append_assoc]

theorem Constant.ended_lines (c : Constant) : ended c.lines = c.text := by
  have htext : c.text = c.head ++ c.body ++ ";\n" := rfl
  rw [htext, lines, body]
  by_cases h : c.properties = []
  · have hbraces : "\x7b\x7d;" ++ "\n" = "\x7b\x7d" ++ ";\n" := rfl
    rw [if_pos h, if_pos (by rw [h]; rfl), ended_cons, ended_nil, String.append_empty,
      String.append_assoc, hbraces, String.append_assoc]
  · have hopen : "\x7b\n" = "\x7b" ++ "\n" := rfl
    have hclose : "\n\x7d" ++ ";\n" = "\n" ++ ("\x7d;" ++ "\n") := rfl
    rw [if_neg h, if_neg (by simpa using h), ended_cons, ended_append, ended_propertyLines h,
      ended_cons, ended_nil, String.append_empty, hopen]
    simp only [String.append_assoc, hclose]

/-- A document is written line by line. -/
theorem Document.text_eq (d : Document) : d.text = ended d.lines := by
  have himport : ∀ i : Import, i.text = i.line ++ "\n" := by
    intro i
    unfold Import.text Import.line
    simp only [← String.toList_inj, String.toList_append, List.append_assoc]
    rfl
  rw [lines, ended_append, ended_flatMap, text, importText, ended, List.map_map]
  congr 2
  · exact List.map_congr_left fun i _ => himport i
  · refine List.map_congr_left fun c _ => ?_
    rw [ended_cons, c.ended_lines, String.empty_append]

/-! ### The reader -/

/-- What stands before the first colon with a blank behind it, and what stands behind the two. -/
def splitColon : List Char → List Char × List Char
  | ':' :: ' ' :: rest => ([], rest)
  | c :: rest => (c :: (splitColon rest).1, (splitColon rest).2)
  | [] => ([], [])

/-- A text without the comma that it may end in. -/
def dropComma (text : List Char) : List Char :=
  if text.getLast? = some ',' then text.dropLast else text

/-- Reads the line of a property: its name, and how its value is written. -/
def readProperty (line : List Char) : String × String :=
  (String.ofList (splitColon (line.drop 4)).1, String.ofList (dropComma (splitColon (line.drop 4)).2))

/-- Reads the lines of a constant. The first and the last hold no property. -/
def readConstant (lines : List (List Char)) : List (String × String) :=
  lines.tail.dropLast.map readProperty

/-- Reads the constants of a module. Each of them stands behind an empty line. -/
def readConstants (text : String) : List (List (String × String)) :=
  ((text.toList.splitOn '\n').dropLast.splitOn []).tail.map readConstant

theorem splitColon_append {name : List Char} (h : ':' ∉ name) (value : List Char) :
    splitColon (name ++ ':' :: ' ' :: value) = (name, value) := by
  induction name with
  | nil => rfl
  | cons c rest ih =>
      obtain ⟨hc, hrest⟩ := List.ne_and_not_mem_of_not_mem_cons h
      rw [List.cons_append, splitColon, ih hrest]
      exact fun _ hcolon => absurd hcolon.symm hc

theorem dropComma_concat (text : List Char) : dropComma (text ++ [',']) = text := by
  rw [dropComma, if_pos List.getLast?_concat, List.dropLast_concat]

theorem dropComma_of_ne {text : List Char} (h : text.getLast? ≠ some ',') : dropComma text = text :=
  if_neg h

/-! ### Legible documents -/

/-- Whether a value is written on one line that does not end in a comma. -/
structure Literal.IsInline (value : Literal) : Prop where
  not_mem : '\n' ∉ value.text.toList
  getLast?_ne : value.text.toList.getLast? ≠ some ','

/-- Whether a property can be read from its line. -/
structure Property.IsLegible (q : Property) : Prop where
  name : '\n' ∉ q.name.toList ∧ ':' ∉ q.name.toList
  value : q.value.IsInline

/-- Whether a document can be read from its lines. -/
structure Document.IsLegible (d : Document) : Prop where
  imports : ∀ i ∈ d.imports, '\n' ∉ i.name.toList ∧ '\n' ∉ i.specifier.toList
  constants : ∀ c ∈ d.constants, '\n' ∉ c.name.interface.toList
  properties : ∀ c ∈ d.constants, ∀ q ∈ c.properties, q.IsLegible

theorem MockName.not_mem_text {m : MockName} (h : '\n' ∉ m.interface.toList) :
    '\n' ∉ m.text.toList := by
  have hmock : '\n' ∉ "mock".toList := by decide
  have hindex : '\n' ∉ (toString m.index).toList := fun hmem =>
    absurd (isDigit_of_mem_repr hmem) (by decide)
  simp only [text, String.toList_append, List.mem_append, not_or]
  exact ⟨⟨hmock, h⟩, hindex⟩

theorem Property.toList_text (q : Property) :
    q.text.toList = "    ".toList ++ (q.name.toList ++ ':' :: ' ' :: q.value.text.toList) := by
  simp only [text, String.toList_append, List.append_assoc]
  rfl

namespace Property.IsLegible

variable {q : Property} {qs : List Property}

theorem not_mem_text (h : q.IsLegible) : '\n' ∉ q.text.toList := by
  have hspaces : '\n' ∉ "    ".toList := by decide
  simp only [toList_text, List.mem_append, List.mem_cons, not_or]
  exact ⟨hspaces, h.name.1, by decide, by decide, h.value.not_mem⟩

/-- A property is read from its line, with a comma behind it or without. -/
theorem readProperty_text (h : q.IsLegible) :
    readProperty q.text.toList = (q.name, q.value.text) ∧
      readProperty (q.text ++ ",").toList = (q.name, q.value.text) := by
  have hdrop : ∀ rest : List Char, ("    ".toList ++ rest).drop 4 = rest := fun _ => rfl
  have hcomma : (q.text ++ ",").toList = "    ".toList ++
      (q.name.toList ++ ':' :: ' ' :: (q.value.text.toList ++ [','])) := by
    rw [String.toList_append, toList_text]
    simp only [List.append_assoc, List.cons_append]
    rfl
  constructor
  · rw [readProperty, toList_text, hdrop, splitColon_append h.name.2,
      dropComma_of_ne h.value.getLast?_ne, String.ofList_toList, String.ofList_toList]
  · rw [readProperty, hcomma, hdrop, splitColon_append h.name.2, dropComma_concat,
      String.ofList_toList, String.ofList_toList]

theorem map_readProperty (h : ∀ q ∈ qs, q.IsLegible) :
    (propertyLines qs).map (fun line => readProperty line.toList) =
      qs.map fun q => (q.name, q.value.text) := by
  induction qs with
  | nil => rfl
  | cons q rest ih =>
      obtain ⟨hq, hrest⟩ := List.forall_mem_cons.mp h
      cases rest with
      | nil => rw [propertyLines, List.map_singleton, List.map_singleton, hq.readProperty_text.1]
      | cons q' rest =>
          rw [propertyLines, List.map_cons, List.map_cons, ih hrest, hq.readProperty_text.2]

end Property.IsLegible

theorem exists_of_mem_propertyLines {qs : List Property} {line : String}
    (h : line ∈ propertyLines qs) : ∃ q ∈ qs, line = q.text ∨ line = q.text ++ "," := by
  induction qs with
  | nil => cases h
  | cons q rest ih =>
      cases rest with
      | nil => exact ⟨q, List.mem_cons_self, Or.inl (List.mem_singleton.mp h)⟩
      | cons q' rest =>
          rcases List.mem_cons.mp h with hline | h
          · exact ⟨q, List.mem_cons_self, Or.inr hline⟩
          · obtain ⟨other, hother, hline⟩ := ih h
            exact ⟨other, List.mem_cons_of_mem _ hother, hline⟩

namespace Constant

variable {c : Constant}

theorem toList_head_ne_nil (c : Constant) : c.head.toList ≠ [] := by
  unfold head
  simp only [String.toList_append, ne_eq, List.append_eq_nil_iff]
  exact fun h => absurd h.1.1.1.1 (by decide)

theorem not_mem_head (h : '\n' ∉ c.name.interface.toList) : '\n' ∉ c.head.toList := by
  unfold head
  simp only [String.toList_append, List.mem_append, not_or]
  exact ⟨⟨⟨⟨by decide, MockName.not_mem_text h⟩, by decide⟩, h⟩, by decide⟩

/-- The lines of a constant hold no line feed, and none of them is empty. -/
theorem of_mem_lines (h : '\n' ∉ c.name.interface.toList) (hqs : ∀ q ∈ c.properties, q.IsLegible)
    {line : String} (hline : line ∈ c.lines) : '\n' ∉ line.toList ∧ line.toList ≠ [] := by
  have hhead : ∀ {rest : String}, '\n' ∉ rest.toList →
      '\n' ∉ (c.head ++ rest).toList ∧ (c.head ++ rest).toList ≠ [] := by
    intro rest hrest
    rw [String.toList_append, List.mem_append, not_or]
    exact ⟨⟨not_mem_head h, hrest⟩, List.append_ne_nil_of_left_ne_nil c.toList_head_ne_nil _⟩
  have hproperty : ∀ q ∈ c.properties, line = q.text ∨ line = q.text ++ "," →
      '\n' ∉ line.toList ∧ line.toList ≠ [] := by
    intro q hq hline
    have htext := (hqs q hq).not_mem_text
    rcases hline with rfl | rfl
    · rw [Property.toList_text] at htext ⊢
      exact ⟨htext, List.cons_ne_nil _ _⟩
    · rw [String.toList_append, List.mem_append, not_or]
      refine ⟨⟨htext, by decide⟩, ?_⟩
      rw [Property.toList_text]
      exact List.cons_ne_nil _ _
  unfold lines at hline
  split at hline
  · rw [List.mem_singleton.mp hline]
    exact hhead (by decide)
  · rcases List.mem_cons.mp hline with rfl | hline
    · exact hhead (by decide)
    · rcases List.mem_append.mp hline with hline | hline
      · obtain ⟨q, hq, hline⟩ := exists_of_mem_propertyLines hline
        exact hproperty q hq hline
      · rw [List.mem_singleton.mp hline]
        decide

/-- The properties of a constant are read from its lines. -/
theorem readConstant_lines (hqs : ∀ q ∈ c.properties, q.IsLegible) :
    readConstant (c.lines.map String.toList) = c.properties.map fun q => (q.name, q.value.text) := by
  unfold lines readConstant
  split
  · rename_i hnil
    rw [hnil]
    rfl
  · rw [List.map_cons, List.tail_cons, List.map_append, List.map_singleton, List.dropLast_concat,
      List.map_map]
    exact Property.IsLegible.map_readProperty hqs

end Constant

namespace Document.IsLegible

variable {d : Document}

theorem not_mem_lines (h : d.IsLegible) : ∀ line ∈ d.lines, '\n' ∉ line.toList := by
  intro line hline
  rcases List.mem_append.mp hline with hline | hline
  · obtain ⟨i, hi, rfl⟩ := List.mem_map.mp hline
    obtain ⟨hname, hspecifier⟩ := h.imports i hi
    simp only [Import.line, String.toList_append, List.mem_append, not_or]
    exact ⟨⟨⟨⟨by decide, hname⟩, by decide⟩, hspecifier⟩, by decide⟩
  · obtain ⟨c, hc, hline⟩ := List.mem_flatMap.mp hline
    rcases List.mem_cons.mp hline with rfl | hline
    · decide
    · exact (Constant.of_mem_lines (h.constants c hc) (h.properties c hc) hline).1

/-- The text of a legible document has the lines of the document and no others. -/
theorem splitOn_text (h : d.IsLegible) :
    d.text.toList.splitOn '\n' = d.lines.map String.toList ++ [[]] := by
  rw [text_eq, toList_ended, splitOn_flatMap_concat]
  intro chars hchars
  obtain ⟨line, hline, rfl⟩ := List.mem_map.mp hchars
  exact h.not_mem_lines line hline

/-- The constants of a legible document are read from its text. -/
theorem readConstants_text (h : d.IsLegible) :
    readConstants d.text =
      d.constants.map fun c => c.properties.map fun q => (q.name, q.value.text) := by
  have hblocks : d.lines.map String.toList = (d.imports.map Import.line).map String.toList ++
      (d.constants.map fun c => c.lines.map String.toList).flatMap fun block => [] :: block := by
    rw [lines, List.map_append, List.map_flatMap, List.flatMap_map]
    rfl
  have himports : [] ∉ (d.imports.map Import.line).map String.toList := by
    intro hmem
    obtain ⟨line, hline, hempty⟩ := List.mem_map.mp hmem
    obtain ⟨i, -, rfl⟩ := List.mem_map.mp hline
    simp only [Import.line, String.toList_append, List.append_assoc] at hempty
    cases hempty
  have hconstants : ∀ block ∈ d.constants.map fun c => c.lines.map String.toList, [] ∉ block := by
    intro block hblock hmem
    obtain ⟨c, hc, rfl⟩ := List.mem_map.mp hblock
    obtain ⟨line, hline, hempty⟩ := List.mem_map.mp hmem
    exact (Constant.of_mem_lines (h.constants c hc) (h.properties c hc) hline).2 hempty
  rw [readConstants, h.splitOn_text, List.dropLast_concat, hblocks,
    splitOn_append_flatMap_cons himports hconstants, List.tail_cons, List.map_map]
  exact List.map_congr_left fun c hc => Constant.readConstant_lines (h.properties c hc)

end Document.IsLegible

/-! ### The values of a draft -/

namespace Literal

theorem isInline_quoted (raw : String) : (quoted raw).IsInline where
  not_mem := by
    rw [text, String.toList_ofList]
    exact Text.Quoted.not_mem_encode _
  getLast?_ne := by
    rw [text, String.toList_ofList, Text.Quoted.encode, ← List.cons_append, List.getLast?_concat]
    decide

theorem isInline_integer (n : Int) : (integer n).IsInline where
  not_mem h := by
    rcases isDigit_of_mem_toString h with h | h <;> exact absurd h (by decide)
  getLast?_ne h := by
    rcases isDigit_of_mem_toString (List.mem_of_getLast? h) with h | h <;>
      exact absurd h (by decide)

theorem isInline_boolean (b : Bool) : (boolean b).IsInline := by
  cases b <;> exact ⟨by decide, by decide⟩

theorem isInline_spread {mock : MockName} (h : '\n' ∉ mock.interface.toList) :
    (spread mock).IsInline where
  not_mem := by
    simp only [text, String.toList_append, List.mem_append, not_or]
    exact ⟨⟨by decide, MockName.not_mem_text h⟩, by decide⟩
  getLast?_ne := by
    have hbrace : "\x7d".toList = ['\x7d'] := rfl
    rw [text, String.toList_append, hbrace, List.getLast?_concat]
    decide

theorem IsInline.arrayIf {value : Literal} (h : value.IsInline) (isArray : Bool) :
    (value.arrayIf isArray).IsInline := by
  cases isArray with
  | false => exact h
  | true =>
      have hbracket : "]".toList = [']'] := rfl
      constructor
      · simp only [Literal.arrayIf, if_true, text, String.toList_append, List.mem_append, not_or]
        exact ⟨⟨by decide, h.not_mem⟩, by decide⟩
      · rw [Literal.arrayIf, if_pos rfl, text, String.toList_append, hbracket,
          List.getLast?_concat]
        decide

end Literal

/-- No answer of a provider brings a line feed or a comma at the end into a value. -/
theorem Kind.Shows.isInline {kind : Kind} {replies : List Reply} {value : Literal}
    (h : kind.Shows replies value)
    (hkind : ∀ interface, kind = .reference interface → '\n' ∉ interface.toList) :
    value.IsInline := by
  cases h with
  | number n => exact Literal.isInline_integer n
  | boolean b => exact Literal.isInline_boolean b
  | null => exact ⟨by decide, by decide⟩
  | reference interface => exact Literal.isInline_spread (hkind interface rfl)
  | _ => exact Literal.isInline_quoted _

/-- A value of another interface stands for a field only if the type of the field is that interface. -/
theorem Field.typeName_of_getD_kind? {known : String → Bool} {field : Field} {interface : String}
    (h : (field.kind? known).getD .null = .reference interface) : field.typeName = interface := by
  cases hkind : field.kind? known with
  | none =>
      rw [hkind] at h
      cases h
  | some kind =>
      have htarget : field.target? known = some interface := by
        rw [hkind, Option.getD_some] at h
        rw [Field.target?, hkind, h]
        rfl
      exact (Field.known_of_target? htarget).2

/-! ### Drafts -/

namespace Declaration

variable {σ : Type} {d : Declaration} {known : String → Bool} {layout : Layout}
  {replies : List Reply} {document : Document}

/-- A field stands for no interface but its type. -/
theorem typeName_of_kindIn {index : Nat} {field : Field} {interface : String}
    (h : d.kindIn known index field = .reference interface) : field.typeName = interface := by
  unfold kindIn at h
  split at h
  · cases h
  · exact Field.typeName_of_getD_kind? h

/-- Names without line feeds and colons make a legible document. -/
theorem DocumentShows.isLegible (h : d.DocumentShows known layout replies document)
    (hname : '\n' ∉ d.name.toList) (hspecifier : '\n' ∉ (d.specifier layout).toList)
    (hfields : ∀ f ∈ d.fields, ('\n' ∉ f.name.toList ∧ ':' ∉ f.name.toList) ∧
      '\n' ∉ f.typeName.toList) : document.IsLegible where
  imports := by
    intro i hi
    rw [h.1] at hi
    rcases List.mem_cons.mp hi with rfl | hi
    · exact ⟨hname, hspecifier⟩
    · obtain ⟨interface, hinterface, rfl⟩ := List.mem_map.mp hi
      obtain ⟨-, field, hfield, htarget⟩ := mem_targets_iff.mp hinterface
      have hfeed : '\n' ∉ interface.toList :=
        (Field.known_of_target? htarget).2 ▸ (hfields field hfield).2
      refine ⟨MockName.not_mem_text hfeed, ?_⟩
      simp only [mockImport, String.toList_append, List.mem_append, not_or]
      exact ⟨⟨by decide, hfeed⟩, by decide⟩
  constants := by
    intro c hc
    obtain ⟨index, -, taken, hcname, -⟩ := h.2.exists_of_mem hc
    rw [hcname]
    exact hname
  properties := by
    intro c hc q hq
    obtain ⟨index, -, taken, -, hproperties⟩ := h.2.exists_of_mem hc
    obtain ⟨field, hfield, taken', element, hshows, rfl⟩ := hproperties.exists_of_mem hq
    refine ⟨(hfields field hfield).1, (hshows.isInline fun interface hkind => ?_).arrayIf _⟩
    exact typeName_of_kindIn hkind ▸ (hfields field hfield).2

/-- A content that is laid out as a document and tells what the document holds. -/
structure ReadsBack (d : Declaration) (known : String → Bool) (layout : Layout) (content : String)
    (document : Document) : Prop where
  /-- Between the line feeds stand the lines of the document, and nothing behind the last. -/
  lines : content.toList.splitOn '\n' = document.lines.map String.toList ++ [[]]
  imports : document.imports = d.ownImport layout :: (d.targets known).map mockImport
  names : document.constants.map Constant.name =
    (List.range' 1 layout.mode.constantCount).map fun index => ⟨d.name, index⟩
  properties : ∀ c ∈ document.constants, c.properties.map Property.name = d.fields.map Field.name
  /-- The constants are read from the content alone. -/
  constants : readConstants content =
    document.constants.map fun c => c.properties.map fun q => (q.name, q.value.text)

/-- **Reading a module back.** The module of a declaration that was read from a file is laid out in
lines, whatever the provider answers, as long as the specifier of the file holds no line feed. The
lines are those of a document that shows what the provider has answered, and the names and the
values of all its constants can be read from them. -/
theorem module_reads_back {path : Path} {text : String} (hparse : parse? path text = some d)
    (r : Registry) (layout : Layout) (hspecifier : '\n' ∉ (d.specifier layout).toList)
    (p : Provider σ) (s : σ) :
    ∃ document, d.DocumentShows r.contains layout
        (p.replies (d.draws r.contains layout.mode) s) document ∧
      d.ReadsBack r.contains layout ((d.mockModule r layout p).run { state := s }).1.content
        document := by
  obtain ⟨hname, hfields⟩ := isIdentifier_of_parse? hparse
  have hdrafted := d.drafted p r layout s
  have hshows := hdrafted.shows
  have hlegible := hshows.isLegible (not_mem_of_forall hname.2 (by decide)) hspecifier
    fun f hf => ⟨⟨not_mem_of_forall (hfields f hf).1.2 (by decide),
      not_mem_of_forall (hfields f hf).1.2 (by decide)⟩,
      not_mem_of_forall (hfields f hf).2.2 (by decide)⟩
  refine ⟨_, hshows, ?_⟩
  rw [hdrafted.run]
  exact
    { lines := hlegible.splitOn_text
      imports := hshows.1
      names := hshows.2.map_eq fun hc => hc.1
      properties := by
        intro c hc
        obtain ⟨index, -, taken, hconstant⟩ := hshows.2.exists_of_mem hc
        exact hconstant.map_name
      constants := hlegible.readConstants_text }

/-- What separates the parts of a module does no harm in a word. -/
theorem module_reads_back_separators :
    let text := "export interface A \x7b\n  a: string;\n  b: B[];\n\x7d\n"
    let d : Declaration := ⟨"A", ⟨"A.interface.ts"⟩, [⟨"a", "string", false⟩, ⟨"b", "B", true⟩]⟩
    let r : Registry := ⟨[d, ⟨"B", ⟨"B.interface.ts"⟩, []⟩], by decide⟩
    let p := Script.provider { words := ["it's: 1,\n,"] }
    let content := ((d.mockModule r {} p).run { state := {} }).1.content
    parse? d.path text = some d ∧ '\n' ∉ (d.specifier {}).toList ∧
      (∃ document, d.ReadsBack r.contains {} content document) ∧
      readConstants content = [[("a", "'it\\'s: 1,\\n,'"), ("b", "[\x7b...mockB1\x7d]")]] := by
  intro text d r p content
  have hparse : parse? d.path text = some d := by decide +kernel
  have hspecifier : '\n' ∉ (d.specifier {}).toList := by decide +kernel
  obtain ⟨document, -, hreads⟩ := module_reads_back hparse r {} hspecifier p {}
  exact ⟨hparse, hspecifier, ⟨document, hreads⟩, by decide +kernel⟩

end Declaration

end Understudy
