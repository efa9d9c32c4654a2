import Mathlib.Data.List.Basic
import Understudy.Proofs.Line

/-!
# Understudy.Proofs.Grammar

The grammar of lines, apart from the readers: the parts that a line which declares a property is put
together from (`PropertyLine`), and those of a line that opens an interface (`HeaderLine`).

Each part ends where a character comes that cannot belong to it. So the readers find the parts of
every line that has them (`property?_text`, `header?_text`), and the parts of a property line are the
only ones (`PropertyLine.text_injective`). The one place where that takes an argument is a line
without a separator. Its word could be cut anywhere, and the grammar asks for a type of one
character.
-/

namespace Understudy

open Text Line

/-! ### The parts of a line -/

/-- A run of word characters that is not empty. -/
def IsIdentifier (word : List Char) : Prop := word ≠ [] ∧ ∀ c ∈ word, isWord c = true

instance (word : List Char) : Decidable (IsIdentifier word) :=
  inferInstanceAs (Decidable (_ ∧ ∀ c ∈ word, _))

/-- The parts of a line that declares a property. -/
@[ext]
structure PropertyLine where
  indent : List Char
  name : List Char
  separator : List Char
  type : List Char
  brackets : List Char
  isBlank_indent : ∀ c ∈ indent, isBlank c = true
  isIdentifier_name : IsIdentifier name
  isSeparator_separator : ∀ c ∈ separator, isSeparator c = true
  isIdentifier_type : IsIdentifier type
  isBracket_brackets : ∀ c ∈ brackets, isBracket c = true
  /-- If nothing separates them, name and type are one word, and its last character is the type. -/
  length_type : separator = [] → type.length = 1

/-- The parts of a line that opens an interface. -/
structure HeaderLine where
  /-- The word `export`. -/
  first : List Char
  between : List Char
  /-- The word `interface`. -/
  second : List Char
  behind : List Char
  /-- The name of the interface, which may be empty. -/
  name : List Char
  /-- What follows the name. -/
  rest : List Char
  first_lower : first.map Char.toLower = "export".toList
  between_ne_nil : between ≠ []
  isBlank_between : ∀ c ∈ between, isBlank c = true
  second_lower : second.map Char.toLower = "interface".toList
  behind_ne_nil : behind ≠ []
  isBlank_behind : ∀ c ∈ behind, isBlank c = true
  /-- The blanks before the name are all that there are. -/
  stops_behind : Stops isBlank (name ++ rest)
  isWord_name : ∀ c ∈ name, isWord c = true
  /-- The name does not go on. -/
  stops_name : Stops isWord rest

/-- The line that the parts make. -/
def PropertyLine.text (p : PropertyLine) : List Char :=
  p.indent ++ (p.name ++ (p.separator ++ (p.type ++ (p.brackets ++ [';']))))

/-- The field that the line declares. -/
def PropertyLine.field (p : PropertyLine) : Field :=
  ⟨String.ofList p.name, String.ofList p.type, !p.brackets.isEmpty⟩

/-- The line that the parts make. -/
def HeaderLine.text (h : HeaderLine) : List Char :=
  h.first ++ (h.between ++ (h.second ++ (h.behind ++ (h.name ++ h.rest))))

/-! ### Where the parts end -/

theorem not_isWord_of_isSeparator {c : Char} (h : isSeparator c = true) : isWord c = false := by
  cases hword : isWord c with
  | false => rfl
  | true => rw [not_isSeparator_of_isWord hword] at h; contradiction

theorem not_isWord_of_isBracket {c : Char} (h : isBracket c = true) : isWord c = false := by
  rw [isBracket, Bool.or_eq_true, beq_iff_eq, beq_iff_eq] at h
  rcases h with rfl | rfl <;> decide

theorem not_isSeparator_of_isBracket {c : Char} (h : isBracket c = true) :
    isSeparator c = false := by
  rw [isBracket, Bool.or_eq_true, beq_iff_eq, beq_iff_eq] at h
  rcases h with rfl | rfl <;> decide

theorem IsIdentifier.stops {word : List Char} (h : IsIdentifier word) {p : Char → Bool}
    (hp : ∀ c, isWord c = true → p c = false) (rest : List Char) : Stops p (word ++ rest) :=
  stops_append h.1 fun c hc => hp c (h.2 c hc)

/-- Brackets and the semicolon behind them are of no class that brackets are not of. -/
theorem stops_brackets {brackets : List Char} (h : ∀ c ∈ brackets, isBracket c = true)
    {p : Char → Bool} (hp : ∀ c, isBracket c = true → p c = false) (hend : p ';' = false) :
    Stops p (brackets ++ [';']) := by
  refine stops_of_forall fun c hc => ?_
  rcases List.mem_append.mp hc with hc | hc
  · exact hp c (h c hc)
  · rw [List.mem_singleton.mp hc, hend]

namespace PropertyLine

variable (p : PropertyLine)

theorem stops_isBlank : Stops isBlank
    (p.name ++ (p.separator ++ (p.type ++ (p.brackets ++ [';'])))) :=
  p.isIdentifier_name.stops (fun _ => not_isBlank_of_isWord) _

theorem stops_isSeparator : Stops isSeparator (p.type ++ (p.brackets ++ [';'])) :=
  p.isIdentifier_type.stops (fun _ => not_isSeparator_of_isWord) _

theorem stops_isWord : Stops isWord (p.brackets ++ [';']) :=
  stops_brackets p.isBracket_brackets (fun _ => not_isWord_of_isBracket) (by decide)

theorem stops_separator (h : p.separator ≠ []) :
    Stops isWord (p.separator ++ (p.type ++ (p.brackets ++ [';']))) :=
  stops_append h fun c hc => not_isWord_of_isSeparator (p.isSeparator_separator c hc)

/-- Without a separator, a line is one word between the indentation and the brackets. -/
theorem of_separator_nil (h : p.separator = []) :
    ∃ c, p.type = [c] ∧ p.text = p.indent ++ (p.name ++ [c] ++ (p.brackets ++ [';'])) ∧
      (∀ d ∈ p.name ++ [c], isWord d = true) ∧
      Stops isBlank (p.name ++ [c] ++ (p.brackets ++ [';'])) ∧
      Stops isSeparator (p.brackets ++ [';']) := by
  obtain ⟨c, hc⟩ := List.length_eq_one_iff.mp (p.length_type h)
  have hword : ∀ d ∈ p.name ++ [c], isWord d = true :=
    List.forall_mem_append.mpr ⟨p.isIdentifier_name.2, hc ▸ p.isIdentifier_type.2⟩
  exact ⟨c, hc, by simp [text, h, hc], hword,
    stops_append (by simp) fun d hd => not_isBlank_of_isWord (hword d hd),
    stops_brackets p.isBracket_brackets (fun _ => not_isSeparator_of_isBracket) (by decide)⟩

end PropertyLine

/-! ### Reading a property -/

namespace Line

theorem ending?_eq_some_iff {rest : List Char} {isArray : Bool} :
    ending? rest = some isArray ↔
      ∃ brackets, rest = brackets ++ [';'] ∧ (∀ c ∈ brackets, isBracket c = true) ∧
        (!brackets.isEmpty) = isArray := by
  constructor
  · intro h
    unfold ending? at h
    split at h
    · rename_i hend
      refine ⟨rest.takeWhile isBracket, ?_, List.all_eq_true.mp List.all_takeWhile,
        Option.some.inj h⟩
      rw [← hend, List.takeWhile_append_dropWhile]
    · contradiction
  · rintro ⟨brackets, rfl, hbrackets, rfl⟩
    have hend : Stops isBracket [';'] := stops_cons.mpr (by decide)
    rw [ending?, dropWhile_append_of_stops hbrackets hend, takeWhile_append_of_stops hbrackets hend,
      if_pos rfl]

theorem property?OfWord_eq_some_iff {word rest : List Char} {field : Field} :
    property?OfWord word rest = some field ↔
      ∃ name c isArray, word = name ++ [c] ∧ name ≠ [] ∧ ending? rest = some isArray ∧
        field = ⟨String.ofList name, String.ofList [c], isArray⟩ := by
  unfold property?OfWord
  rw [Option.ite_none_right_eq_some, Option.map_eq_some_iff]
  constructor
  · rintro ⟨hlength, isArray, hend, rfl⟩
    rcases List.eq_nil_or_concat' word with rfl | ⟨name, c, rfl⟩
    · contradiction
    · refine ⟨name, c, isArray, rfl, ?_, hend, by simp⟩
      rintro rfl
      contradiction
  · rintro ⟨name, c, isArray, rfl, hne, hend, rfl⟩
    have hlength : 0 < name.length := List.length_pos_iff.mpr hne
    exact ⟨by rw [List.length_append, List.length_singleton]; omega, isArray, hend, by simp⟩

/-- The reader finds the parts of a property line. -/
theorem property?_text (p : PropertyLine) : property? p.text = some p.field := by
  have hending : ending? (p.brackets ++ [';']) = some (!p.brackets.isEmpty) :=
    ending?_eq_some_iff.mpr ⟨p.brackets, rfl, p.isBracket_brackets, rfl⟩
  unfold property?
  dsimp only
  by_cases hsep : p.separator = []
  · obtain ⟨c, hc, htext, hword, hbody, hend⟩ := p.of_separator_nil hsep
    have hnone : (p.brackets ++ [';']).takeWhile isSeparator = [] :=
      takeWhile_append_of_stops (l := []) (by simp) hend
    rw [htext, dropWhile_append_of_stops p.isBlank_indent hbody,
      takeWhile_append_of_stops hword p.stops_isWord,
      dropWhile_append_of_stops hword p.stops_isWord, hnone, List.isEmpty_nil, if_pos rfl,
      property?OfWord_eq_some_iff]
    exact ⟨p.name, c, _, rfl, p.isIdentifier_name.1, hending, by rw [PropertyLine.field, hc]⟩
  · rw [PropertyLine.text, dropWhile_append_of_stops p.isBlank_indent p.stops_isBlank,
      takeWhile_append_of_stops p.isIdentifier_name.2 (p.stops_separator hsep),
      dropWhile_append_of_stops p.isIdentifier_name.2 (p.stops_separator hsep),
      takeWhile_append_of_stops p.isSeparator_separator p.stops_isSeparator,
      dropWhile_append_of_stops p.isSeparator_separator p.stops_isSeparator,
      if_neg (by simpa using hsep), property?OfRest,
      takeWhile_append_of_stops p.isIdentifier_type.2 p.stops_isWord,
      dropWhile_append_of_stops p.isIdentifier_type.2 p.stops_isWord, hending]
    have hname : p.name ≠ [] := p.isIdentifier_name.1
    have htype : p.type ≠ [] := p.isIdentifier_type.1
    simp [hname, htype, PropertyLine.field]

/-- What is read as a property has the parts of a property line. -/
theorem exists_of_property? {line : List Char} {field : Field} (h : property? line = some field) :
    ∃ p : PropertyLine, p.text = line ∧ p.field = field := by
  unfold property? at h
  dsimp only at h
  have hindent : ∀ c ∈ line.takeWhile isBlank, isBlank c = true :=
    List.all_eq_true.mp List.all_takeWhile
  generalize hbody : line.dropWhile isBlank = body at h
  have hword : ∀ c ∈ body.takeWhile isWord, isWord c = true :=
    List.all_eq_true.mp List.all_takeWhile
  generalize hrest : body.dropWhile isWord = rest at h
  have hline : line = line.takeWhile isBlank ++ (body.takeWhile isWord ++ rest) := by
    rw [← hrest, List.takeWhile_append_dropWhile, ← hbody, List.takeWhile_append_dropWhile]
  split at h
  · obtain ⟨name, c, isArray, hsplit, hne, hend, rfl⟩ := property?OfWord_eq_some_iff.mp h
    obtain ⟨brackets, rfl, hbrackets, rfl⟩ := ending?_eq_some_iff.mp hend
    rw [hsplit] at hword hline
    obtain ⟨hname, htype⟩ := List.forall_mem_append.mp hword
    refine ⟨⟨_, name, [], [c], brackets, hindent, ⟨hne, hname⟩, by simp,
      ⟨List.cons_ne_nil _ _, htype⟩, hbrackets, fun _ => rfl⟩, Eq.trans ?_ hline.symm, rfl⟩
    simp [PropertyLine.text]
  · rename_i hsep
    unfold property?OfRest at h
    dsimp only at h
    split at h
    · contradiction
    · rename_i hempty
      obtain ⟨isArray, hend, rfl⟩ := Option.map_eq_some_iff.mp h
      obtain ⟨brackets, htail, hbrackets, rfl⟩ := ending?_eq_some_iff.mp hend
      simp only [Bool.or_eq_true, List.isEmpty_iff, not_or] at hempty hsep
      refine ⟨⟨_, _, rest.takeWhile isSeparator, _, brackets, hindent, ⟨hempty.1, hword⟩,
        List.all_eq_true.mp List.all_takeWhile,
        ⟨hempty.2, List.all_eq_true.mp List.all_takeWhile⟩, hbrackets,
        fun hnil => absurd hnil hsep⟩, Eq.trans ?_ hline.symm, rfl⟩
      rw [PropertyLine.text, ← htail, List.takeWhile_append_dropWhile,
        List.takeWhile_append_dropWhile]

theorem property?_eq_some_iff {line : List Char} {field : Field} :
    property? line = some field ↔ ∃ p : PropertyLine, p.text = line ∧ p.field = field := by
  constructor
  · exact exists_of_property?
  · rintro ⟨p, rfl, rfl⟩
    exact property?_text p

end Line

/-! ### One way to take a property line apart -/

namespace PropertyLine

/-- The separator is what follows the first word of a line as far as it goes. -/
theorem separator_eq (p : PropertyLine) :
    ((p.text.dropWhile isBlank).dropWhile isWord).takeWhile isSeparator = p.separator := by
  by_cases hsep : p.separator = []
  · obtain ⟨c, -, htext, hword, hbody, hend⟩ := p.of_separator_nil hsep
    rw [htext, dropWhile_append_of_stops p.isBlank_indent hbody,
      dropWhile_append_of_stops hword p.stops_isWord, hsep]
    exact takeWhile_append_of_stops (l := []) (by simp) hend
  · rw [text, dropWhile_append_of_stops p.isBlank_indent p.stops_isBlank,
      dropWhile_append_of_stops p.isIdentifier_name.2 (p.stops_separator hsep),
      takeWhile_append_of_stops p.isSeparator_separator p.stops_isSeparator]

/-- A line has the parts of a property line in one way only. -/
theorem text_injective : Function.Injective text := by
  intro p q h
  have hsep : p.separator = q.separator := by rw [← p.separator_eq, h, q.separator_eq]
  have hsemicolon : Stops isBracket [';'] := stops_cons.mpr (by decide)
  by_cases hnil : p.separator = []
  · obtain ⟨c, hc, htext, hword, hbody, -⟩ := p.of_separator_nil hnil
    obtain ⟨d, hd, htext', hword', hbody', -⟩ := q.of_separator_nil (hsep ▸ hnil)
    rw [htext, htext'] at h
    obtain ⟨hindent, h⟩ := append_inj_of_stops p.isBlank_indent hbody q.isBlank_indent hbody' h
    obtain ⟨hone, h⟩ := append_inj_of_stops hword p.stops_isWord hword' q.stops_isWord h
    obtain ⟨hbrackets, -⟩ := append_inj_of_stops p.isBracket_brackets hsemicolon
      q.isBracket_brackets hsemicolon h
    obtain ⟨hname, htype⟩ := List.append_inj' hone rfl
    exact PropertyLine.ext hindent hname hsep (by rw [hc, hd, htype]) hbrackets
  · have hnil' : q.separator ≠ [] := hsep ▸ hnil
    obtain ⟨hindent, h⟩ := append_inj_of_stops p.isBlank_indent p.stops_isBlank
      q.isBlank_indent q.stops_isBlank h
    obtain ⟨hname, h⟩ := append_inj_of_stops p.isIdentifier_name.2 (p.stops_separator hnil)
      q.isIdentifier_name.2 (q.stops_separator hnil') h
    obtain ⟨-, h⟩ := append_inj_of_stops p.isSeparator_separator p.stops_isSeparator
      q.isSeparator_separator q.stops_isSeparator h
    obtain ⟨htype, h⟩ := append_inj_of_stops p.isIdentifier_type.2 p.stops_isWord
      q.isIdentifier_type.2 q.stops_isWord h
    obtain ⟨hbrackets, -⟩ := append_inj_of_stops p.isBracket_brackets hsemicolon
      q.isBracket_brackets hsemicolon h
    exact PropertyLine.ext hindent hname hsep htype hbrackets

end PropertyLine

/-! ### Reading the name of an interface -/

namespace HeaderLine

variable (h : HeaderLine)

theorem isWord_first : ∀ c ∈ h.first, isWord c = true :=
  isWord_of_map_toLower (by decide +kernel) h.first_lower

theorem isWord_second : ∀ c ∈ h.second, isWord c = true :=
  isWord_of_map_toLower (by decide +kernel) h.second_lower

theorem stops_between : Stops isBlank (h.second ++ (h.behind ++ (h.name ++ h.rest))) := by
  refine stops_append ?_ fun c hc => not_isBlank_of_isWord (h.isWord_second c hc)
  intro hnil
  have hlower := h.second_lower
  rw [hnil] at hlower
  contradiction

end HeaderLine

namespace Line

/-- The reader finds the name of a line that opens an interface. -/
theorem header?_text (h : HeaderLine) : header? h.text = some (String.ofList h.name) := by
  simp only [header?, Option.bind_eq_bind, Option.bind_eq_some_iff]
  refine ⟨_, afterKeyword?_eq_some_iff.mpr ⟨h.first, rfl, h.first_lower⟩,
    _, afterBlanks?_eq_some_iff.mpr
      ⟨h.between, rfl, h.between_ne_nil, h.isBlank_between, h.stops_between⟩,
    _, afterKeyword?_eq_some_iff.mpr ⟨h.second, rfl, h.second_lower⟩,
    _, afterBlanks?_eq_some_iff.mpr
      ⟨h.behind, rfl, h.behind_ne_nil, h.isBlank_behind, h.stops_behind⟩, ?_⟩
  rw [takeWhile_append_of_stops h.isWord_name h.stops_name]

theorem header?_eq_some_iff {line : List Char} {name : String} :
    header? line = some name ↔ ∃ h : HeaderLine, h.text = line ∧ String.ofList h.name = name := by
  constructor
  · intro hread
    simp only [header?, Option.bind_eq_bind, Option.bind_eq_some_iff] at hread
    obtain ⟨_, hexport, _, hbetween, _, hinterface, rest, hbehind, hname⟩ := hread
    cases hname
    obtain ⟨first, rfl, hfirst⟩ := afterKeyword?_eq_some_iff.mp hexport
    obtain ⟨between, rfl, hne, hblanks, -⟩ := afterBlanks?_eq_some_iff.mp hbetween
    obtain ⟨second, rfl, hsecond⟩ := afterKeyword?_eq_some_iff.mp hinterface
    obtain ⟨behind, rfl, hne', hblanks', hstops⟩ := afterBlanks?_eq_some_iff.mp hbehind
    have hsplit := List.takeWhile_append_dropWhile (p := isWord) (l := rest)
    exact ⟨⟨first, between, second, behind, rest.takeWhile isWord, rest.dropWhile isWord, hfirst,
      hne, hblanks, hsecond, hne', hblanks', by rwa [hsplit], List.all_eq_true.mp List.all_takeWhile,
      stops_dropWhile isWord rest⟩, by simp only [HeaderLine.text, hsplit], rfl⟩
  · rintro ⟨h, rfl, rfl⟩
    exact header?_text h

/-- No line both declares a property and opens an interface. -/
theorem text_ne_text (p : PropertyLine) (h : HeaderLine) : p.text ≠ h.text := by
  intro heq
  have hproperty := property?_text p
  rw [heq, property?_of_header? (header?_text h)] at hproperty
  contradiction

end Line

/-! ### Names and types -/

theorem Line.isIdentifier_of_property? {line : List Char} {field : Field}
    (h : property? line = some field) :
    IsIdentifier field.name.toList ∧ IsIdentifier field.typeName.toList := by
  obtain ⟨p, -, rfl⟩ := exists_of_property? h
  rw [PropertyLine.field, String.toList_ofList, String.toList_ofList]
  exact ⟨p.isIdentifier_name, p.isIdentifier_type⟩

/-- All that is named in a declaration that was read is named by an identifier. -/
theorem Declaration.isIdentifier_of_parse? {path : Path} {text : String} {d : Declaration}
    (h : parse? path text = some d) :
    IsIdentifier d.name.toList ∧
      ∀ f ∈ d.fields, IsIdentifier f.name.toList ∧ IsIdentifier f.typeName.toList := by
  rw [parse?_eq] at h
  obtain ⟨name, hname, rfl⟩ := Option.map_eq_some_iff.mp h
  constructor
  · obtain ⟨line, -, hline⟩ := List.exists_of_findSome?_eq_some hname
    obtain ⟨hheader, hne⟩ := Option.filter_eq_some_iff.mp hline
    obtain ⟨parts, -, rfl⟩ := header?_eq_some_iff.mp hheader
    refine ⟨?_, ?_⟩
    · simpa using hne
    · rw [String.toList_ofList]
      exact parts.isWord_name
  · intro f hf
    obtain ⟨line, -, hline⟩ := List.mem_filterMap.mp hf
    exact isIdentifier_of_property? hline

/-! ### Scanning a line -/

/-- What one more line adds to a scan. -/
theorem Scan.ofLines_concat (before : List (List Char)) (line : List Char) :
    ofLines (before ++ [line]) =
      ⟨(ofLines before).name.or ((header? line).filter (· ≠ "")),
        (ofLines before).fields ++ (property? line).toList⟩ := by
  rw [ofLines_append, append]
  simp only [ofLines, List.findSome?_cons, List.findSome?_nil, List.filterMap_cons,
    List.filterMap_nil, name?_read, field?_read]
  congr 1
  cases (header? line).filter (· ≠ "") <;> rfl

/-- **The grammar of lines.** Scanning a line adds a field if and only if the line is put together
as a property line, and then the field that its parts make; it has such parts in one way only. It
brings a name if and only if the line is put together as a header line with that name, and no line
is both. -/
theorem Scan.ofLines_by_grammar (line : List Char) :
    (∀ before, ofLines (before ++ [line]) =
      ⟨(ofLines before).name.or ((header? line).filter (· ≠ "")),
        (ofLines before).fields ++ (property? line).toList⟩) ∧
    (∀ field, property? line = some field ↔
      ∃ p : PropertyLine, p.text = line ∧ p.field = field) ∧
    Function.Injective PropertyLine.text ∧
    (∀ name, header? line = some name ↔
      ∃ h : HeaderLine, h.text = line ∧ String.ofList h.name = name) ∧
    ∀ (p : PropertyLine) (h : HeaderLine), p.text ≠ h.text :=
  ⟨fun before => ofLines_concat before line, fun _ => property?_eq_some_iff,
    PropertyLine.text_injective, fun _ => header?_eq_some_iff, text_ne_text⟩

end Understudy
