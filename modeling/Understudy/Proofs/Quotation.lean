import Mathlib.Data.List.Basic
import Understudy.Proofs.Links
import Understudy.Proofs.Resolution

/-!
# Understudy.Proofs.Quotation

Reading quoted text back. A reader starts at an opening quote, decodes the three escapes, refuses
every other escape and every bare line feed, and stops behind the first quote that is not escaped.
What it reads is what `Quoted.encode` writes and nothing else (`Quoted.read?_eq_some_iff`). So a
quoted value of a constant is read up to its end, whatever it says and whatever stands behind it
(`Literal.quoted_delimits`).

An import line puts the specifier between quotes as it is. So the line is read back just when the
specifier has nothing to escape, and otherwise the literal ends early, says something else or has no
end (`Declaration.read?_ownImport_iff`). Paths without a backslash, a quote and a line feed are safe,
for a specifier has no characters but those of the path, dots and slashes
(`Declaration.mem_path_of_mem_specifier`).
-/

namespace Understudy

/-! ### The reader -/

namespace Text.Quoted

/-- The character that a backslash and the given character stand for. -/
def unescape? (c : Char) : Option Char :=
  if c = '\\' then some '\\'
  else if c = mark then some mark
  else if c = 'n' then some '\n'
  else none

/-- Reads from behind the opening quote: what the text says, and what follows the closing quote. -/
def readOn? : List Char → Option (List Char × List Char)
  | '\\' :: e :: text =>
    (unescape? e).bind fun c => (readOn? text).map fun (raw, rest) => (c :: raw, rest)
  | c :: text =>
    if c = mark then some ([], text)
    else if c = '\\' ∨ c = '\n' then none
    else (readOn? text).map fun (raw, rest) => (c :: raw, rest)
  | [] => none

/-- Reads a quoted text from its opening quote. -/
def read? : List Char → Option (List Char × List Char)
  | c :: text => if c = mark then readOn? text else none
  | [] => none

variable {raw rest text : List Char}

/-- A character stands for itself, or it is written as a backslash and another character. -/
theorem escape_cases (c : Char) :
    (c ≠ '\\' ∧ c ≠ mark ∧ c ≠ '\n' ∧ escape c = [c]) ∨
      ∃ e, escape c = ['\\', e] ∧ unescape? e = some c := by
  by_cases hbackslash : c = '\\'
  · exact Or.inr ⟨'\\', by rw [hbackslash]; decide⟩
  by_cases hquote : c = mark
  · exact Or.inr ⟨mark, by rw [hquote]; decide⟩
  by_cases hfeed : c = '\n'
  · exact Or.inr ⟨'n', by rw [hfeed]; decide⟩
  · refine Or.inl ⟨hbackslash, hquote, hfeed, ?_⟩
    rw [escape, if_neg hbackslash, if_neg hquote, if_neg hfeed]

/-- Only the three escapes are understood. -/
theorem escape_of_unescape? {c e : Char} (h : unescape? e = some c) : escape c = ['\\', e] := by
  unfold unescape? at h
  split_ifs at h with hbackslash hquote hfeed
  · cases h
    rw [hbackslash]
    decide
  · cases h
    rw [hquote]
    decide
  · cases h
    rw [hfeed]
    decide

theorem readOn?_flatMap_escape (raw rest : List Char) :
    readOn? (raw.flatMap escape ++ mark :: rest) = some (raw, rest) := by
  induction raw with
  | nil => rfl
  | cons c raw ih =>
      rw [List.flatMap_cons, List.append_assoc]
      rcases escape_cases c with ⟨hbackslash, hquote, hfeed, hescape⟩ | ⟨e, hescape, hunescape⟩
      · rw [hescape, List.singleton_append, readOn?, if_neg hquote,
          if_neg (not_or.mpr ⟨hbackslash, hfeed⟩), ih]
        · rfl
        · exact fun _ _ h => absurd h hbackslash
      · rw [hescape, List.cons_append, List.singleton_append, readOn?, hunescape, Option.bind_some, ih]
        rfl

theorem eq_of_readOn? (h : readOn? text = some (raw, rest)) :
    text = raw.flatMap escape ++ mark :: rest := by
  induction text using readOn?.induct generalizing raw rest with
  | case1 e text ih =>
      rw [readOn?] at h
      obtain ⟨c, hc, h⟩ := Option.bind_eq_some_iff.mp h
      obtain ⟨⟨read, left⟩, hread, h⟩ := Option.map_eq_some_iff.mp h
      cases h
      rw [ih hread, List.flatMap_cons, escape_of_unescape? hc]
      rfl
  | case2 text hlone =>
      rw [readOn?, if_pos rfl] at h
      · cases h
        rfl
      · exact hlone
  | case3 c text hlone hquote hrefused =>
      rw [readOn?, if_neg hquote, if_pos hrefused] at h
      · cases h
      · exact hlone
  | case4 c text hlone hquote hplain ih =>
      rw [readOn?, if_neg hquote, if_neg hplain] at h
      · obtain ⟨⟨read, left⟩, hread, h⟩ := Option.map_eq_some_iff.mp h
        cases h
        obtain ⟨hbackslash, hfeed⟩ := not_or.mp hplain
        rw [ih hread, List.flatMap_cons, escape, if_neg hbackslash, if_neg hquote, if_neg hfeed]
        rfl
      · exact hlone
  | case5 => cases h

/-- A reader reads what is written, up to its end, and nothing else. -/
theorem read?_eq_some_iff : read? text = some (raw, rest) ↔ text = encode raw ++ rest := by
  have hencode : encode raw ++ rest = mark :: (raw.flatMap escape ++ mark :: rest) := by
    rw [encode, List.cons_append, List.append_assoc, List.singleton_append]
  rw [hencode]
  constructor
  · intro h
    cases text with
    | nil => cases h
    | cons c text =>
        rw [read?] at h
        split_ifs at h with hmark
        rw [hmark, eq_of_readOn? h]
  · intro h
    rw [h, read?, if_pos rfl, readOn?_flatMap_escape]

/-- No written text is the start of another one, whatever follows them. -/
theorem encode_append_inj {other more : List Char} :
    encode raw ++ rest = encode other ++ more ↔ raw = other ∧ rest = more := by
  constructor
  · intro h
    have hread := read?_eq_some_iff.mpr h
    rw [read?_eq_some_iff.mpr rfl, Option.some.injEq, Prod.mk.injEq] at hread
    exact hread
  · intro h
    rw [h.1, h.2]

/-- Every line feed is escaped. -/
theorem not_mem_encode (raw : List Char) : '\n' ∉ encode raw := by
  have hescape : ∀ c, '\n' ∉ escape c := by
    intro c
    rcases escape_cases c with ⟨-, -, hfeed, hescape⟩ | ⟨e, hescape, hunescape⟩
    · rw [hescape, List.mem_singleton]
      exact Ne.symm hfeed
    · rw [hescape, List.mem_cons, List.mem_singleton]
      rintro (hfeed | rfl)
      · exact absurd hfeed (by decide)
      · cases hunescape
  rw [encode, List.mem_cons, List.mem_append, List.mem_singleton]
  rintro (hmark | hraw | hmark)
  · exact absurd hmark (by decide)
  · obtain ⟨c, -, hc⟩ := List.mem_flatMap.mp hraw
    exact hescape c hc
  · exact absurd hmark (by decide)

/-! ### Text that has nothing to escape -/

/-- Whether a text stands for itself between quotes. -/
def IsPlain (raw : List Char) : Prop := ∀ c ∈ raw, c ≠ '\\' ∧ c ≠ mark ∧ c ≠ '\n'

theorem length_le_length_flatMap_escape (raw : List Char) :
    raw.length ≤ (raw.flatMap escape).length := by
  induction raw with
  | nil => exact Nat.zero_le _
  | cons c raw ih =>
      rw [List.flatMap_cons, List.length_append, List.length_cons]
      rcases escape_cases c with ⟨-, -, -, hescape⟩ | ⟨e, hescape, -⟩ <;>
        simp only [hescape, List.length_cons, List.length_nil] <;> omega

/-- Escapes make a text longer, so only a plain text is written as it is. -/
theorem flatMap_escape_eq_self_iff : raw.flatMap escape = raw ↔ IsPlain raw := by
  induction raw with
  | nil => exact ⟨fun _ _ h => absurd h List.not_mem_nil, fun _ => rfl⟩
  | cons c raw ih =>
      rw [List.flatMap_cons, IsPlain, List.forall_mem_cons, ← IsPlain, ← ih]
      rcases escape_cases c with ⟨hbackslash, hquote, hfeed, hescape⟩ | ⟨e, hescape, hunescape⟩
      · rw [hescape, List.singleton_append, List.cons_inj_right]
        exact (and_iff_right ⟨hbackslash, hquote, hfeed⟩).symm
      · constructor
        · intro h
          have hlength := congrArg List.length h
          have hle := length_le_length_flatMap_escape raw
          simp only [hescape, List.length_append, List.length_cons, List.length_nil] at hlength
          omega
        · intro h
          obtain ⟨⟨hbackslash, hquote, hfeed⟩, -⟩ := h
          rw [escape, if_neg hbackslash, if_neg hquote, if_neg hfeed] at hescape
          cases hescape

/-- A text that stands between quotes as it is can be read back if and only if it is plain. -/
theorem read?_unescaped_iff :
    read? (mark :: (raw ++ mark :: rest)) = some (raw, rest) ↔ IsPlain raw := by
  rw [read?_eq_some_iff, ← flatMap_escape_eq_self_iff, encode, List.cons_append,
    List.append_assoc, List.singleton_append, List.cons_inj_right]
  constructor
  · exact fun h => (List.append_cancel_right h).symm
  · intro h
    rw [h]

end Text.Quoted

/-! ### The characters of a specifier -/

namespace Path

variable {p : Path} {c : Char}

theorem mem_of_mem_segments {segment : String} (h : segment ∈ p.segments)
    (hc : c ∈ segment.toList) : c ∈ p.text.toList := by
  obtain ⟨chars, hchars, rfl⟩ := List.mem_map.mp h
  rw [String.toList_ofList] at hc
  have hjoined : ['/'].intercalate (p.text.toList.splitOn '/') = p.text.toList :=
    List.intercalate_splitOn '/'
  rw [← hjoined]
  exact mem_intercalate_of_mem hchars hc

/-- The spelling of a part has no characters but those of the path, dots and slashes. -/
theorem mem_of_mem_parts {part : Part} (h : part ∈ p.parts) (hc : c ∈ part.text.toList) :
    c ∈ p.text.toList ∨ c = '.' ∨ c = '/' := by
  cases part with
  | root => exact Or.inr (Or.inr (List.mem_singleton.mp hc))
  | current => exact Or.inr (Or.inl (List.mem_singleton.mp hc))
  | parent =>
      have hdots : Part.parent.text.toList = List.replicate 2 '.' := rfl
      exact Or.inr (Or.inl (List.eq_of_mem_replicate (hdots ▸ hc)))
  | name n => exact Or.inl (mem_of_mem_segments (segment_of_mem_parts h).1 hc)

end Path

namespace Specifier

variable {p target base : Path} {c : Char}

theorem mem_ofPath (h : c ∈ (ofPath p).toList) : c ∈ p.text.toList ∨ c = '/' := by
  rw [ofPath, String.toList_ofList] at h
  obtain ⟨e, he, rfl⟩ := List.mem_map.mp h
  split_ifs
  · exact Or.inr rfl
  · exact Or.inl he

theorem mem_ofSegments {segments : List String} (h : c ∈ (ofSegments segments).toList) :
    (∃ segment ∈ segments, c ∈ segment.toList) ∨ c = '.' ∨ c = '/' := by
  have hjoined : c ∈ ("/".intercalate segments).toList →
      (∃ segment ∈ segments, c ∈ segment.toList) ∨ c = '.' ∨ c = '/' := by
    intro h
    rw [String.toList_intercalate] at h
    rcases mem_intercalate h with hslash | ⟨part, hpart, hc⟩
    · exact Or.inr (Or.inr (List.mem_singleton.mp hslash))
    · obtain ⟨segment, hsegment, rfl⟩ := List.mem_map.mp hpart
      exact Or.inl ⟨segment, hsegment, hc⟩
  unfold ofSegments at h
  dsimp only at h
  split_ifs at h
  · exact hjoined h
  · rw [String.toList_append, List.mem_append] at h
    rcases h with hdot | h
    · have hdots : "./".toList = ['.', '/'] := rfl
      rw [hdots, List.mem_cons, List.mem_singleton] at hdot
      exact Or.inr hdot
    · exact hjoined h

theorem mem_relative (h : c ∈ (relative target base).toList) :
    c ∈ target.text.toList ∨ c = '.' ∨ c = '/' := by
  unfold relative at h
  split_ifs at h
  · exact (mem_ofPath h).imp_right Or.inr
  · rcases mem_ofSegments h with ⟨segment, hsegment, hc⟩ | hdot
    · rcases List.mem_append.mp hsegment with hascent | hdescent
      · rw [List.eq_of_mem_replicate hascent] at hc
        have hdots : "..".toList = List.replicate 2 '.' := rfl
        exact Or.inr (Or.inl (List.eq_of_mem_replicate (hdots ▸ hc)))
      · obtain ⟨part, hpart, rfl⟩ := List.mem_map.mp hdescent
        exact Path.mem_of_mem_parts (List.mem_of_mem_drop hpart) hc
    · exact Or.inr hdot

theorem mem_dropExtension {extension specifier : String}
    (h : c ∈ (dropExtension extension specifier).toList) : c ∈ specifier.toList := by
  unfold dropExtension at h
  dsimp only at h
  split_ifs at h
  · rw [String.toList_ofList] at h
    exact List.mem_of_mem_take h
  · exact h

end Specifier

/-! ### The import of the interface itself -/

namespace Declaration

open Text.Quoted

variable {σ : Type} (d : Declaration) (known : String → Bool) (layout : Layout)

/-- A specifier has no characters but those of the path, dots and slashes. -/
theorem mem_path_of_mem_specifier {d : Declaration} {layout : Layout} {c : Char}
    (h : c ∈ (d.specifier layout).toList) : c ∈ d.path.text.toList ∨ c = '.' ∨ c = '/' := by
  have h := Specifier.mem_dropExtension h
  cases hdirectory : layout.directory with
  | none =>
      rw [hdirectory] at h
      exact (Specifier.mem_ofPath h).imp_right Or.inr
  | some directory =>
      rw [hdirectory] at h
      exact Specifier.mem_relative h

theorem isPlain_specifier {d : Declaration} (h : IsPlain d.path.text.toList) (layout : Layout) :
    IsPlain (d.specifier layout).toList := by
  intro c hc
  rcases mem_path_of_mem_specifier hc with hpath | rfl | rfl
  · exact h c hpath
  · decide
  · decide

/-- **The import of the interface itself.** The imports of a module start with the name of the
interface, and then the specifier stands between quotes as it is. Reading it from the opening quote
yields the specifier and stops in front of the semicolon if and only if the specifier holds no
backslash, no quote and no line feed. That is so whenever the path of the declaration holds none. -/
theorem read?_ownImport_iff (p : Provider σ) (s : Session σ) :
    ∃ others : String,
      ((d.document known layout p).run s).1.importText =
        "import \x7b " ++ d.name ++ " \x7d from " ++ ("'" ++ d.specifier layout ++ "'") ++
          (";\n" ++ others) ∧
      (read? (("'" ++ d.specifier layout ++ "'") ++ (";\n" ++ others)).toList =
          some ((d.specifier layout).toList, (";\n" ++ others).toList) ↔
        IsPlain (d.specifier layout).toList) ∧
      (IsPlain d.path.text.toList → IsPlain (d.specifier layout).toList) := by
  refine ⟨String.join ((d.targets known).map mockImportLine), ?_, ?_,
    fun h => isPlain_specifier h layout⟩
  · rw [importText_document, ownImport, Import.text]
    simp only [← String.toList_inj, String.toList_append, List.append_assoc]
    rfl
  · simp only [String.toList_append, List.append_assoc]
    exact read?_unescaped_iff

/-- A quote in a path ends the literal early. -/
theorem read?_ownImport_cut :
    let d : Declaration := ⟨"A", ⟨"it's/A.interface.ts"⟩, []⟩
    d.ownImport {} = ⟨"A", "it's/A.interface"⟩ ∧
      (d.ownImport {}).text = "import \x7b A \x7d from 'it's/A.interface';\n" ∧
      read? "'it's/A.interface';\n".toList = some ("it".toList, "s/A.interface';\n".toList) := by
  decide

end Declaration

/-! ### Quoted values of a constant -/

namespace Constant

/-- What follows a property in the definition of a constant, given the properties behind it. -/
def behind : List Property → String
  | [] => "\n\x7d;\n"
  | q :: rest => ",\n" ++ ",\n".intercalate ((q :: rest).map Property.text) ++ "\n\x7d;\n"

/-- The definition of a constant, from one of its properties on. -/
theorem exists_text_eq (name : MockName) (before after : List Property) (q : Property) :
    ∃ front, Constant.text ⟨name, before ++ q :: after⟩ = front ++ (q.text ++ behind after) := by
  have hafter : ",\n".intercalate ((q :: after).map Property.text) ++ "\n\x7d;\n" =
      q.text ++ behind after := by
    cases after with
    | nil => simp [behind]
    | cons r rest =>
        rw [List.map_cons, String.intercalate_cons_of_ne_nil (by simp), behind]
        simp only [String.append_assoc]
  have hbefore : ∃ front, ",\n".intercalate ((before ++ q :: after).map Property.text) =
      front ++ ",\n".intercalate ((q :: after).map Property.text) := by
    by_cases hne : before = []
    · exact ⟨"", by simp [hne]⟩
    · refine ⟨",\n".intercalate (before.map Property.text) ++ ",\n", ?_⟩
      rw [List.map_append, String.intercalate_append_of_ne_nil (by simpa using hne) (by simp)]
  obtain ⟨front, hfront⟩ := hbefore
  have hbody : body ⟨name, before ++ q :: after⟩ =
      "\x7b\n" ++ (front ++ ",\n".intercalate ((q :: after).map Property.text)) ++ "\n\x7d" := by
    rw [body, if_neg (by simp), hfront]
  have htext : Constant.text ⟨name, before ++ q :: after⟩ = "export const " ++ name.text ++ ": " ++
      name.interface ++ " = " ++ body ⟨name, before ++ q :: after⟩ ++ ";\n" := rfl
  have hclose : "\n\x7d" ++ ";\n" = "\n\x7d;\n" := rfl
  refine ⟨"export const " ++ name.text ++ ": " ++ name.interface ++ " = " ++ "\x7b\n" ++ front, ?_⟩
  rw [htext, hbody, ← hafter]
  simp only [String.append_assoc, hclose]

end Constant

namespace Literal

open Text.Quoted

theorem text_arrayIf (isArray : Bool) (value : Literal) :
    (arrayIf isArray value).text =
      (if isArray then "[" else "") ++ (value.text ++ if isArray then "]" else "") := by
  cases isArray with
  | false => simp [arrayIf]
  | true => simp [arrayIf, text, String.append_assoc]

/-- **Quoted values delimit themselves.** Read from its opening quote, a quoted value yields the text
that it was made of and stops in front of whatever follows; from nothing else is that text read. So
quoted values of two texts are written differently, and neither starts the other. Wherever a quoted
value stands in the definition of a constant, alone or in an array, reading it stops in front of the
bracket, of the properties behind it and of the end of the definition. -/
theorem quoted_delimits :
    (∀ (text : List Char) (raw rest : String), read? text = some (raw.toList, rest.toList) ↔
      text = ((quoted raw).text ++ rest).toList) ∧
    Function.Injective (fun raw => (quoted raw).text) ∧
    (∀ raw rest other more : String, (quoted raw).text ++ rest = (quoted other).text ++ more ↔
      raw = other ∧ rest = more) ∧
    ∀ (name : MockName) (before after : List Property) (property raw : String) (isArray : Bool),
      ∃ front,
        Constant.text ⟨name, before ++ ⟨property, (quoted raw).arrayIf isArray⟩ :: after⟩ =
          front ++ ("    " ++ property ++ ": " ++ if isArray then "[" else "") ++
            ((quoted raw).text ++ ((if isArray then "]" else "") ++ Constant.behind after)) ∧
        read? ((quoted raw).text ++
            ((if isArray then "]" else "") ++ Constant.behind after)).toList =
          some (raw.toList, ((if isArray then "]" else "") ++ Constant.behind after).toList) := by
  have hread : ∀ (text : List Char) (raw rest : String),
      read? text = some (raw.toList, rest.toList) ↔
        text = ((quoted raw).text ++ rest).toList := by
    intro text raw rest
    rw [read?_eq_some_iff, String.toList_append, Literal.text, String.toList_ofList]
  have hinj : ∀ raw rest other more : String,
      (quoted raw).text ++ rest = (quoted other).text ++ more ↔ raw = other ∧ rest = more := by
    intro raw rest other more
    rw [← String.toList_inj, String.toList_append, String.toList_append, Literal.text, Literal.text,
      String.toList_ofList, String.toList_ofList, encode_append_inj, String.toList_inj,
      String.toList_inj]
  refine ⟨hread, ?_, hinj, ?_⟩
  · intro raw other h
    exact ((hinj raw "" other "").mp (congrArg (· ++ "") h)).1
  · intro name before after property raw isArray
    obtain ⟨front, hfront⟩ :=
      Constant.exists_text_eq name before after ⟨property, (quoted raw).arrayIf isArray⟩
    refine ⟨front, ?_, (hread _ _ _).mpr rfl⟩
    rw [hfront, Property.text, text_arrayIf]
    simp only [String.append_assoc]

end Literal

end Understudy
