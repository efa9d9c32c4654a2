import Understudy.Proofs.Grammar

/-!
# Understudy.Proofs.Words

The words of a line are its runs of word characters, each as long as it can be. A line that declares
a property has two of them, its name and its type, if anything separates the two. Otherwise it has
one, which is cut in front of its last character (`PropertyLine.words_text`). So a field is named and
typed by whole words, or it is made of a single one (`Declaration.words_of_parse?`).
-/

namespace Understudy

open Text Line

/-! ### The words of a text -/

/-- The words of a text, in order: what stands between characters that belong to no word. -/
def Text.words (text : List Char) : List (List Char) :=
  (text.splitOnP fun c => !isWord c).filter fun word => !word.isEmpty

namespace Text

variable {word text rest : List Char}

@[simp] theorem words_nil : words [] = [] := rfl

theorem words_append_cons {c : Char} (text rest : List Char) (h : isWord c = false) :
    words (text ++ c :: rest) = words text ++ words rest := by
  rw [words, List.splitOnP_append_cons text rest (by simp [h]), List.filter_append]
  rfl

theorem words_cons {c : Char} (rest : List Char) (h : isWord c = false) :
    words (c :: rest) = words rest := words_append_cons [] rest h

/-- Characters that belong to no word do not count. -/
theorem words_append_of_not_isWord (h : ∀ c ∈ text, isWord c = false) (rest : List Char) :
    words (text ++ rest) = words rest := by
  induction text with
  | nil => rfl
  | cons c text ih =>
      obtain ⟨hc, htext⟩ := List.forall_mem_cons.mp h
      rw [List.cons_append, words_cons _ hc, ih htext]

theorem words_of_isIdentifier (h : IsIdentifier word) : words word = [word] := by
  obtain ⟨hne, hword⟩ := h
  have hsplit : word.splitOnP (fun c => !isWord c) = [word] :=
    List.splitOnP_eq_singleton fun c hc => by simp [hword c hc]
  simp [words, hsplit, hne]

/-- A word ends where a character comes that belongs to none. -/
theorem words_append (h : IsIdentifier word) (hrest : Stops isWord rest) :
    words (word ++ rest) = word :: words rest := by
  cases rest with
  | nil => rw [List.append_nil, words_of_isIdentifier h, words_nil]
  | cons c rest =>
      have hc := stops_cons.mp hrest
      rw [words_append_cons word rest hc, words_of_isIdentifier h, words_cons rest hc]
      rfl

end Text

/-! ### The words of a property line -/

namespace PropertyLine

variable (p : PropertyLine)

/-- Brackets and the semicolon belong to no word. -/
theorem words_ending : words (p.brackets ++ [';']) = [] := by
  have hsemicolon : isWord ';' = false := by decide
  rw [words_append_of_not_isWord fun c hc => not_isWord_of_isBracket (p.isBracket_brackets c hc),
    words_cons [] hsemicolon, words_nil]

/-- A property line has its name and its type for words, unless nothing separates them. -/
theorem words_text :
    words p.text = if p.separator = [] then [p.name ++ p.type] else [p.name, p.type] := by
  have hindent : ∀ c ∈ p.indent, isWord c = false := fun c hc =>
    not_isWord_of_isBlank (p.isBlank_indent c hc)
  by_cases hseparator : p.separator = []
  · have hone : IsIdentifier (p.name ++ p.type) :=
      ⟨List.append_ne_nil_of_left_ne_nil p.isIdentifier_name.1 _,
        List.forall_mem_append.mpr ⟨p.isIdentifier_name.2, p.isIdentifier_type.2⟩⟩
    rw [if_pos hseparator, text, words_append_of_not_isWord hindent, hseparator, List.nil_append,
      ← List.append_assoc, words_append hone p.stops_isWord, p.words_ending]
  · have hbetween : ∀ c ∈ p.separator, isWord c = false := fun c hc =>
      not_isWord_of_isSeparator (p.isSeparator_separator c hc)
    rw [if_neg hseparator, text, words_append_of_not_isWord hindent,
      words_append p.isIdentifier_name (p.stops_separator hseparator),
      words_append_of_not_isWord hbetween, words_append p.isIdentifier_type p.stops_isWord,
      p.words_ending]

end PropertyLine

/-! ### Fields and words -/

namespace Declaration

/-- **Fields and words.** The fields of a declaration are those of the property lines of its text. Such
a line has two words, the name of the field and its type; or it has a single word, and then the last
character of the word is the type and all that stands before it is the name. -/
theorem words_of_parse? {path : Path} {text : String} {d : Declaration}
    (h : parse? path text = some d) :
    d.fields = (lines text.toList).filterMap property? ∧
      ∀ line field, property? line = some field →
        words line = [field.name.toList, field.typeName.toList] ∨
          words line = [field.name.toList ++ field.typeName.toList] ∧
            field.typeName.toList.length = 1 := by
  constructor
  · rw [parse?_eq] at h
    obtain ⟨name, -, rfl⟩ := Option.map_eq_some_iff.mp h
    rfl
  · intro line field hfield
    obtain ⟨p, rfl, rfl⟩ := exists_of_property? hfield
    rw [p.words_text, PropertyLine.field, String.toList_ofList, String.toList_ofList]
    by_cases hseparator : p.separator = []
    · exact Or.inr ⟨if_pos hseparator, p.length_type hseparator⟩
    · exact Or.inl (if_neg hseparator)

/-- Two words with a blank between them, and a single one. -/
theorem words_of_parse?_both :
    let text := "export interface X \x7b\n  ab c;\n  de;\n\x7d\n"
    let d : Declaration := ⟨"X", ⟨"X.interface.ts"⟩, [⟨"ab", "c", false⟩, ⟨"d", "e", false⟩]⟩
    parse? ⟨"X.interface.ts"⟩ text = some d ∧
      d.fields = (lines text.toList).filterMap property? ∧
      words "  ab c;".toList = ["ab".toList, "c".toList] ∧
      words "  de;".toList = ["d".toList ++ "e".toList] := by
  intro text d
  have hparse : parse? ⟨"X.interface.ts"⟩ text = some d := by decide +kernel
  obtain ⟨hfields, hwords⟩ := words_of_parse? hparse
  refine ⟨hparse, hfields, ?_, ?_⟩
  · refine (hwords _ ⟨"ab", "c", false⟩ (by decide +kernel)).resolve_right fun h => ?_
    exact absurd h.1 (by decide +kernel)
  · refine ((hwords _ ⟨"d", "e", false⟩ (by decide +kernel)).resolve_left fun h => ?_).1
    exact absurd h (by decide +kernel)

/-- The identifier `ab` alone on a line makes a field, although no line has two words `a` and `b`. -/
theorem words_of_parse?_cut :
    let text := "export interface X \x7b\nab;\n\x7d\n"
    parse? ⟨"X.interface.ts"⟩ text =
        some ⟨"X", ⟨"X.interface.ts"⟩, [⟨"a", "b", false⟩]⟩ ∧
      ∀ line ∈ lines text.toList, ¬["a".toList, "b".toList].Sublist (words line) := by
  decide +kernel

end Declaration

end Understudy
