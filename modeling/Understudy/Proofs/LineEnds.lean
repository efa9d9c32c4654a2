import Understudy.Proofs.Line

/-!
# Understudy.Proofs.LineEnds

What the ends of lines mean to a declaration file. A text whose last line is ended can be continued
by any other one: the lines of both are those of the first and then those of the second
(`Text.lines_append`), so they say together what the two say one after the other
(`Scan.ofText_append`).

It does not matter how a line is ended. A carriage return in front of a line feed goes with it
(`Text.Reended.lines_eq`), and one more line end at the very end of a text ends its last line, or it
adds a line without characters, which says nothing (`Scan.ofText_concat_feed`).
-/

namespace Understudy

open Text

namespace Text

variable {c : Char} {text other rest : List Char}

/-! ### The lines of texts put together -/

/-- Whether every line of a text is ended. -/
def IsEnded (text : List Char) : Prop := text = [] ∨ text.getLast? = some '\n'

instance (text : List Char) : Decidable (IsEnded text) := inferInstanceAs (Decidable (_ ∨ _))

theorem IsEnded.of_cons (h : IsEnded (c :: rest)) : IsEnded rest := by
  cases rest with
  | nil => exact Or.inl rfl
  | cons d rest => simpa [IsEnded] using h

/-- A character that ends no line is followed by another one. -/
theorem IsEnded.ne_nil_of_cons (h : IsEnded (c :: rest)) (hc : c ≠ '\n') : rest ≠ [] := by
  rintro rfl
  simp [IsEnded, hc] at h

theorem lines_ne_nil (h : text ≠ []) : lines text ≠ [] := by
  fun_cases lines text with
  | case1 => contradiction
  | case2 rest => exact List.cons_ne_nil _ _
  | case3 rest => exact List.cons_ne_nil _ _
  | case4 c rest _ _ => cases lines rest <;> exact List.cons_ne_nil _ _

theorem consFirst_append (c : Char) {first : List (List Char)} (h : first ≠ [])
    (more : List (List Char)) : consFirst c (first ++ more) = consFirst c first ++ more := by
  cases first with
  | nil => contradiction
  | cons line rest => rfl

/-- A text whose lines are ended shares no line with what follows it. -/
theorem lines_append (h : IsEnded text) (other : List Char) :
    lines (text ++ other) = lines text ++ lines other := by
  fun_induction lines text with
  | case1 => rfl
  | case2 rest ih => rw [List.cons_append, lines_feed, ih h.of_cons, List.cons_append]
  | case3 rest ih =>
      rw [List.cons_append, List.cons_append, lines_return_feed, ih h.of_cons.of_cons,
        List.cons_append]
  | case4 c rest hfeed hreturn ih =>
      have hc : c ≠ '\n' := by simpa using hfeed
      -- something follows `c`, so it is the same that a carriage return would go with
      have hrest := h.ne_nil_of_cons hc
      have hd : c ≠ '\r' ∨ (rest ++ other).head? ≠ some '\n' := by
        obtain ⟨d, rest, rfl⟩ := List.exists_cons_of_ne_nil hrest
        by_cases hc' : c = '\r'
        · refine Or.inr fun hd => hreturn rest hc' ?_
          rw [Option.some.inj hd]
        · exact Or.inl hc'
      rw [List.cons_append, lines_cons _ hc hd, ih h.of_cons, consFirst_append c (lines_ne_nil hrest)]

/-! ### Other line ends -/

/-- Whether a text becomes another one by putting carriage returns in front of some line feeds. -/
inductive Reended : List Char → List Char → Prop
  | nil : Reended [] []
  | keep {before after : List Char} (c : Char) :
      Reended before after → Reended (c :: before) (c :: after)
  | put {before after : List Char} :
      Reended before after → Reended ('\n' :: before) ('\r' :: '\n' :: after)

/-- A text with a carriage return in front of every line feed. -/
def withReturns (text : List Char) : List Char :=
  text.flatMap fun c => if c = '\n' then ['\r', '\n'] else [c]

theorem Reended.refl (text : List Char) : Reended text text := by
  induction text with
  | nil => exact .nil
  | cons c rest ih => exact .keep c ih

theorem reended_withReturns (text : List Char) : Reended text (withReturns text) := by
  induction text with
  | nil => exact .nil
  | cons c rest ih =>
      unfold withReturns
      rw [List.flatMap_cons]
      by_cases hc : c = '\n'
      · subst hc
        exact .put ih
      · rw [if_neg hc]
        exact .keep c ih

theorem Reended.append {more others : List Char} (h : Reended text other)
    (hmore : Reended more others) : Reended (text ++ more) (other ++ others) := by
  induction h with
  | nil => exact hmore
  | keep c _ ih => exact .keep c ih
  | put _ ih => exact .put ih

/-- If a text holds no carriage returns itself, those that are put in belong to no line. -/
theorem Reended.lines_eq (h : Reended text other) (hreturn : '\r' ∉ text) :
    lines other = lines text := by
  induction h with
  | nil => rfl
  | @keep text other c _ ih =>
      obtain ⟨hc, hrest⟩ := List.ne_and_not_mem_of_not_mem_cons hreturn
      by_cases hfeed : c = '\n'
      · rw [hfeed, lines_feed, lines_feed, ih hrest]
      · rw [lines_cons other hfeed (Or.inl hc.symm), lines_cons text hfeed (Or.inl hc.symm),
          ih hrest]
  | put _ ih => rw [lines_return_feed, lines_feed, ih (List.not_mem_of_not_mem_cons hreturn)]

/-- One more line feed ends the last line, or it adds a line without characters. -/
theorem lines_concat_feed (hreturn : '\r' ∉ text) :
    lines (text ++ ['\n']) = lines text ∨ lines (text ++ ['\n']) = lines text ++ [[]] := by
  induction text with
  | nil => exact Or.inr rfl
  | cons c rest ih =>
      obtain ⟨hc, hrest⟩ := List.ne_and_not_mem_of_not_mem_cons hreturn
      have ih := ih hrest
      rw [List.cons_append]
      by_cases hfeed : c = '\n'
      · rw [hfeed, lines_feed, lines_feed]
        exact ih.imp (congrArg (List.cons [])) (congrArg (List.cons []))
      · rw [lines_cons _ hfeed (Or.inl hc.symm), lines_cons rest hfeed (Or.inl hc.symm)]
        rcases ih with ih | ih
        · exact Or.inl (by rw [ih])
        · rw [ih]
          by_cases hlines : lines rest = []
          · rw [hlines]
            exact Or.inl rfl
          · exact Or.inr (consFirst_append c hlines _)

end Text

/-! ### What the lines say -/

namespace Scan

variable {text : List Char}

/-- Texts put together say what they say one after the other. -/
theorem ofText_append (h : IsEnded text) (other : List Char) :
    ofText (text ++ other) = (ofText text).append (ofText other) := by
  rw [ofText, lines_append h, ofLines_append]
  rfl

/-- One more line feed says nothing. -/
theorem ofText_concat_feed (hreturn : '\r' ∉ text) : ofText (text ++ ['\n']) = ofText text := by
  have hempty : ofLines [[]] = ⟨none, []⟩ := by decide
  unfold ofText
  rcases lines_concat_feed hreturn with hlines | hlines
  · rw [hlines]
  · rw [hlines, ofLines_append, hempty]
    simp [append]

/-- Neither carriage returns put in front of line feeds nor one more line end say anything. -/
theorem ofText_of_reended {other ending : List Char} (hreturn : '\r' ∉ text)
    (h : Reended text other) (hending : ending = [] ∨ Reended ['\n'] ending) :
    ofText (other ++ ending) = ofText text := by
  rcases hending with rfl | hending
  · rw [List.append_nil, ofText, h.lines_eq hreturn, ofText]
  · have hboth : '\r' ∉ text ++ ['\n'] := by simpa using hreturn
    rw [ofText, (h.append hending).lines_eq hboth]
    exact ofText_concat_feed hreturn

end Scan

namespace Declaration

/-- **Texts put together.** Whatever two texts hold, if the first one is empty or ends in a line
feed: the fields of both are those of the first and then those of the second, and the name is that
of the first if it has one, or else that of the second. So the two declare an interface together if
and only if one of them does; and if the first one does, what is declared together has its name, and
its fields in front. -/
theorem parse?_append {text other : String} (h : IsEnded text.toList) (path : Path) :
    (Scan.ofText (text ++ other).toList).fields =
      (Scan.ofText text.toList).fields ++ (Scan.ofText other.toList).fields ∧
    (Scan.ofText (text ++ other).toList).name =
      (Scan.ofText text.toList).name.or (Scan.ofText other.toList).name ∧
    (parse? path (text ++ other) = none ↔ parse? path text = none ∧ parse? path other = none) ∧
    ∀ d, parse? path text = some d →
      parse? path (text ++ other) =
        some { d with fields := d.fields ++ (Scan.ofText other.toList).fields } := by
  have happend : Scan.ofText (text ++ other).toList =
      (Scan.ofText text.toList).append (Scan.ofText other.toList) := by
    rw [String.toList_append, Scan.ofText_append h]
  unfold parse? Scan.declaration?
  rw [happend]
  refine ⟨rfl, rfl, ?_, fun d hd => ?_⟩
  · simp [Scan.append]
  · obtain ⟨name, hname, rfl⟩ := Option.map_eq_some_iff.mp hd
    simp [Scan.append, hname]

/-- A first part with fields and no name, and a second one with a name, a field and no last line
end. -/
theorem parse?_append_headless :
    let text := "id: number;\r\n\r\nexport interface \x7b\n"
    let other := "export interface A\n\ttags?: B[];\nexport interface B"
    IsEnded text.toList ∧ parse? ⟨"A.interface.ts"⟩ text = none ∧
      parse? ⟨"A.interface.ts"⟩ (text ++ other) ≠ none ∧
      (Scan.ofText (text ++ other).toList).fields =
        (Scan.ofText text.toList).fields ++ [⟨"tags", "B", true⟩] := by
  intro text other
  have hended : IsEnded text.toList := by decide +kernel
  have hother : Scan.ofText other.toList = ⟨some "A", [⟨"tags", "B", true⟩]⟩ := by decide +kernel
  obtain ⟨hfields, -, hnone, -⟩ := @parse?_append text other hended ⟨"A.interface.ts"⟩
  refine ⟨hended, by decide +kernel, fun h => ?_, by rw [hfields, hother]⟩
  have hdeclared := (hnone.mp h).2
  rw [parse?, hother] at hdeclared
  cases hdeclared

/-- **Line ends.** A text without carriage returns makes the same declaration if any of its line
feeds have carriage returns put in front of them, in particular if all have, and if it is continued
by one more line end of either kind. -/
theorem parse?_of_reended {text other ending : String} (hreturn : '\r' ∉ text.toList)
    (h : Reended text.toList other.toList) (hending : ending ∈ ["", "\n", "\r\n"]) (path : Path) :
    parse? path (other ++ ending) = parse? path text ∧
      parse? path (String.ofList (withReturns text.toList) ++ ending) = parse? path text := by
  have hends : ending.toList = [] ∨ Reended ['\n'] ending.toList := by
    simp only [List.mem_cons, List.not_mem_nil, or_false] at hending
    rcases hending with rfl | rfl | rfl
    · exact Or.inl rfl
    · exact Or.inr (.keep '\n' .nil)
    · exact Or.inr (.put .nil)
  constructor
  · rw [parse?, String.toList_append, Scan.ofText_of_reended hreturn h hends, parse?]
  · rw [parse?, String.toList_append, String.toList_ofList,
      Scan.ofText_of_reended hreturn (reended_withReturns _) hends, parse?]

/-- One of three line feeds with a carriage return, and one more line end behind a last line without
one. -/
theorem parse?_of_reended_mixed :
    let text := "export interface A\n\ttags?: B[];\n\nid: number;"
    let other := "export interface A\n\ttags?: B[];\r\n\nid: number;"
    let d : Declaration :=
      ⟨"A", ⟨"A.interface.ts"⟩, [⟨"tags", "B", true⟩, ⟨"id", "number", false⟩]⟩
    '\r' ∉ text.toList ∧ Reended text.toList other.toList ∧ "\r\n" ∈ ["", "\n", "\r\n"] ∧
      parse? ⟨"A.interface.ts"⟩ text = some d ∧
      parse? ⟨"A.interface.ts"⟩ (other ++ "\r\n") = some d ∧
      parse? ⟨"A.interface.ts"⟩ (String.ofList (withReturns text.toList) ++ "\r\n") = some d := by
  intro text other d
  have hreturn : '\r' ∉ text.toList := by decide +kernel
  have hother : Reended text.toList other.toList := by
    have hbefore : text.toList = "export interface A\n\ttags?: B[];".toList ++
        '\n' :: "\nid: number;".toList := by decide +kernel
    have hafter : other.toList = "export interface A\n\ttags?: B[];".toList ++
        '\r' :: '\n' :: "\nid: number;".toList := by decide +kernel
    rw [hbefore, hafter]
    exact (Reended.refl _).append (.put (.refl _))
  have hending : "\r\n" ∈ ["", "\n", "\r\n"] := by decide
  have hparse : parse? ⟨"A.interface.ts"⟩ text = some d := by decide +kernel
  obtain ⟨hsome, hall⟩ := parse?_of_reended hreturn hother hending ⟨"A.interface.ts"⟩
  exact ⟨hreturn, hother, hending, hparse, hsome.trans hparse, hall.trans hparse⟩

end Declaration

end Understudy
