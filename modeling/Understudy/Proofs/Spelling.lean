import Mathlib.Data.List.Basic
import Understudy.Proofs.Outline

/-!
# Understudy.Proofs.Spelling

How much the written form tells. Modules are texts, so a link between two of them is a matter of
spellings: that of the name of a constant and that of the value that spreads it. Constants are
numbered from 1 and there are two of them at most, and with a number of one digit the name of a
constant is spelled in one way only (`MockName.text_inj`). A value is written as a spread only if it
is one (`Property.spreads_iff`): its first character gives it away, for no number, no quoted text and
no word opens with a brace.
-/

namespace Understudy

/-! ### Numbers -/

/-- A number below ten is spelled with one digit. -/
theorem toList_toString_of_lt_ten {n : Nat} (h : n < 10) : (toString n).toList = [n.digitChar] := by
  rw [Nat.toString_eq_repr, Nat.toList_repr, Nat.toDigits_of_lt_base h]

/-- Numbers below ten have digits of their own. -/
theorem digitChar_inj {m n : Nat} (hm : m < 10) (hn : n < 10) (h : m.digitChar = n.digitChar) :
    m = n := by
  have hall : ∀ a b : Fin 10, a.val.digitChar = b.val.digitChar → a.val = b.val := by decide
  exact hall ⟨m, hm⟩ ⟨n, hn⟩ h

/-- A number is spelled with digits alone. -/
theorem isDigit_of_mem_repr {n : Nat} {c : Char} (h : c ∈ (Nat.repr n).toList) :
    c.isDigit = true := by
  rw [Nat.toList_repr] at h
  exact Nat.isDigit_of_mem_toDigits (by decide) (by decide) h

/-- An integer is spelled with digits and perhaps a sign. -/
theorem isDigit_of_mem_toString {n : Int} {c : Char} (h : c ∈ (toString n).toList) :
    c = '-' ∨ c.isDigit = true := by
  cases n with
  | ofNat n => exact Or.inr (isDigit_of_mem_repr h)
  | negSucc n =>
      have hsign : (toString (Int.negSucc n)).toList = '-' :: (Nat.repr (n + 1)).toList := by
        show ("-" ++ Nat.repr (n + 1)).toList = _
        rw [String.toList_append]
        rfl
      rw [hsign] at h
      exact (List.mem_cons.mp h).imp_right isDigit_of_mem_repr

/-! ### Names of constants -/

namespace MockName

theorem toList_text {m : MockName} (h : m.index < 10) :
    m.text.toList = "mock".toList ++ m.interface.toList ++ [m.index.digitChar] := by
  rw [text, String.toList_append, String.toList_append, toList_toString_of_lt_ten h]

/-- Constants with numbers of one digit have names of their own. -/
theorem text_inj {m n : MockName} (hm : m.index < 10) (hn : n.index < 10) :
    m.text = n.text ↔ m = n := by
  constructor
  · intro h
    have hlists := congrArg String.toList h
    rw [toList_text hm, toList_text hn] at hlists
    obtain ⟨hfront, hdigit⟩ := List.append_inj' hlists rfl
    have hinterface := String.toList_inj.mp (List.append_cancel_left hfront)
    have hindex := digitChar_inj hm hn (List.cons.inj hdigit).1
    cases m
    cases n
    simp_all
  · exact congrArg text

theorem text_first (interface : String) : (first interface).text = "mock" ++ interface ++ "1" := by
  have hone : toString 1 = "1" := by decide
  rw [first, text, hone]

/-- The first constants of different interfaces have different names. -/
theorem text_first_inj {interface other : String} :
    (first interface).text = (first other).text ↔ interface = other := by
  have hlt : 1 < 10 := by decide
  rw [text_inj (m := first interface) (n := first other) hlt hlt]
  exact ⟨congrArg MockName.interface, congrArg first⟩

/-- No interface is called like its own first constant. -/
theorem ne_text_first (interface : String) : interface ≠ (first interface).text := by
  intro h
  have hlength := congrArg String.length (h.trans (text_first interface))
  simp only [String.length_append] at hlength
  have hmock : "mock".length = 4 := by decide
  omega

end MockName

/-! ### Spreads -/

/-- Whether the written value of a property is the spread of a name, bare or in array brackets. -/
def Property.Spreads (q : Property) (name : String) : Prop :=
  q.value.text = "\x7b..." ++ name ++ "\x7d" ∨ q.value.text = "[\x7b..." ++ name ++ "\x7d]"

instance (q : Property) (name : String) : Decidable (q.Spreads name) :=
  inferInstanceAs (Decidable (_ ∨ _))

namespace Literal

/-- Only spreads and arrays open with a brace or a bracket. -/
theorem cases_of_text {l : Literal} {c : Char} {rest : List Char} (h : l.text.toList = c :: rest) :
    (∃ m, l = spread m) ∨ (∃ e, l = array e) ∨ (c ≠ '\x7b' ∧ c ≠ '[') := by
  cases l with
  | null =>
      cases h
      exact Or.inr (Or.inr (by decide))
  | integer n =>
      refine Or.inr (Or.inr ?_)
      have hmem : c ∈ (toString n).toList := h ▸ List.mem_cons_self
      rcases isDigit_of_mem_toString hmem with rfl | hdigit
      · decide
      · constructor <;> rintro rfl <;> cases hdigit
  | boolean b =>
      cases b <;> cases h <;> exact Or.inr (Or.inr (by decide))
  | quoted raw =>
      rw [text, String.toList_ofList] at h
      cases h
      exact Or.inr (Or.inr (by decide))
  | constant mock =>
      rw [text, MockName.text, String.toList_append, String.toList_append] at h
      cases h
      exact Or.inr (Or.inr (by decide))
  | spread mock => exact Or.inl ⟨mock, rfl⟩
  | array element => exact Or.inr (Or.inl ⟨element, rfl⟩)

/-- A value is written as a spread only if it is one. -/
theorem text_eq_spread_iff {l : Literal} {name : String} :
    l.text = "\x7b..." ++ name ++ "\x7d" ↔ ∃ m, l = spread m ∧ m.text = name := by
  constructor
  · intro h
    have hlist : l.text.toList = '\x7b' :: ("...".toList ++ name.toList ++ "\x7d".toList) := by
      rw [h, String.toList_append, String.toList_append]
      rfl
    rcases cases_of_text hlist with ⟨m, rfl⟩ | ⟨element, rfl⟩ | ⟨hbrace, -⟩
    · have hname := (String.append_left_inj "\x7d").mp h
      exact ⟨m, rfl, (String.append_right_inj "\x7b...").mp hname⟩
    · rw [text, String.toList_append, String.toList_append] at hlist
      cases hlist
    · exact absurd rfl hbrace
  · intro hspread
    obtain ⟨m, rfl, rfl⟩ := hspread
    rfl

/-- A value is written as a spread in array brackets only if it is one. -/
theorem text_eq_array_spread_iff {l : Literal} {name : String} :
    l.text = "[\x7b..." ++ name ++ "\x7d]" ↔ ∃ m, l = array (spread m) ∧ m.text = name := by
  have hsplit : "[\x7b..." ++ name ++ "\x7d]" = "[" ++ ("\x7b..." ++ name ++ "\x7d") ++ "]" := by
    rw [← String.toList_inj]
    simp [String.toList_append]
  rw [hsplit]
  constructor
  · intro h
    have hlist : l.text.toList = '[' :: (("\x7b..." ++ name ++ "\x7d").toList ++ "]".toList) := by
      rw [h, String.toList_append, String.toList_append]
      rfl
    rcases cases_of_text hlist with ⟨m, rfl⟩ | ⟨element, rfl⟩ | ⟨-, hbracket⟩
    · rw [text, String.toList_append, String.toList_append] at hlist
      cases hlist
    · have helement := (String.append_right_inj "[").mp ((String.append_left_inj "]").mp h)
      obtain ⟨m, rfl, hm⟩ := text_eq_spread_iff.mp helement
      exact ⟨m, rfl, hm⟩
    · exact absurd rfl hbracket
  · intro hspread
    obtain ⟨m, rfl, rfl⟩ := hspread
    rfl

end Literal

/-- What is written as a spread of a name spreads a constant of that name. -/
theorem Property.spreads_iff {q : Property} {name : String} :
    q.Spreads name ↔ ∃ m, q.value.spread? = some m ∧ m.text = name := by
  unfold Spreads
  rw [Literal.text_eq_spread_iff, Literal.text_eq_array_spread_iff]
  constructor
  · rintro (⟨m, hvalue, hname⟩ | ⟨m, hvalue, hname⟩) <;>
      exact ⟨m, by rw [hvalue]; rfl, hname⟩
  · intro hspread
    obtain ⟨m, hvalue, hname⟩ := hspread
    unfold Literal.spread? at hvalue
    split at hvalue
    · exact Or.inl ⟨m, by simp_all, hname⟩
    · exact Or.inr ⟨m, by simp_all, hname⟩
    · cases hvalue

end Understudy
