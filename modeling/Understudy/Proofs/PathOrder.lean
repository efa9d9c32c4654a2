import Understudy.Proofs.Resolution
import Understudy.Text.Order

/-!
# Understudy.Proofs.PathOrder

The order of paths, said of locations: the first name that differs decides, and a location comes
before what is below it (`Location.Before`). Names are compared by their code points. So the order
is not that of the written paths, in which the separator counts as a character.

It is a strict order in which any two locations can be compared (`Before.asymm`, `eq_or_before`),
and `Path.le` decides it for the paths of locations (`path_le_iff`).
-/

namespace Understudy

open FileTree

/-! ### Lists by their elements -/

namespace Text

variable {α : Type} {le : α → α → Bool}

/-- Lists on a par with each other are the same, if that holds of elements. -/
theorem lexLe_antisymm (antisymm : ∀ a b, le a b = true → le b a = true → a = b) {as bs : List α}
    (h₁ : lexLe le as bs = true) (h₂ : lexLe le bs as = true) : as = bs := by
  induction as generalizing bs with
  | nil =>
      cases bs with
      | nil => rfl
      | cons b bs => simp [lexLe] at h₂
  | cons a as ih =>
      cases bs with
      | nil => simp [lexLe] at h₁
      | cons b bs =>
          simp only [lexLe, Bool.and_eq_true, Bool.or_eq_true, Bool.not_eq_true'] at h₁ h₂
          obtain rfl := antisymm a b h₁.1 h₂.1
          have hrefl : le a a ≠ false := by simp [h₁.1]
          rw [ih (h₁.2.resolve_left hrefl) (h₂.2.resolve_left hrefl)]

/-- A list comes before another one or is on a par with it unless it comes after it, given what it is
for an element to come before another one. -/
theorem lexLe_iff {before : α → α → Prop} (hle : ∀ a b, le a b = true ↔ ¬before b a)
    (irrefl : ∀ a, ¬before a a) (antisymm : ∀ a b, le a b = true → le b a = true → a = b)
    {as bs : List α} : lexLe le as bs = true ↔ ¬List.Lex before bs as := by
  induction as generalizing bs with
  | nil => simp [lexLe]
  | cons a as ih =>
      cases bs with
      | nil => simp [lexLe]
      | cons b bs =>
          simp only [lexLe, Bool.and_eq_true, Bool.or_eq_true, Bool.not_eq_true',
            List.cons_lex_cons_iff, not_or, not_and, hle a b, ih]
          refine and_congr_right fun hba => ⟨fun h heq => ?_, fun h => ?_⟩
          · subst heq
            refine h.resolve_left fun hfalse => ?_
            rw [(hle b b).mpr (irrefl b)] at hfalse
            cases hfalse
          · by_cases hle' : le b a = true
            · exact Or.inr (h (antisymm b a hle' ((hle a b).mpr hba)))
            · exact Or.inl (Bool.eq_false_iff.mpr hle')

/-- Views of elements that tell them apart can be compared in their place. -/
theorem lex_map_iff {β : Type} {before : β → β → Prop} {f : α → β} (hf : Function.Injective f)
    {as bs : List α} :
    List.Lex before (as.map f) (bs.map f) ↔ List.Lex (fun a b => before (f a) (f b)) as bs := by
  induction as generalizing bs with
  | nil => cases bs <;> simp
  | cons a as ih =>
      cases bs with
      | nil => simp
      | cons b bs =>
          simp only [List.map_cons, List.cons_lex_cons_iff, ih, hf.eq_iff]

/-- Whether a text comes before another one, by their code points. -/
def Before (s t : String) : Prop :=
  List.Lex (fun a b : Char => a.toNat < b.toNat) s.toList t.toList

end Text

namespace Path

theorem natLe_iff (a b : Nat) : Nat.ble a b = true ↔ ¬b < a := by
  rw [Nat.ble_eq, Nat.not_lt]

theorem natLe_antisymm (a b : Nat) (h₁ : Nat.ble a b = true) (h₂ : Nat.ble b a = true) : a = b :=
  Nat.le_antisymm (Nat.le_of_ble_eq_true h₁) (Nat.le_of_ble_eq_true h₂)

theorem keyLe_antisymm (as bs : List Nat) (h₁ : Text.lexLe Nat.ble as bs = true)
    (h₂ : Text.lexLe Nat.ble bs as = true) : as = bs :=
  Text.lexLe_antisymm natLe_antisymm h₁ h₂

theorem keyLe_iff (as bs : List Nat) :
    Text.lexLe Nat.ble as bs = true ↔ ¬List.Lex (· < ·) bs as :=
  Text.lexLe_iff natLe_iff Nat.lt_irrefl natLe_antisymm

theorem toNat_injective : Function.Injective Char.toNat := fun _ _ => Char.toNat_inj.mp

/-- Names have keys of their own. -/
theorem key_name_injective : Function.Injective fun name => Part.key (.name name) := by
  intro a b h
  have hchars := (List.map_injective_iff.mpr toNat_injective) (List.cons.inj h).2
  exact String.toList_inj.mp hchars

theorem lex_key_name_iff (a b : String) :
    List.Lex (· < ·) (Part.key (.name a)) (Part.key (.name b)) ↔ Text.Before a b := by
  simp only [Part.key, List.cons_lex_cons_iff, Nat.lt_irrefl, true_and, false_or]
  exact Text.lex_map_iff toNat_injective

end Path

/-! ### Locations -/

namespace Location

/-- Whether a location comes before another one, by their names. -/
def Before (l m : Location) : Prop := List.Lex Text.Before l m

variable {l m : Location}

theorem key_path (hl : ∀ name ∈ l, IsName name) :
    l.path.key = [0] :: l.map fun name => Path.Part.key (.name name) := by
  rw [Path.key, parts_path hl, List.map_cons, List.map_map]
  rfl

/-- The order of paths is that of the locations. -/
theorem path_le_iff (hl : ∀ name ∈ l, IsName name) (hm : ∀ name ∈ m, IsName name) :
    l.path.le m.path = true ↔ ¬Before m l := by
  have hkeys : l.path.le m.path = true ↔
      ¬List.Lex (List.Lex (· < ·)) m.path.key l.path.key :=
    Text.lexLe_iff Path.keyLe_iff (List.lex_irrefl Nat.lt_irrefl) Path.keyLe_antisymm
  have hroot : ¬List.Lex (· < ·) [0] [0] := List.lex_irrefl Nat.lt_irrefl [0]
  rw [hkeys, key_path hl, key_path hm, List.cons_lex_cons_iff, or_iff_right hroot,
    and_iff_right rfl, Text.lex_map_iff Path.key_name_injective]
  simp only [Path.lex_key_name_iff]
  rfl

/-- Paths of locations that are on a par are the same. -/
theorem path_le_antisymm (hl : ∀ name ∈ l, IsName name) (hm : ∀ name ∈ m, IsName name)
    (h₁ : l.path.le m.path = true) (h₂ : m.path.le l.path = true) : l = m := by
  have hkey := Text.lexLe_antisymm Path.keyLe_antisymm h₁ h₂
  rw [key_path hl, key_path hm] at hkey
  exact (List.map_injective_iff.mpr Path.key_name_injective) (List.cons.inj hkey).2

/-- Two locations are the same or one of them comes first. -/
theorem eq_or_before (hl : ∀ name ∈ l, IsName name) (hm : ∀ name ∈ m, IsName name)
    (h : l.path.le m.path = true) : l = m ∨ l.Before m := by
  by_cases hbefore : l.Before m
  · exact Or.inr hbefore
  · exact Or.inl (path_le_antisymm hl hm h ((path_le_iff hm hl).mpr hbefore))

theorem Before.asymm (hl : ∀ name ∈ l, IsName name) (hm : ∀ name ∈ m, IsName name)
    (h : l.Before m) : ¬m.Before l := by
  intro hback
  have htotal := Path.le_total l.path m.path
  rw [Bool.or_eq_true, path_le_iff hl hm, path_le_iff hm hl] at htotal
  exact htotal.elim (· hback) (· h)

end Location

end Understudy
