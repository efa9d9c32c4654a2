/-!
# Understudy.Text.Order

The order of lists by their elements, from the start: the first element that differs decides, and a
list comes after its own beginnings. Texts are ordered by their code points.
-/

namespace Understudy.Text

/-- Whether a list comes before another one or is on a par with it, given when an element does. -/
def lexLe {α : Type} (le : α → α → Bool) : List α → List α → Bool
  | [], _ => true
  | _ :: _, [] => false
  | a :: as, b :: bs => le a b && (!le b a || lexLe le as bs)

variable {α : Type} {le : α → α → Bool}

/-- The order of lists is total if that of the elements is. -/
theorem lexLe_total (total : ∀ a b, (le a b || le b a) = true) (as bs : List α) :
    (lexLe le as bs || lexLe le bs as) = true := by
  induction as generalizing bs with
  | nil => simp [lexLe]
  | cons a as ih =>
    cases bs with
    | nil => simp [lexLe]
    | cons b bs =>
      have h := total a b
      have := ih bs
      simp only [lexLe, Bool.or_eq_true, Bool.and_eq_true, Bool.not_eq_true'] at *
      cases hab : le a b <;> cases hba : le b a <;> simp_all

/-- The order of lists is transitive if that of the elements is. -/
theorem lexLe_trans (trans : ∀ a b c, le a b = true → le b c = true → le a c = true)
    {as bs cs : List α} (h₁ : lexLe le as bs = true) (h₂ : lexLe le bs cs = true) :
    lexLe le as cs = true := by
  induction as generalizing bs cs with
  | nil => simp [lexLe]
  | cons a as ih =>
    cases bs with
    | nil => simp [lexLe] at h₁
    | cons b bs =>
      cases cs with
      | nil => simp [lexLe] at h₂
      | cons c cs =>
        simp only [lexLe, Bool.and_eq_true, Bool.or_eq_true, Bool.not_eq_true'] at *
        obtain ⟨hab, h₁⟩ := h₁
        obtain ⟨hbc, h₂⟩ := h₂
        refine ⟨trans a b c hab hbc, ?_⟩
        cases hca : le c a with
        | false => exact Or.inl rfl
        | true =>
          have hba := trans b c a hbc hca
          have hcb := trans c a b hca hab
          simp only [hba, hcb, Bool.true_eq_false, false_or] at h₁ h₂
          exact Or.inr (ih h₁ h₂)

/-- The order of texts by code points. -/
def textLe (s t : String) : Bool :=
  lexLe Nat.ble (s.toList.map Char.toNat) (t.toList.map Char.toNat)

end Understudy.Text
