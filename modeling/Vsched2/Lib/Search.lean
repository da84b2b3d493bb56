import Mathlib.Data.List.Basic
import Mathlib.Data.Fin.Basic
import Mathlib.Data.List.FinRange
import Mathlib.Tactic.ByContra

/-! Two linear searches: the greatest index up to a bound with a property, and the least element of
    a `Fin n` with one. -/

namespace Search

/-- The greatest `i ≤ n` with `p i`, searched downwards. -/
def last (p : ℕ → Bool) : ℕ → Option ℕ
  | 0 => if p 0 then some 0 else none
  | n + 1 => if p (n + 1) then some (n + 1) else last p n

theorem last_eq_some {p : ℕ → Bool} : ∀ {n i : ℕ},
    last p n = some i ↔ i ≤ n ∧ p i = true ∧ ∀ j, i < j → j ≤ n → p j = false := by
  intro n i
  induction n with
  | zero =>
    by_cases h : p 0 = true
    · simp only [last, h, if_true, Option.some.injEq]
      constructor
      · rintro rfl; exact ⟨le_refl _, h, fun j hj hj' => by omega⟩
      · rintro ⟨hi, -, -⟩; omega
    · simp only [last, h]
      constructor
      · intro hf; simp at hf
      · rintro ⟨hi, hp, -⟩
        obtain rfl : i = 0 := by omega
        exact absurd hp h
  | succ n ih =>
    by_cases h : p (n + 1) = true
    · simp only [last, h, if_true, Option.some.injEq]
      constructor
      · rintro rfl; exact ⟨le_refl _, h, fun j hj hj' => by omega⟩
      · rintro ⟨hi, hp, hmax⟩
        by_contra hne
        have hlt : i < n + 1 := by omega
        rw [hmax (n + 1) hlt (le_refl _)] at h
        exact absurd h (by simp)
    · simp only [last, h]
      rw [if_neg (by simp), ih]
      constructor
      · rintro ⟨hi, hp, hmax⟩
        refine ⟨by omega, hp, fun j hj hj' => ?_⟩
        rcases Nat.lt_or_ge n j with hlt | hge
        · obtain rfl : j = n + 1 := by omega
          simpa using h
        · exact hmax j hj hge
      · rintro ⟨hi, hp, hmax⟩
        have hin : i ≤ n := by
          by_contra hn
          obtain rfl : i = n + 1 := by omega
          exact h hp
        exact ⟨hin, hp, fun j hj hj' => hmax j hj (by omega)⟩

theorem last_eq_none {p : ℕ → Bool} : ∀ {n : ℕ}, last p n = none ↔ ∀ j ≤ n, p j = false := by
  intro n
  induction n with
  | zero =>
    by_cases h : p 0 = true
    · simp [last, h]
    · simp [last, h]
  | succ n ih =>
    by_cases h : p (n + 1) = true
    · simp only [last, h, if_true]
      constructor
      · intro hf; simp at hf
      · intro hall
        rw [hall (n + 1) (le_refl _)] at h
        exact absurd h (by simp)
    · simp only [last, h]
      rw [if_neg (by simp), ih]
      constructor
      · intro hall j hj
        rcases Nat.lt_or_ge n j with hlt | hge
        · obtain rfl : j = n + 1 := by omega
          simpa using h
        · exact hall j hge
      · exact fun hall j hj => hall j (by omega)

variable {n : ℕ}

/-- The least index with the property. -/
def first (p : Fin n → Bool) : Option (Fin n) := (List.finRange n).find? p

theorem first_eq_none {p : Fin n → Bool} : first p = none ↔ ∀ i, p i = false := by
  simp [first, List.find?_eq_none]

theorem first_eq_some {p : Fin n → Bool} {i : Fin n} :
    first p = some i ↔ p i = true ∧ ∀ j, j < i → p j = false := by
  rw [first, List.find?_eq_some_iff_getElem]
  constructor
  · rintro ⟨hp, k, hk, hki, hmin⟩
    refine ⟨hp, fun j hj => ?_⟩
    have hkv : (i : ℕ) = k := by rw [← hki]; simp
    have hjk : (j : ℕ) < k := by rw [← hkv]; exact hj
    simpa using hmin j hjk
  · rintro ⟨hp, hmin⟩
    refine ⟨hp, i, by simp, by simp, fun j hj => ?_⟩
    simpa using hmin ⟨j, by omega⟩ (by simpa [Fin.lt_def] using hj)

end Search
