import Mathlib.Data.List.Basic
import Mathlib.Order.MinMax
import Mathlib.Order.Lattice

/-! A bounded stable priority queue: elements with keys, in the order of their arrival.

    A key takes a bounded number of elements. The element taken is the oldest of the least key. The
    elements of one key are its bucket, and the operations are described by what they do to buckets. -/

namespace StableQueue

variable {κ α : Type*} [LinearOrder κ]

/-- The elements with the key `k`, the oldest first. -/
def bucket (q : List (κ × α)) (k : κ) : List α := (q.filter fun e => e.1 = k).map Prod.snd

/-- Adds an element unless its key has `cap` elements already. -/
def push (cap : ℕ) (q : List (κ × α)) (k : κ) (a : α) : Option (List (κ × α)) :=
  if (bucket q k).length < cap then some (q ++ [(k, a)]) else none

def least (q : List (κ × α)) : Option κ := (q.map Prod.fst).min?

/-- Removes the oldest element with the key `k`. -/
def pull (k : κ) : List (κ × α) → Option α × List (κ × α)
  | [] => (none, [])
  | e :: q => if e.1 = k then (some e.2, q) else ((pull k q).1, e :: (pull k q).2)

/-- Removes the oldest element of the least key. -/
def take (q : List (κ × α)) : Option α × List (κ × α) :=
  match least q with
  | none => (none, q)
  | some k => pull k q

@[simp] theorem bucket_nil (k : κ) : bucket ([] : List (κ × α)) k = [] := rfl

theorem bucket_cons (e : κ × α) (q : List (κ × α)) (k : κ) :
    bucket (e :: q) k = if e.1 = k then e.2 :: bucket q k else bucket q k := by
  by_cases h : e.1 = k <;> simp [bucket, h]

theorem bucket_concat_self (q : List (κ × α)) (k : κ) (a : α) : bucket (q ++ [(k, a)]) k = bucket q k ++ [a] := by
  simp [bucket]

theorem bucket_concat_of_ne (q : List (κ × α)) {k k' : κ} (a : α) (h : k' ≠ k) :
    bucket (q ++ [(k, a)]) k' = bucket q k' := by
  simp [bucket, h.symm]

theorem bucket_ne_nil {q : List (κ × α)} {k : κ} : bucket q k ≠ [] ↔ k ∈ q.map Prod.fst := by
  simp [bucket, List.filter_eq_nil_iff]

theorem least_eq_some {q : List (κ × α)} {k : κ} :
    least q = some k ↔ bucket q k ≠ [] ∧ ∀ k', k' < k → bucket q k' = [] := by
  rw [least, List.min?_eq_some_iff, bucket_ne_nil]
  refine and_congr_right fun _ => ⟨fun h k' hk => ?_, fun h k' hk => ?_⟩
  · by_contra hne
    exact absurd (h k' (bucket_ne_nil.mp hne)) (not_le.mpr hk)
  · by_contra hlt
    exact absurd (h k' (not_le.mp hlt)) (bucket_ne_nil.mpr hk)

theorem least_eq_none {q : List (κ × α)} : least q = none ↔ ∀ k, bucket q k = [] := by
  rw [least, List.min?_eq_none_iff, List.map_eq_nil_iff]
  constructor
  · rintro rfl k
    rfl
  · intro h
    cases q with
    | nil => rfl
    | cons e q =>
      have hk := h e.1
      simp [bucket_cons] at hk

/-- Taking by key shortens one bucket. -/
theorem pull_spec {k : κ} {a : α} {rest : List α} : ∀ {q : List (κ × α)}, bucket q k = a :: rest →
    (pull k q).1 = some a ∧ bucket (pull k q).2 k = rest ∧ ∀ k', k' ≠ k → bucket (pull k q).2 k' = bucket q k' := by
  intro q h
  induction q with
  | nil => simp at h
  | cons e q ih =>
    rw [bucket_cons] at h
    by_cases he : e.1 = k
    · rw [if_pos he] at h
      obtain ⟨ha, hrest⟩ := List.cons.inj h
      refine ⟨by simp [pull, he, ha], by simp [pull, he, hrest], fun k' hk => ?_⟩
      rw [bucket_cons, if_neg (by rw [he]; exact hk.symm)]
      simp [pull, he]
    · rw [if_neg he] at h
      obtain ⟨h₁, h₂, h₃⟩ := ih h
      refine ⟨by simp [pull, he, h₁], by simp [pull, he, bucket_cons, h₂], fun k' hk => ?_⟩
      simp only [pull, he, if_false, bucket_cons, h₃ k' hk]

end StableQueue
