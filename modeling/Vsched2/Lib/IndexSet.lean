import Mathlib.Data.List.Perm.Basic
import Mathlib.Data.Multiset.AddSub

/-! A bounded set of keys in a vector, as an index map keeps them: a new key goes to the end, and the
    last key takes the place of a removed one. -/

namespace IndexSet

variable {α : Type*}

/-- Removes the element at `i`; the last one takes its place. -/
def swap_remove (l : List α) (i : ℕ) : List α :=
  match l.getLast? with
  | none => []
  | some last => (l.set i last).dropLast

theorem swap_remove_perm {l : List α} {i : ℕ} (hi : i < l.length) : (l[i] :: swap_remove l i).Perm l := by
  rcases List.eq_nil_or_concat l with rfl | ⟨pre, last, rfl⟩
  · simp at hi
  · simp only [List.concat_eq_append, List.length_append, List.length_singleton] at hi ⊢
    rcases Nat.lt_or_ge i pre.length with hlt | hge
    · have hset : swap_remove (pre ++ [last]) i = pre.set i last := by
        simp [swap_remove, List.set_append_left _ _ hlt]
      rw [hset, List.getElem_append_left hlt]
      calc (pre[i] :: pre.set i last).Perm (pre[i] :: last :: pre.eraseIdx i) :=
            (List.set_perm_cons_eraseIdx hlt last).cons _
        _ |>.Perm (last :: pre[i] :: pre.eraseIdx i) := List.Perm.swap ..
        _ |>.Perm (last :: pre) := (List.getElem_cons_eraseIdx_perm hlt).cons _
        _ |>.Perm (pre ++ [last]) := (List.perm_append_singleton last pre).symm
    · obtain rfl : i = pre.length := by omega
      have hset : swap_remove (pre ++ [last]) pre.length = pre := by
        simp [swap_remove, List.set_append_right]
      rw [hset]
      simpa using (List.perm_append_singleton last pre).symm

variable [DecidableEq α]

/-- `remove` of an index map. -/
def remove (l : List α) (a : α) : List α := if a ∈ l then swap_remove l (l.idxOf a) else l

/-- `insert` into an index map of capacity `cap`; `none` is the error of a full map. -/
def insert (cap : ℕ) (l : List α) (a : α) : Option (List α) :=
  if a ∈ l then some l else if l.length < cap then some (l ++ [a]) else none

theorem remove_of_notMem {l : List α} {a : α} (h : a ∉ l) : remove l a = l := if_neg h

theorem remove_perm {l : List α} {a : α} (h : a ∈ l) : (a :: remove l a).Perm l := by
  rw [remove, if_pos h]
  have hlt := List.idxOf_lt_length_of_mem h
  have hget : l[l.idxOf a] = a := List.getElem_idxOf hlt
  calc (a :: swap_remove l (l.idxOf a)).Perm (l[l.idxOf a] :: swap_remove l (l.idxOf a)) := by rw [hget]
    _ |>.Perm l := swap_remove_perm hlt

theorem insert_of_lt {cap : ℕ} {l : List α} {a : α} (ha : a ∉ l) (h : l.length < cap) :
    insert cap l a = some (l ++ [a]) := by
  rw [insert, if_neg ha, if_pos h]

theorem insert_of_full {cap : ℕ} {l : List α} {a : α} (ha : a ∉ l) (h : cap ≤ l.length) : insert cap l a = none := by
  rw [insert, if_neg ha, if_neg (not_lt.mpr h)]

end IndexSet
