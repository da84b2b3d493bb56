import Mathlib.Algebra.BigOperators.Group.Finset.Basic
import Mathlib.Data.Fintype.Basic
import Mathlib.Data.Multiset.AddSub

/-! Accounts of things that move between places: what the places hold together, as a multiset. -/

namespace Ledger

/-- A change in one place changes the sum over all places by as much. -/
theorem sum_change {ι M : Type*} [Fintype ι] [DecidableEq ι] [AddCommMonoid M] {f f' : ι → M} {i : ι}
    (h : ∀ j, j ≠ i → f' j = f j) : Finset.univ.sum f' + f i = Finset.univ.sum f + f' i := by
  have hrest : (Finset.univ.erase i).sum f' = (Finset.univ.erase i).sum f :=
    Finset.sum_congr rfl fun j hj => h j (Finset.ne_of_mem_erase hj)
  have hsplit : ∀ g : ι → M, Finset.univ.sum g = g i + (Finset.univ.erase i).sum g :=
    fun g => (Finset.add_sum_erase _ _ (Finset.mem_univ i)).symm
  rw [hsplit f, hsplit f', hrest]
  ac_rfl

/-- Nothing is held twice after new things, each once, have come in and others have gone out. -/
theorem nodup_of_balance {α : Type*} [DecidableEq α] {before after incoming outgoing : Multiset α}
    (h : after + outgoing = before + incoming) (hbefore : before.Nodup) (hincoming : incoming.Nodup)
    (hnew : ∀ x ∈ incoming, x ∉ before) : after.Nodup := by
  have hsum : (before + incoming).Nodup :=
    Multiset.nodup_add.mpr ⟨hbefore, hincoming, Multiset.disjoint_right.mpr fun hx => hnew _ hx⟩
  exact Multiset.nodup_of_le (h ▸ Multiset.le_add_right after outgoing) hsum

end Ledger
