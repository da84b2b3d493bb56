import Vsched2.Interface
import Vsched2.Lib.IndexSet
import Vsched2.Lib.Ledger
import Mathlib.Algebra.BigOperators.Fin
import Mathlib.Algebra.Order.Group.Multiset
import Mathlib.Algebra.Order.BigOperators.Group.Finset

/-! The stack handler (`stack/handler.rs`): for each CPU the pool of free stacks, the stack in use and
    the stack of the next trap.

    A stack is held in one of these slots or belongs to whoever passed it in or got it back. Every
    operation is described by its flow: the stacks passed in and returned, and those it obtains from
    `Stack::alloc` and gives to `Stack::dealloc`. -/

namespace Vsched2

/-- The pointer of a stack. -/
abbrev StackPtr := ℕ

/-- `StackHandler`. The calls of `Stack::alloc` and `Stack::dealloc` made so far are kept for the
    statements, the newest first. -/
structure StackHandler (cfg : Config) where
  free_stacks : Cpu cfg → List StackPtr
  current_stack : Cpu cfg → Option StackPtr
  trap_stack : Cpu cfg → Option StackPtr
  allocated : List StackPtr
  deallocated : List StackPtr

variable {cfg : Config}

namespace StackHandler

def default : StackHandler cfg := ⟨fun _ => [], fun _ => none, fun _ => none, [], []⟩

def set_free (h : StackHandler cfg) (cpu_id : Cpu cfg) (pool : List StackPtr) : StackHandler cfg :=
  { h with free_stacks := Function.update h.free_stacks cpu_id pool }

def set_current (h : StackHandler cfg) (cpu_id : Cpu cfg) (stack : Option StackPtr) : StackHandler cfg :=
  { h with current_stack := Function.update h.current_stack cpu_id stack }

def set_trap (h : StackHandler cfg) (cpu_id : Cpu cfg) (stack : Option StackPtr) : StackHandler cfg :=
  { h with trap_stack := Function.update h.trap_stack cpu_id stack }

@[simp] theorem set_trap_current (h : StackHandler cfg) (c : Cpu cfg) (stack : Option StackPtr) :
    (h.set_trap c stack).current_stack = h.current_stack := rfl

@[simp] theorem set_current_trap (h : StackHandler cfg) (c : Cpu cfg) (stack : Option StackPtr) :
    (h.set_current c stack).trap_stack = h.trap_stack := rfl

/-- `alloc_stack`; `fresh` is what `Stack::alloc` returns if it is called. -/
def alloc_stack (h : StackHandler cfg) (cpu_id : Cpu cfg) (fresh : StackPtr) : StackPtr × StackHandler cfg :=
  match h.free_stacks cpu_id with
  | [] => (fresh, { h with allocated := fresh :: h.allocated })
  | stack :: _ => (stack, h.set_free cpu_id (IndexSet.remove (h.free_stacks cpu_id) stack))

/-- `dealloc_stack`; `pool_size` is `STACK_POOL_SIZE`. -/
def dealloc_stack (pool_size : ℕ) (h : StackHandler cfg) (stack : StackPtr) (cpu_id : Cpu cfg) :
    StackHandler cfg :=
  let pool := IndexSet.remove (h.free_stacks cpu_id) stack
  match IndexSet.insert pool_size pool stack with
  | none => { h.set_free cpu_id pool with deallocated := stack :: h.deallocated }
  | some pool' => h.set_free cpu_id pool'

/-- `set_current_stack` with the stack it returns; `none` is the panic about a stack in use on another
    CPU. The base of a stack is given by its pointer. -/
def set_current_stack (h : StackHandler cfg) (stack : StackPtr) (cpu_id : Cpu cfg) :
    Option (Option StackPtr × StackHandler cfg) :=
  if ∃ i, i ≠ cpu_id ∧ h.current_stack i = some stack then none
  else some (h.current_stack cpu_id, h.set_current cpu_id (some stack))

/-- `take_current_stack`; `none` is a panic. -/
def take_current_stack (h : StackHandler cfg) (cpu_id : Cpu cfg) : Option (StackPtr × StackHandler cfg) :=
  (h.current_stack cpu_id).map fun stack => (stack, h.set_current cpu_id none)

/-- `alloc_trap_stack` with the stack whose base it returns; `none` is the failed assertion. -/
def alloc_trap_stack (h : StackHandler cfg) (cpu_id : Cpu cfg) (fresh : StackPtr) :
    Option (StackPtr × StackHandler cfg) :=
  let r := h.alloc_stack cpu_id fresh
  match r.2.trap_stack cpu_id with
  | none => some (r.1, r.2.set_trap cpu_id (some r.1))
  | some _ => none

/-- `set_trap_stack` with the stack it returns. -/
def set_trap_stack (h : StackHandler cfg) (stack : StackPtr) (cpu_id : Cpu cfg) :
    Option StackPtr × StackHandler cfg :=
  (h.trap_stack cpu_id, h.set_trap cpu_id (some stack))

/-- `get_empty_stack` with the stack whose base it returns; `none` is a panic. -/
def get_empty_stack (h : StackHandler cfg) (cpu_id : Cpu cfg) (fresh : StackPtr) :
    Option (StackPtr × StackHandler cfg) :=
  match h.current_stack cpu_id with
  | some stack => some (stack, h)
  | none =>
    let r := h.alloc_stack cpu_id fresh
    (r.2.set_current_stack r.1 cpu_id).bind fun r' =>
      match r'.1 with
      | none => some (r.1, r'.2)
      | some _ => none

/-- `get_thread_stack`; `none` is a panic. -/
def get_thread_stack (pool_size : ℕ) (h : StackHandler cfg) (thread_stack : Option StackPtr) (cpu_id : Cpu cfg) :
    Option (StackHandler cfg) :=
  let replaced :=
    match thread_stack with
    | some stack => h.set_current_stack stack cpu_id
    | none => some (h.current_stack cpu_id, h.set_current cpu_id none)
  replaced.map fun r =>
    match r.1 with
    | some old_stack => r.2.dealloc_stack pool_size old_stack cpu_id
    | none => r.2

/-! ### What a handler holds -/

/-- The stacks in the slots of one CPU. -/
def slots (h : StackHandler cfg) (c : Cpu cfg) : Multiset StackPtr :=
  (h.free_stacks c : Multiset StackPtr) + (h.current_stack c).toList + (h.trap_stack c).toList

/-- The stacks in all slots. -/
def held (h : StackHandler cfg) : Multiset StackPtr := Finset.univ.sum h.slots

/-- The flow of an operation: it takes `passed` in, obtains `fresh` from `Stack::alloc`, gives `returned`
    back and `freed` to `Stack::dealloc`; what is held changes by these. -/
structure Flow (h h' : StackHandler cfg) (passed fresh returned freed : List StackPtr) : Prop where
  allocated : h'.allocated = fresh ++ h.allocated
  deallocated : h'.deallocated = freed ++ h.deallocated
  balance : h'.held + (returned + freed : Multiset StackPtr) = h.held + (passed + fresh : Multiset StackPtr)

variable {h h' h'' : StackHandler cfg} {c : Cpu cfg} {stack : StackPtr} {p f r d p' f' r' d' : List StackPtr}

/-- The flow of an operation on the slots of one CPU. -/
theorem Flow.of_slots (halloc : h'.allocated = f ++ h.allocated) (hdealloc : h'.deallocated = d ++ h.deallocated)
    (hother : ∀ c', c' ≠ c → h'.slots c' = h.slots c')
    (hslots : h'.slots c + (r + d : Multiset StackPtr) = h.slots c + (p + f : Multiset StackPtr)) :
    Flow h h' p f r d := by
  refine ⟨halloc, hdealloc, ?_⟩
  have hheld := Ledger.sum_change hother
  ext x
  have hx := congrArg (Multiset.count x) hheld
  have hx' := congrArg (Multiset.count x) hslots
  simp only [held, Multiset.count_add] at hx hx' ⊢
  omega

theorem Flow.refl (h : StackHandler cfg) : Flow h h [] [] [] [] := ⟨rfl, rfl, rfl⟩

/-- One operation after another. -/
theorem Flow.trans (h₁ : Flow h h' p f r d) (h₂ : Flow h' h'' p' f' r' d') :
    Flow h h'' (p' ++ p) (f' ++ f) (r' ++ r) (d' ++ d) := by
  refine ⟨by rw [h₂.allocated, h₁.allocated, List.append_assoc],
    by rw [h₂.deallocated, h₁.deallocated, List.append_assoc], ?_⟩
  ext x
  have hx := congrArg (Multiset.count x) h₁.balance
  have hx' := congrArg (Multiset.count x) h₂.balance
  simp only [← Multiset.coe_add, Multiset.count_add] at hx hx' ⊢
  omega

/-- A stack returned and passed in again stays inside. -/
theorem Flow.cancel (hf : Flow h h' (stack :: p) f (stack :: r) d) : Flow h h' p f r d := by
  refine ⟨hf.allocated, hf.deallocated, ?_⟩
  ext x
  have hx := congrArg (Multiset.count x) hf.balance
  simp only [← Multiset.cons_coe, Multiset.count_add, Multiset.count_cons] at hx ⊢
  omega

/-- What is held stays without duplicates when what comes in is one stack not held. -/
theorem Flow.nodup (hf : Flow h h' p f r d) (hh : h.held.Nodup) (hnew : ∀ x ∈ p ++ f, x ∉ h.held)
    (hone : (p ++ f).length ≤ 1) : h'.held.Nodup := by
  refine Ledger.nodup_of_balance hf.balance hh ?_ (by simpa using hnew)
  rw [Multiset.coe_add, Multiset.coe_nodup]
  exact List.nodup_iff_count_le_one.mpr fun x => List.count_le_length.trans hone

/-! ### What the operations change -/

theorem alloc_stack_unchanged (h : StackHandler cfg) (c : Cpu cfg) (fresh : StackPtr) :
    (h.alloc_stack c fresh).2.current_stack = h.current_stack ∧ (h.alloc_stack c fresh).2.trap_stack = h.trap_stack ∧
    (h.alloc_stack c fresh).2.deallocated = h.deallocated := by
  unfold alloc_stack
  split <;> exact ⟨rfl, rfl, rfl⟩

theorem dealloc_stack_unchanged (pool_size : ℕ) (h : StackHandler cfg) (stack : StackPtr) (c : Cpu cfg) :
    (h.dealloc_stack pool_size stack c).current_stack = h.current_stack ∧
    (h.dealloc_stack pool_size stack c).trap_stack = h.trap_stack := by
  unfold dealloc_stack
  dsimp only
  split <;> exact ⟨rfl, rfl⟩

/-- The stacks in use and for the next traps of all CPUs but one are the same. -/
def SameElsewhere (h h' : StackHandler cfg) (c : Cpu cfg) : Prop :=
  ∀ c', c' ≠ c → h'.current_stack c' = h.current_stack c' ∧ h'.trap_stack c' = h.trap_stack c'

theorem SameElsewhere.refl (h : StackHandler cfg) (c : Cpu cfg) : SameElsewhere h h c := fun _ _ => ⟨rfl, rfl⟩

theorem SameElsewhere.set_current (hs : SameElsewhere h h' c) (stack : Option StackPtr) :
    SameElsewhere h (h'.set_current c stack) c :=
  fun c' hne => ⟨by simpa [StackHandler.set_current, hne] using (hs c' hne).1, (hs c' hne).2⟩

theorem SameElsewhere.set_trap (hs : SameElsewhere h h' c) (stack : Option StackPtr) :
    SameElsewhere h (h'.set_trap c stack) c :=
  fun c' hne => ⟨(hs c' hne).1, by simpa [StackHandler.set_trap, hne] using (hs c' hne).2⟩

theorem SameElsewhere.alloc_stack (hs : SameElsewhere h h' c) (c' : Cpu cfg) (fresh : StackPtr) :
    SameElsewhere h (h'.alloc_stack c' fresh).2 c := by
  obtain ⟨hcurrent, htrap, -⟩ := alloc_stack_unchanged h' c' fresh
  intro d hne
  rw [hcurrent, htrap]
  exact hs d hne

theorem SameElsewhere.dealloc_stack (hs : SameElsewhere h h' c) (pool_size : ℕ) (stack : StackPtr) (c' : Cpu cfg) :
    SameElsewhere h (h'.dealloc_stack pool_size stack c') c := by
  obtain ⟨hcurrent, htrap⟩ := dealloc_stack_unchanged pool_size h' stack c'
  intro d hne
  rw [hcurrent, htrap]
  exact hs d hne

theorem set_current_stack_eq {old : Option StackPtr} (hs : h.set_current_stack stack c = some (old, h')) :
    old = h.current_stack c ∧ h' = h.set_current c (some stack) := by
  simp only [set_current_stack] at hs
  split at hs
  · cases hs
  · obtain ⟨rfl, rfl⟩ := Prod.mk.inj (Option.some.inj hs)
    exact ⟨rfl, rfl⟩

theorem take_current_stack_eq (hs : h.take_current_stack c = some (stack, h')) :
    h.current_stack c = some stack ∧ h' = h.set_current c none := by
  obtain ⟨s, hcur, hs⟩ := Option.map_eq_some_iff.mp hs
  obtain ⟨rfl, rfl⟩ := Prod.mk.inj hs
  exact ⟨hcur, rfl⟩

theorem alloc_trap_stack_eq {fresh : StackPtr} (hs : h.alloc_trap_stack c fresh = some (stack, h')) :
    h.trap_stack c = none ∧ stack = (h.alloc_stack c fresh).1 ∧
    h' = (h.alloc_stack c fresh).2.set_trap c (some stack) := by
  simp only [alloc_trap_stack] at hs
  split at hs
  · rename_i hnone
    obtain ⟨rfl, rfl⟩ := Prod.mk.inj (Option.some.inj hs)
    exact ⟨by rw [← (alloc_stack_unchanged h c fresh).2.1]; exact hnone, rfl, rfl⟩
  · cases hs

/-- The stack in use stays if there is one, and otherwise a stack is allocated. -/
theorem get_empty_stack_eq {fresh : StackPtr} (hs : h.get_empty_stack c fresh = some (stack, h')) :
    h.current_stack c = some stack ∧ h' = h ∨
    h.current_stack c = none ∧ stack = (h.alloc_stack c fresh).1 ∧
      h' = (h.alloc_stack c fresh).2.set_current c (some stack) := by
  simp only [get_empty_stack] at hs
  split at hs
  · rename_i hcur
    obtain ⟨rfl, rfl⟩ := Prod.mk.inj (Option.some.inj hs)
    exact Or.inl ⟨hcur, rfl⟩
  · rename_i hcur
    obtain ⟨⟨old, h''⟩, hset, hs⟩ := Option.bind_eq_some_iff.mp hs
    obtain ⟨-, rfl⟩ := set_current_stack_eq hset
    cases old with
    | none =>
      obtain ⟨rfl, rfl⟩ := Prod.mk.inj (Option.some.inj hs)
      exact Or.inr ⟨hcur, rfl, rfl⟩
    | some old => cases hs

/-- What `get_thread_stack` does: the stack in use is replaced, and the old one deallocated. -/
theorem get_thread_stack_eq {pool_size : ℕ} {thread_stack : Option StackPtr}
    (hs : h.get_thread_stack pool_size thread_stack c = some h') :
    h' = match h.current_stack c with
      | some old_stack => (h.set_current c thread_stack).dealloc_stack pool_size old_stack c
      | none => h.set_current c thread_stack := by
  obtain ⟨⟨old, h''⟩, hset, rfl⟩ := Option.map_eq_some_iff.mp hs
  cases thread_stack with
  | none =>
    obtain ⟨rfl, rfl⟩ := Prod.mk.inj (Option.some.inj hset)
    rfl
  | some new =>
    obtain ⟨rfl, rfl⟩ := set_current_stack_eq hset
    rfl

/-- After `get_empty_stack` the stack returned is in use, and only slots of this CPU have changed. -/
theorem get_empty_stack_after {fresh : StackPtr} (hs : h.get_empty_stack c fresh = some (stack, h')) :
    h'.current_stack c = some stack ∧ h'.trap_stack = h.trap_stack ∧ SameElsewhere h h' c := by
  rcases get_empty_stack_eq hs with ⟨hcur, rfl⟩ | ⟨-, rfl, rfl⟩
  · exact ⟨hcur, rfl, .refl _ c⟩
  · refine ⟨Function.update_self .., ?_, .set_current (.alloc_stack (.refl h c) c fresh) _⟩
    rw [set_current_trap, (alloc_stack_unchanged h c fresh).2.1]

/-- After `get_thread_stack` the stack passed in is in use, and only slots of this CPU have changed. -/
theorem get_thread_stack_after {pool_size : ℕ} {thread_stack : Option StackPtr}
    (hs : h.get_thread_stack pool_size thread_stack c = some h') :
    h'.current_stack c = thread_stack ∧ h'.trap_stack = h.trap_stack ∧ SameElsewhere h h' c := by
  rw [get_thread_stack_eq hs]
  split
  · rename_i old_stack _
    obtain ⟨hcurrent, htrap⟩ := dealloc_stack_unchanged pool_size (h.set_current c thread_stack) old_stack c
    refine ⟨?_, htrap, .dealloc_stack (.set_current (.refl h c) _) pool_size old_stack c⟩
    rw [hcurrent]
    exact Function.update_self ..
  · exact ⟨Function.update_self .., rfl, .set_current (.refl h c) _⟩

/-- Where the stack passed in is not in use elsewhere, `get_thread_stack` returns. -/
theorem get_thread_stack_isSome {pool_size : ℕ} {thread_stack : Option StackPtr}
    (hfree : ∀ stack, thread_stack = some stack → ∀ i, h.current_stack i ≠ some stack) :
    ∃ h', h.get_thread_stack pool_size thread_stack c = some h' := by
  cases thread_stack with
  | none => exact ⟨_, rfl⟩
  | some stack =>
    have hset : h.set_current_stack stack c = some (h.current_stack c, h.set_current c (some stack)) :=
      if_neg fun ⟨i, _, hi⟩ => hfree stack rfl i hi
    exact ⟨_, by rw [get_thread_stack, hset]; rfl⟩

/-! ### The flows of the operations -/

theorem slots_set_free_of_ne {c' : Cpu cfg} (hne : c' ≠ c) (pool : List StackPtr) :
    (h.set_free c pool).slots c' = h.slots c' := by
  simp [slots, set_free, hne]

/-- The first free stack, or a fresh one. -/
theorem alloc_stack_flow (h : StackHandler cfg) (c : Cpu cfg) (fresh : StackPtr) :
    ∃ f, (f = [] ∨ f = [fresh]) ∧ Flow h (h.alloc_stack c fresh).2 [] f [(h.alloc_stack c fresh).1] [] := by
  unfold alloc_stack
  cases hfree : h.free_stacks c with
  | nil =>
    refine ⟨[fresh], Or.inr rfl, .of_slots (c := c) rfl rfl (fun _ _ => rfl) ?_⟩
    simp [slots]
  | cons stack rest =>
    have hperm := IndexSet.remove_perm (List.mem_cons_self : stack ∈ stack :: rest)
    have hcoe : (stack ::ₘ (IndexSet.remove (stack :: rest) stack : Multiset StackPtr)) =
        (stack :: rest : List StackPtr) := by
      rw [Multiset.cons_coe]
      exact Multiset.coe_eq_coe.mpr hperm
    refine ⟨[], Or.inl rfl, .of_slots (c := c) rfl rfl (fun c' hne => slots_set_free_of_ne hne _) ?_⟩
    ext x
    have hx := congrArg (Multiset.count x) hcoe
    simp only [slots, set_free, Function.update_self, hfree, Multiset.count_add, Multiset.count_cons,
      Multiset.coe_singleton, Multiset.count_singleton, Multiset.coe_nil, Multiset.count_zero] at hx ⊢
    omega

theorem dealloc_stack_room {pool_size : ℕ} (hnew : stack ∉ h.free_stacks c)
    (hroom : (h.free_stacks c).length < pool_size) :
    h.dealloc_stack pool_size stack c = h.set_free c (h.free_stacks c ++ [stack]) := by
  simp [dealloc_stack, IndexSet.remove_of_notMem hnew, IndexSet.insert_of_lt hnew hroom]

theorem dealloc_stack_full {pool_size : ℕ} (hnew : stack ∉ h.free_stacks c)
    (hfull : pool_size ≤ (h.free_stacks c).length) :
    h.dealloc_stack pool_size stack c = { h with deallocated := stack :: h.deallocated } := by
  simp [dealloc_stack, IndexSet.remove_of_notMem hnew, IndexSet.insert_of_full hnew hfull, set_free]

/-- A stack not in the pool goes into it, or to `Stack::dealloc`. -/
theorem dealloc_stack_flow (pool_size : ℕ) (hnew : stack ∉ h.free_stacks c) :
    ∃ d, Flow h (h.dealloc_stack pool_size stack c) [stack] [] [] d := by
  rcases Nat.lt_or_ge (h.free_stacks c).length pool_size with hroom | hfull
  · rw [dealloc_stack_room hnew hroom]
    refine ⟨[], .of_slots (c := c) rfl rfl (fun c' hne => slots_set_free_of_ne hne _) ?_⟩
    ext x
    simp only [slots, set_free, Function.update_self, ← Multiset.coe_add, Multiset.count_add, Multiset.coe_nil,
      Multiset.count_zero]
    omega
  · rw [dealloc_stack_full hnew hfull]
    refine ⟨[stack], rfl, rfl, ?_⟩
    rw [Multiset.coe_nil, zero_add, add_zero]
    rfl

/-- The stack in use is replaced. -/
theorem set_current_flow (h : StackHandler cfg) (c : Cpu cfg) (stack : Option StackPtr) :
    Flow h (h.set_current c stack) stack.toList [] (h.current_stack c).toList [] := by
  refine .of_slots (c := c) rfl rfl (fun c' hne => by simp [slots, set_current, hne]) ?_
  ext x
  simp only [slots, set_current, Function.update_self, Multiset.count_add, Multiset.coe_nil, Multiset.count_zero]
  omega

theorem set_trap_flow (h : StackHandler cfg) (c : Cpu cfg) (stack : Option StackPtr) :
    Flow h (h.set_trap c stack) stack.toList [] (h.trap_stack c).toList [] := by
  refine .of_slots (c := c) rfl rfl (fun c' hne => by simp [slots, set_trap, hne]) ?_
  ext x
  simp only [slots, set_trap, Function.update_self, Multiset.count_add, Multiset.coe_nil, Multiset.count_zero]
  omega

theorem set_current_stack_flow {old : Option StackPtr} (hs : h.set_current_stack stack c = some (old, h')) :
    Flow h h' [stack] [] old.toList [] := by
  obtain ⟨rfl, rfl⟩ := set_current_stack_eq hs
  exact set_current_flow h c (some stack)

theorem take_current_stack_flow (hs : h.take_current_stack c = some (stack, h')) : Flow h h' [] [] [stack] [] := by
  obtain ⟨hcur, rfl⟩ := take_current_stack_eq hs
  have hflow := set_current_flow h c none
  rwa [hcur] at hflow

theorem set_trap_stack_flow (h : StackHandler cfg) (stack : StackPtr) (c : Cpu cfg) :
    Flow h (h.set_trap_stack stack c).2 [stack] [] (h.set_trap_stack stack c).1.toList [] :=
  set_trap_flow h c (some stack)

/-- The stack allocated stays in the handler. -/
theorem alloc_trap_stack_flow {fresh : StackPtr} (hs : h.alloc_trap_stack c fresh = some (stack, h')) :
    ∃ f, (f = [] ∨ f = [fresh]) ∧ Flow h h' [] f [] [] := by
  obtain ⟨f, hf, halloc⟩ := alloc_stack_flow h c fresh
  obtain ⟨hnone, rfl, rfl⟩ := alloc_trap_stack_eq hs
  have htrap := set_trap_flow (h.alloc_stack c fresh).2 c (some (h.alloc_stack c fresh).1)
  rw [(alloc_stack_unchanged h c fresh).2.1, hnone] at htrap
  exact ⟨f, hf, (halloc.trans htrap).cancel⟩

theorem get_empty_stack_flow {fresh : StackPtr} (hs : h.get_empty_stack c fresh = some (stack, h')) :
    ∃ f, (f = [] ∨ f = [fresh]) ∧ Flow h h' [] f [] [] := by
  rcases get_empty_stack_eq hs with ⟨-, rfl⟩ | ⟨hnone, rfl, rfl⟩
  · exact ⟨[], Or.inl rfl, .refl _⟩
  · obtain ⟨f, hf, halloc⟩ := alloc_stack_flow h c fresh
    have hcur := set_current_flow (h.alloc_stack c fresh).2 c (some (h.alloc_stack c fresh).1)
    rw [(alloc_stack_unchanged h c fresh).1, hnone] at hcur
    exact ⟨f, hf, (halloc.trans hcur).cancel⟩

theorem slots_le_held (h : StackHandler cfg) (c : Cpu cfg) : h.slots c ≤ h.held :=
  Finset.single_le_sum (fun _ _ => Multiset.zero_le _) (Finset.mem_univ c)

theorem mem_held_of_free (hs : stack ∈ h.free_stacks c) : stack ∈ h.held :=
  Multiset.mem_of_le (slots_le_held h c) (by simp [slots, hs])

theorem mem_held_of_current (hs : h.current_stack c = some stack) : stack ∈ h.held :=
  Multiset.mem_of_le (slots_le_held h c) (by simp [slots, hs])

/-- The slots of one CPU hold no stack twice. -/
theorem slots_nodup (hh : h.held.Nodup) (c : Cpu cfg) : (h.slots c).Nodup :=
  Multiset.nodup_of_le (slots_le_held h c) hh

/-- The slots of two CPUs have no stack in common. -/
theorem slots_disjoint (hh : h.held.Nodup) {c' : Cpu cfg} (hne : c' ≠ c) : Disjoint (h.slots c) (h.slots c') := by
  rw [held, ← Finset.add_sum_erase _ _ (Finset.mem_univ c), Multiset.nodup_add] at hh
  have hle : h.slots c' ≤ (Finset.univ.erase c).sum h.slots :=
    Finset.single_le_sum (fun _ _ => Multiset.zero_le _) (Finset.mem_erase.mpr ⟨hne, Finset.mem_univ c'⟩)
  exact hh.2.2.mono_right hle

/-- The stack of the next trap is neither free nor in use. -/
theorem trap_apart (hh : h.held.Nodup) (hc : h.trap_stack c = some stack) :
    h.current_stack c ≠ some stack ∧ ∀ c', stack ∉ h.free_stacks c' := by
  have hcount := Multiset.nodup_iff_count_le_one.mp (slots_nodup hh c) stack
  simp only [slots, hc, Option.toList_some, Multiset.count_add, Multiset.coe_count, List.count_singleton_self] at hcount
  refine ⟨fun hcur => ?_, fun c' hmem => ?_⟩
  · simp [hcur] at hcount
  · rcases eq_or_ne c' c with rfl | hne
    · have hpos : 0 < (h.free_stacks c').count stack := List.count_pos_iff.mpr hmem
      omega
    · have htrap : stack ∈ h.slots c := by simp [slots, hc]
      have hfree : stack ∈ h.slots c' := by simp [slots, hmem]
      exact Multiset.disjoint_left.mp (slots_disjoint hh hne) htrap hfree

/-- The stack in use is not free. -/
theorem current_notMem_free (hh : h.held.Nodup) (hc : h.current_stack c = some stack) : stack ∉ h.free_stacks c := by
  intro hmem
  have hcount := Multiset.nodup_iff_count_le_one.mp (slots_nodup hh c) stack
  have hpos : 0 < (h.free_stacks c).count stack := List.count_pos_iff.mpr hmem
  simp only [slots, hc, Option.toList_some, Multiset.count_add, Multiset.coe_count, List.count_singleton_self] at hcount
  omega

theorem get_thread_stack_flow {pool_size : ℕ} {thread_stack : Option StackPtr} (hh : h.held.Nodup)
    (hs : h.get_thread_stack pool_size thread_stack c = some h') :
    ∃ d, Flow h h' thread_stack.toList [] [] d := by
  have hcur := set_current_flow h c thread_stack
  rw [get_thread_stack_eq hs]
  cases hc : h.current_stack c with
  | none =>
    rw [hc] at hcur
    exact ⟨[], hcur⟩
  | some old =>
    rw [hc] at hcur
    have hnew : old ∉ h.free_stacks c := current_notMem_free hh hc
    obtain ⟨d, hdealloc⟩ := @dealloc_stack_flow cfg (h.set_current c thread_stack) c old pool_size hnew
    have hflow := hcur.trans hdealloc
    rw [List.append_nil, List.append_nil] at hflow
    exact ⟨d, hflow.cancel⟩

end StackHandler

end Vsched2
