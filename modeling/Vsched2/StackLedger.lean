import Vsched2.StackHandler
import Vsched2.Lib.Run

/-! Stacks are neither lost nor duplicated by any sequence of operations of a handler. -/

namespace Vsched2

variable {cfg : Config}

/-- A handler with the stacks passed in and returned so far, the newest first. -/
structure StackLedger (cfg : Config) where
  handler : StackHandler cfg
  passed : List StackPtr
  returned : List StackPtr

/-- The operations of a handler; `fresh` is what `Stack::alloc` returns if it is called. -/
inductive StackOp (cfg : Config) where
  | alloc_stack (cpu_id : Cpu cfg) (fresh : StackPtr)
  | dealloc_stack (stack : StackPtr) (cpu_id : Cpu cfg)
  | set_current_stack (stack : StackPtr) (cpu_id : Cpu cfg)
  | take_current_stack (cpu_id : Cpu cfg)
  | alloc_trap_stack (cpu_id : Cpu cfg) (fresh : StackPtr)
  | set_trap_stack (stack : StackPtr) (cpu_id : Cpu cfg)
  | get_empty_stack (cpu_id : Cpu cfg) (fresh : StackPtr)
  | get_thread_stack (thread_stack : Option StackPtr) (cpu_id : Cpu cfg)
  deriving DecidableEq

/-- The stack passed in. -/
def StackOp.passed : StackOp cfg → List StackPtr
  | .dealloc_stack stack _ | .set_current_stack stack _ | .set_trap_stack stack _ => [stack]
  | .get_thread_stack thread_stack _ => thread_stack.toList
  | _ => []

/-- What `Stack::alloc` returns. -/
def StackOp.fresh : StackOp cfg → List StackPtr
  | .alloc_stack _ fresh | .alloc_trap_stack _ fresh | .get_empty_stack _ fresh => [fresh]
  | _ => []

namespace StackLedger

/-- The result of an operation on the handler: the stacks it returns, and the handler. -/
def apply (pool_size : ℕ) (h : StackHandler cfg) : StackOp cfg → Option (List StackPtr × StackHandler cfg)
  | .alloc_stack cpu_id fresh =>
    let r := h.alloc_stack cpu_id fresh
    some ([r.1], r.2)
  | .dealloc_stack stack cpu_id => some ([], h.dealloc_stack pool_size stack cpu_id)
  | .set_current_stack stack cpu_id => (h.set_current_stack stack cpu_id).map fun r => (r.1.toList, r.2)
  | .take_current_stack cpu_id => (h.take_current_stack cpu_id).map fun r => ([r.1], r.2)
  | .alloc_trap_stack cpu_id fresh => (h.alloc_trap_stack cpu_id fresh).map fun r => ([], r.2)
  | .set_trap_stack stack cpu_id =>
    let r := h.set_trap_stack stack cpu_id
    some (r.1.toList, r.2)
  | .get_empty_stack cpu_id fresh => (h.get_empty_stack cpu_id fresh).map fun r => ([], r.2)
  | .get_thread_stack thread_stack cpu_id => (h.get_thread_stack pool_size thread_stack cpu_id).map fun h' => ([], h')

def step (pool_size : ℕ) (s : StackLedger cfg) (op : StackOp cfg) : Option (StackLedger cfg) :=
  (apply pool_size s.handler op).map fun r => ⟨r.2, op.passed ++ s.passed, r.1 ++ s.returned⟩

def boot (cfg : Config) : StackLedger cfg := ⟨.default, [], []⟩

/-- A stack passed in or returned by `Stack::alloc` is one that the handler does not hold. -/
def New (s : StackLedger cfg) (op : StackOp cfg) : Prop := ∀ x ∈ op.passed ++ op.fresh, x ∉ s.handler.held

/-- What came in is held, returned or deallocated, and nothing is held twice. -/
structure Inv (s : StackLedger cfg) : Prop where
  nodup : s.handler.held.Nodup
  balance : s.handler.held + (s.returned + s.handler.deallocated : Multiset StackPtr) =
    (s.passed + s.handler.allocated : Multiset StackPtr)

variable {pool_size : ℕ} {s s' : StackLedger cfg} {op : StackOp cfg} {h h' : StackHandler cfg}

/-- What comes in with an operation is one stack at most. -/
theorem passed_fresh_length (op : StackOp cfg) : (op.passed ++ op.fresh).length ≤ 1 := by
  cases op with
  | get_thread_stack thread_stack cpu_id => cases thread_stack <;> simp [StackOp.passed, StackOp.fresh]
  | _ => simp [StackOp.passed, StackOp.fresh]

theorem fresh_sublist {x : StackPtr} {f : List StackPtr} (hf : f = [] ∨ f = [x]) : f.Sublist [x] := by
  rcases hf with rfl | rfl
  · exact List.nil_sublist _
  · exact List.Sublist.refl _

/-- Every operation has a flow: it takes in what is passed, and a fresh stack at most. -/
theorem apply_flow {returned : List StackPtr} (hh : h.held.Nodup) (hnew : ∀ x ∈ op.passed ++ op.fresh, x ∉ h.held)
    (hs : apply pool_size h op = some (returned, h')) :
    ∃ f d, f.Sublist op.fresh ∧ h.Flow h' op.passed f returned d := by
  cases op with
  | alloc_stack c fresh =>
    obtain ⟨rfl, rfl⟩ := Prod.mk.inj (Option.some.inj hs)
    obtain ⟨f, hf, hflow⟩ := h.alloc_stack_flow c fresh
    exact ⟨f, [], fresh_sublist hf, hflow⟩
  | dealloc_stack stack c =>
    obtain ⟨rfl, rfl⟩ := Prod.mk.inj (Option.some.inj hs)
    have hfree : stack ∉ h.free_stacks c := by
      intro hmem
      exact hnew stack (by simp [StackOp.passed]) (StackHandler.mem_held_of_free hmem)
    obtain ⟨d, hflow⟩ := StackHandler.dealloc_stack_flow pool_size hfree
    exact ⟨[], d, List.Sublist.refl _, hflow⟩
  | set_current_stack stack c =>
    obtain ⟨⟨old, h''⟩, hset, hs⟩ := Option.map_eq_some_iff.mp hs
    obtain ⟨rfl, rfl⟩ := Prod.mk.inj hs
    exact ⟨[], [], List.Sublist.refl _, StackHandler.set_current_stack_flow hset⟩
  | take_current_stack c =>
    obtain ⟨⟨stack, h''⟩, htake, hs⟩ := Option.map_eq_some_iff.mp hs
    obtain ⟨rfl, rfl⟩ := Prod.mk.inj hs
    exact ⟨[], [], List.Sublist.refl _, StackHandler.take_current_stack_flow htake⟩
  | alloc_trap_stack c fresh =>
    obtain ⟨⟨stack, h''⟩, halloc, hs⟩ := Option.map_eq_some_iff.mp hs
    obtain ⟨rfl, rfl⟩ := Prod.mk.inj hs
    obtain ⟨f, hf, hflow⟩ := StackHandler.alloc_trap_stack_flow halloc
    exact ⟨f, [], fresh_sublist hf, hflow⟩
  | set_trap_stack stack c =>
    obtain ⟨rfl, rfl⟩ := Prod.mk.inj (Option.some.inj hs)
    exact ⟨[], [], List.Sublist.refl _, h.set_trap_stack_flow stack c⟩
  | get_empty_stack c fresh =>
    obtain ⟨⟨stack, h''⟩, hget, hs⟩ := Option.map_eq_some_iff.mp hs
    obtain ⟨rfl, rfl⟩ := Prod.mk.inj hs
    obtain ⟨f, hf, hflow⟩ := StackHandler.get_empty_stack_flow hget
    exact ⟨f, [], fresh_sublist hf, hflow⟩
  | get_thread_stack thread_stack c =>
    obtain ⟨h'', hget, hs⟩ := Option.map_eq_some_iff.mp hs
    obtain ⟨rfl, rfl⟩ := Prod.mk.inj hs
    obtain ⟨d, hflow⟩ := StackHandler.get_thread_stack_flow hh hget
    exact ⟨[], d, List.Sublist.refl _, hflow⟩

theorem boot_inv : (boot cfg).Inv := by
  have hheld : (boot cfg).handler.held = 0 :=
    Finset.sum_eq_zero fun c _ => by simp [boot, StackHandler.slots, StackHandler.default]
  refine ⟨by simp [hheld], ?_⟩
  rw [hheld]
  rfl

theorem step_inv (hI : s.Inv) (hnew : s.New op) (hs : step pool_size s op = some s') : s'.Inv := by
  obtain ⟨⟨returned, h'⟩, happly, rfl⟩ := Option.map_eq_some_iff.mp hs
  obtain ⟨f, d, hf, hflow⟩ := apply_flow hI.nodup hnew happly
  have hsub : (op.passed ++ f).Sublist (op.passed ++ op.fresh) := (List.Sublist.refl _).append hf
  have hone : (op.passed ++ f).length ≤ 1 := hsub.length_le.trans (passed_fresh_length op)
  refine ⟨hflow.nodup hI.nodup (fun x hx => hnew x (hsub.subset hx)) hone, ?_⟩
  simp only [hflow.allocated, hflow.deallocated]
  ext x
  have hx := congrArg (Multiset.count x) hI.balance
  have hx' := congrArg (Multiset.count x) hflow.balance
  simp only [← Multiset.coe_add, Multiset.count_add] at hx hx' ⊢
  omega

/-- Over every sequence of operations, each stack held is in one slot only, and the stacks held,
    returned and deallocated are those passed in and allocated; one that came in once is deallocated
    once at most. -/
theorem stacks_conserved (pool_size : ℕ) (ops : List (StackOp cfg)) (s : StackLedger cfg)
    (hrun : Runs.run (step pool_size) (boot cfg) ops = some s) (hnew : Runs.Along (step pool_size) New (boot cfg) ops) :
    s.handler.held.Nodup ∧
    s.handler.held + (s.returned + s.handler.deallocated : Multiset StackPtr) =
      (s.passed + s.handler.allocated : Multiset StackPtr) ∧
    ∀ x, (s.passed ++ s.handler.allocated).count x ≤ 1 → s.handler.deallocated.count x ≤ 1 := by
  have hI : s.Inv := Runs.along_invariant (fun _ _ _ hI hnew hs => step_inv hI hnew hs) ops boot_inv hnew hrun
  refine ⟨hI.nodup, hI.balance, fun x hx => ?_⟩
  have hcount := congrArg (Multiset.count x) hI.balance
  simp only [Multiset.count_add, Multiset.coe_count, List.count_append] at hcount hx
  omega

instance (s : StackLedger cfg) (op : StackOp cfg) : Decidable (s.New op) :=
  inferInstanceAs (Decidable (∀ x ∈ op.passed ++ op.fresh, x ∉ s.handler.held))

/-- An interrupt takes the stack in use, an empty stack follows it and a thread's that one; with one place
    in the pool the thread's stack goes to `Stack::dealloc`. -/
def interrupt_and_resume : List (StackOp duo) :=
  [.set_current_stack 10 duo_first, .alloc_trap_stack duo_first 11, .take_current_stack duo_first,
    .alloc_stack duo_first 12, .set_trap_stack 12 duo_first, .get_empty_stack duo_first 13,
    .get_thread_stack (some 14) duo_first, .get_thread_stack none duo_first, .dealloc_stack 10 duo_second]

theorem stacks_conserved_interrupt : ∃ s, Runs.run (step 1) (boot duo) interrupt_and_resume = some s ∧
    s.handler.held.Nodup ∧ s.handler.deallocated = [14] := by
  have hrun : ((Runs.run (step 1) (boot duo) interrupt_and_resume).map fun s => s.handler.deallocated) =
      some [14] := by decide +kernel
  obtain ⟨s, hs, hfreed⟩ := Option.map_eq_some_iff.mp hrun
  exact ⟨s, hs, (stacks_conserved 1 interrupt_and_resume s hs (by decide +kernel)).1, hfreed⟩

end StackLedger

end Vsched2
