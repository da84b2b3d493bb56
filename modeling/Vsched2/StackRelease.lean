import Vsched2.StackLoop

/-! What the schedule loop gives to `Stack::dealloc`.

    `get_thread_stack` is the only caller of `dealloc_stack`. It runs before the switch, so the old stack
    is the one the scheduler is still on: in the pool it stays usable, but with the pool full it is freed
    under the scheduler. -/

namespace Vsched2

variable {cfg : Config}

namespace StackHandler

variable {h h' : StackHandler cfg} {c : Cpu cfg}

/-- `get_thread_stack` frees the stack it replaces when the pool is full, and nothing else. -/
theorem get_thread_stack_deallocated {pool_size : ℕ} {thread_stack : Option StackPtr} (hh : h.held.Nodup)
    (hs : h.get_thread_stack pool_size thread_stack c = some h') :
    (h.current_stack c = none ∨ (h.free_stacks c).length < pool_size) ∧ h'.deallocated = h.deallocated ∨
    pool_size ≤ (h.free_stacks c).length ∧
      ∃ old, h.current_stack c = some old ∧ h'.deallocated = old :: h.deallocated := by
  rw [get_thread_stack_eq hs]
  cases hc : h.current_stack c with
  | none => exact Or.inl ⟨Or.inl rfl, rfl⟩
  | some old =>
    have hnew : old ∉ (h.set_current c thread_stack).free_stacks c := @current_notMem_free cfg h c old hh hc
    rcases Nat.lt_or_ge (h.free_stacks c).length pool_size with hroom | hfull
    · refine Or.inl ⟨Or.inr hroom, ?_⟩
      dsimp only
      rw [dealloc_stack_room hnew hroom]
      rfl
    · refine Or.inr ⟨hfull, old, rfl, ?_⟩
      dsimp only
      rw [dealloc_stack_full hnew hfull]
      rfl

end StackHandler

namespace StackLoop

variable {base : StackPtr → ℕ} {pool_size : ℕ} {type2 : Prop} {s s' : StackLoop cfg} {c : Cpu cfg}

/-- The steps that call `get_thread_stack`: a thread is resumed, or a user task. -/
def resumed : Act cfg → Option (Cpu cfg)
  | .run_task c _ (some _) _ => some c
  | .krun_utask c _ => some c
  | _ => none

/-- Without `get_thread_stack` nothing is freed. -/
theorem step_deallocated (a : Act cfg) (hr : resumed a = none) (h : s.step base pool_size a = some s') :
    s'.kernel_stacks.deallocated = s.kernel_stacks.deallocated := by
  simp only [step] at h
  split at h
  · cases a with
    | kernel_init c init_task init_stack fresh =>
      obtain ⟨-, rfl | ⟨stack, h', halloc, rfl⟩⟩ := kernel_init_cases h
      · rfl
      · obtain ⟨_, _, hflow⟩ := StackHandler.alloc_trap_stack_flow halloc
        exact hflow.deallocated
    | spawn t thread_stack =>
      obtain rfl := Option.some.inj h
      rfl
    | interrupt c external user_stack =>
      obtain ⟨_, -, rfl | ⟨stack, h', htake, rfl⟩⟩ | ⟨t, -, rfl⟩ := interrupt_cases h
      · rfl
      · exact (StackHandler.take_current_stack_flow htake).deallocated
      · rfl
    | into_kernel c =>
      obtain ⟨-, rfl⟩ := into_kernel_cases h
      rfl
    | trap_entry c fresh =>
      obtain ⟨_, _, thread_stack, -, rfl | ⟨next, stack, hnext, -, -, rfl⟩⟩ | ⟨-, rfl⟩ := trap_entry_cases h
      · rfl
      · change next.2.deallocated = s.kernel_stacks.deallocated
        rw [hnext]
        split
        · rfl
        · exact (s.kernel_stacks.alloc_stack_unchanged c fresh).2.2
      · rfl
    | thread_yield c save =>
      obtain ⟨_, _, -, rfl | ⟨stack, h', htake, rfl⟩ | rfl⟩ := thread_yield_cases h
      · rfl
      · exact (StackHandler.take_current_stack_flow htake).deallocated
      · rfl
    | thread_entry c exited fresh =>
      obtain ⟨_, _, _, -, rfl | ⟨new_sp, h', hget, rfl⟩ | ⟨-, rfl⟩⟩ := thread_entry_cases h
      · rfl
      · obtain ⟨_, _, hflow⟩ := StackHandler.get_empty_stack_flow hget
        exact hflow.deallocated
      · rfl
    | coroutine_return c exited =>
      obtain ⟨_, _, -, rfl⟩ := coroutine_return_cases h
      rfl
    | run_task c t thread_stack fresh =>
      cases thread_stack with
      | some stack => cases hr
      | none =>
        have h : s.run_task pool_size c t none fresh = some s' := h
        obtain ⟨-, rfl | ⟨-, new_sp, h', hget, rfl⟩ | ⟨_, _, hsome, -⟩⟩ := run_task_cases h
        · rfl
        · obtain ⟨_, _, hflow⟩ := StackHandler.get_empty_stack_flow hget
          exact hflow.deallocated
        · cases hsome
    | krun_utask c t => cases hr
    | wait c =>
      obtain ⟨-, rfl⟩ := wait_cases h
      rfl
    | wait_found c =>
      obtain ⟨-, rfl⟩ := wait_cases h
      rfl
    | wait_return c =>
      obtain ⟨-, rfl⟩ := wait_return_cases h
      rfl
    | user_yield c exited =>
      obtain ⟨_, -, rfl⟩ := user_yield_cases h
      rfl
    | user_run_task c t =>
      obtain ⟨-, rfl⟩ := user_run_task_cases h
      rfl
  · cases h

/-- A step that calls `get_thread_stack` does so from the scheduler, and the call returns. -/
theorem step_resumed (hI : s.Inv base type2) {a : Act cfg} (hr : resumed a = some c)
    (h : s.step base pool_size a = some s') :
    s.place c = .sched ∧ ∃ thread_stack,
      s.kernel_stacks.get_thread_stack pool_size thread_stack c = some s'.kernel_stacks := by
  simp only [step] at h
  split at h
  · cases a with
    | run_task c' t thread_stack fresh =>
      cases thread_stack with
      | none => cases hr
      | some stack =>
        obtain rfl : c' = c := Option.some.inj hr
        have h : s.run_task pool_size c' t (some stack) fresh = some s' := h
        have hcases := run_task_cases h
        obtain ⟨⟨hmem, hk, hplace⟩, -⟩ := hcases
        refine ⟨hplace, some stack, ?_⟩
        -- no slot holds the stack of a saved context, so it is not in use elsewhere
        have hfree : ∀ stack', some stack = some stack' → ∀ i, s.kernel_stacks.current_stack i ≠ some stack' := by
          intro stack' heq i hi
          obtain rfl := Option.some.inj heq
          exact hI.stored_notMem_held hmem (StackHandler.mem_held_of_current hi)
        obtain ⟨h', hget⟩ := @StackHandler.get_thread_stack_isSome cfg s.kernel_stacks c' pool_size _ hfree
        have hstep : s.run_task pool_size c' t (some stack) fresh =
            some (move { s with stored := s.stored.erase (t, some stack) } c' h' (.task t false) (some stack)) := by
          simp only [run_task, if_pos (And.intro hmem (And.intro hk hplace)), hget]
        obtain rfl := Option.some.inj (hstep.symm.trans h)
        exact hget
    | krun_utask c' t =>
      obtain rfl : c' = c := Option.some.inj hr
      have h : s.krun_utask pool_size c' t = some s' := h
      obtain ⟨⟨-, -, hplace⟩, h', hget, rfl⟩ := krun_utask_cases h
      exact ⟨hplace, none, hget⟩
    | _ => cases hr
  · cases h

/-! ### The running stack -/

/-- What a step from `s` to `s'` gives to `Stack::dealloc`. -/
def freed (s s' : StackLoop cfg) : List StackPtr :=
  s'.kernel_stacks.deallocated.take (s'.kernel_stacks.deallocated.length - s.kernel_stacks.deallocated.length)

theorem freed_eq {d : List StackPtr} (hd : s'.kernel_stacks.deallocated = d ++ s.kernel_stacks.deallocated) :
    freed s s' = d := by
  simp [freed, hd]

/-- A step frees no stack that a CPU executes on. -/
def KeepsRunning (base : StackPtr → ℕ) (pool_size : ℕ) (s : StackLoop cfg) (a : Act cfg) : Prop :=
  ∀ s' ∈ s.step base pool_size a, ∀ stack ∈ freed s s', ∀ c, s.on c ≠ some stack

/-- A step that replaces the scheduler's stack finds room for it in the pool. -/
def Room (pool_size : ℕ) (s : StackLoop cfg) (a : Act cfg) : Prop :=
  ∀ c ∈ resumed a, s.kernel_stacks.current_stack c = none ∨ (s.kernel_stacks.free_stacks c).length < pool_size

instance (base : StackPtr → ℕ) (pool_size : ℕ) (s : StackLoop cfg) (a : Act cfg) :
    Decidable (KeepsRunning base pool_size s a) :=
  inferInstanceAs (Decidable (∀ s' ∈ s.step base pool_size a, ∀ stack ∈ freed s s', ∀ c, s.on c ≠ some stack))

theorem keeps_running_iff_room (hI : s.Inv base type2) (a : Act cfg) (h : s.step base pool_size a = some s') :
    KeepsRunning base pool_size s a ↔ Room pool_size s a := by
  cases hr : resumed a with
  | none =>
    have hfreed : freed s s' = [] := freed_eq (step_deallocated a hr h)
    have hroom : Room pool_size s a := by
      intro c hc
      rw [hr] at hc
      cases hc
    refine iff_of_true ?_ hroom
    intro t ht stack hstack
    obtain rfl : s' = t := Option.some.inj (h.symm.trans ht)
    rw [hfreed] at hstack
    cases hstack
  | some c =>
    obtain ⟨hplace, thread_stack, hget⟩ := step_resumed hI hr h
    have hs := hI.settled c
    rw [SettledAt, hplace] at hs
    rcases StackHandler.get_thread_stack_deallocated hI.held_nodup hget with ⟨hroom, hsame⟩ | ⟨hfull, old, hcur, hfree⟩
    · have hfreed : freed s s' = [] := freed_eq hsame
      refine iff_of_true ?_ ?_
      · intro t ht stack hstack
        obtain rfl : s' = t := Option.some.inj (h.symm.trans ht)
        rw [hfreed] at hstack
        cases hstack
      · intro c' hc'
        obtain rfl : c = c' := Option.some.inj (hr.symm.trans hc')
        exact hroom
    · -- the scheduler is still on the stack in use
      have hon : s.on c = some old := by
        rcases hs.1 with ⟨stack, hstack, hon⟩ | ⟨-, hnone, -⟩
        · rw [hon, ← hstack, hcur]
        · rw [hcur] at hnone
          cases hnone
      have hfreed : freed s s' = [old] := freed_eq hfree
      refine iff_of_false ?_ ?_
      · intro hkeeps
        exact hkeeps s' h old (by rw [hfreed]; exact List.mem_singleton_self old) c hon
      · intro hroom
        rcases hroom c hr with hnone | hlt
        · rw [hcur] at hnone
          cases hnone
        · omega

/-- In a run no stack is freed that a CPU executes on if and only if every thread resumed and every user
    task run from a scheduler with a recorded stack finds room in the pool of its CPU. -/
theorem run_keeps_running_iff (base : StackPtr → ℕ) (pool_size : ℕ) (acts : List (Act cfg)) :
    Runs.Along (step base pool_size) (KeepsRunning base pool_size) (boot cfg) acts ↔
      Runs.Along (step base pool_size) (Room pool_size) (boot cfg) acts :=
  Runs.along_congr (fun _ a _ hI h => step_inv hI a (fun _ => trivial) h)
    (fun _ a _ hI h => keeps_running_iff_room hI a h) acts (boot_inv base True)

/-- A coroutine of the kernel. -/
def coroutine (k : ℕ) : StackTask := ⟨k, true, true⟩

/-- Coroutines that are preempted one after the other, and then resumed as threads and finished. Each of
    them takes a stack along, and leaves it to the scheduler in exchange for the one before. -/
def finish_late (n : ℕ) : List (Act solo) :=
  [.kernel_init solo_cpu ⟨n, true, false⟩ 1 2, .thread_yield solo_cpu false, .thread_entry solo_cpu true 0] ++
  (List.range n).map (fun k => .spawn (coroutine k) none) ++
  (List.range n).flatMap (fun k =>
    [.run_task solo_cpu (coroutine k) none 0, .interrupt solo_cpu true 0, .trap_entry solo_cpu (k + 3)]) ++
  (List.range n).flatMap fun k => [.run_task solo_cpu (coroutine k) (some (k + 1)) 0, .coroutine_return solo_cpu true]

-- one coroutine fewer, and the pool has room for every stack
example : Runs.Along (step id 16) (KeepsRunning id 16) (boot solo) (finish_late 16) := by decide +kernel

theorem finish_late_frees_running :
    ¬ Runs.Along (step id 16) (KeepsRunning id 16) (boot solo) (finish_late 17) := by decide +kernel

end StackLoop

end Vsched2
