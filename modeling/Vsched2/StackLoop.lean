import Vsched2.StackHandler
import Vsched2.Lib.Run

/-! The kernel schedule loop as it uses the kernel's stacks, `KERNEL_STACKS`.

    Each CPU executes on one stack. A trap enters on the stack that the pre-stack register names, after
    the OS has saved the interrupted context and taken its stack out of the handler; `trap_entry` then
    puts another stack in its place. What the scheduler picks is left open: any task that is not running
    may be the next.

    `Machine` and `System` have no stacks, and no stack decides what the scheduler does. So this is a slice of
    its own: the branches of the dispatch that choose a stack, without the queues, whose decisions are left
    open. -/

namespace Vsched2

variable {cfg : Config}

/-- A task. `poll` marks one that was created as a coroutine; interrupted inside `poll` it goes on as a
    thread, and when `poll` returns it is a coroutine again. -/
structure StackTask where
  task : TaskPtr
  is_kernel : Bool
  poll : Bool
  deriving DecidableEq, Repr

/-- Where a CPU is. -/
inductive Place where
  | off
  -- a kernel task, a user task, and the scheduler of a user process
  | task (t : StackTask) (is_coroutine : Bool) | user (t : StackTask) | user_sched
  -- the scheduler loop of the kernel, and `wait_irqs` in it
  | sched | wait
  -- before `trap_entry`: the context of the task, or of the wait, is saved with its stack
  | entry (external : Bool) (current_task : Option StackTask) (thread_stack : StackPtr)
  -- before `trap_entry` of type 2
  | into_kernel
  -- before `thread_entry`, with the stack taken if the context is saved
  | leaving (t : StackTask) (is_coroutine : Bool) (thread_stack : Option StackPtr)
  | panicked
  deriving DecidableEq, Repr

/-- The state: `on` is the stack a CPU executes on, `stored` the tasks that are not running, a thread
    with the stack of its context. -/
structure StackLoop (cfg : Config) where
  kernel_stacks : StackHandler cfg
  pre_stack : Cpu cfg → ℕ
  IS_SLEEPING : Cpu cfg → Bool
  place : Cpu cfg → Place
  on : Cpu cfg → Option StackPtr
  stored : List (StackTask × Option StackPtr)

namespace StackLoop

/-- The steps, with the stacks that come from outside: those of new tasks and of interrupted user tasks,
    and what `Stack::alloc` returns if it is called. -/
inductive Act (cfg : Config) where
  | kernel_init (c : Cpu cfg) (init_task : StackTask) (init_stack fresh : StackPtr)
  | spawn (t : StackTask) (thread_stack : Option StackPtr)
  | interrupt (c : Cpu cfg) (external : Bool) (user_stack : StackPtr)
  | into_kernel (c : Cpu cfg)
  | trap_entry (c : Cpu cfg) (fresh : StackPtr)
  | thread_yield (c : Cpu cfg) (save : Bool)
  | thread_entry (c : Cpu cfg) (exited : Bool) (fresh : StackPtr)
  | coroutine_return (c : Cpu cfg) (exited : Bool)
  | run_task (c : Cpu cfg) (t : StackTask) (thread_stack : Option StackPtr) (fresh : StackPtr)
  | krun_utask (c : Cpu cfg) (t : StackTask)
  | wait (c : Cpu cfg) | wait_found (c : Cpu cfg) | wait_return (c : Cpu cfg)
  | user_yield (c : Cpu cfg) (exited : Bool) | user_run_task (c : Cpu cfg) (t : StackTask)
  deriving DecidableEq

/-- The stacks that come from outside. -/
def Act.given : Act cfg → List StackPtr
  | .kernel_init _ _ init_stack fresh => [init_stack, fresh]
  | .spawn _ thread_stack => thread_stack.toList
  | .interrupt _ _ user_stack => [user_stack]
  | .trap_entry _ fresh | .thread_entry _ _ fresh | .run_task _ _ _ fresh => [fresh]
  | _ => []

variable (base : StackPtr → ℕ) (pool_size : ℕ) (s : StackLoop cfg) (c : Cpu cfg)

/-- A CPU goes on at `place` on the stack `on`. -/
def move (h : StackHandler cfg) (place : Place) (on : Option StackPtr) : StackLoop cfg :=
  { s with kernel_stacks := h, place := Function.update s.place c place, on := Function.update s.on c on }

def panic : StackLoop cfg := s.move c s.kernel_stacks .panicked (s.on c)

def set_pre_stack (stack : StackPtr) : StackLoop cfg :=
  { s with pre_stack := Function.update s.pre_stack c (base stack) }

def set_sleeping (sleeping : Bool) : StackLoop cfg :=
  { s with IS_SLEEPING := Function.update s.IS_SLEEPING c sleeping }

def store (tasks : List (StackTask × Option StackPtr)) : StackLoop cfg := { s with stored := tasks ++ s.stored }

@[simp] theorem move_kernel_stacks (h : StackHandler cfg) (place : Place) (on : Option StackPtr) :
    (s.move c h place on).kernel_stacks = h := rfl

@[simp] theorem move_stored (h : StackHandler cfg) (place : Place) (on : Option StackPtr) :
    (s.move c h place on).stored = s.stored := rfl

@[simp] theorem set_pre_stack_stored (stack : StackPtr) : (s.set_pre_stack base c stack).stored = s.stored := rfl

@[simp] theorem set_sleeping_stored (sleeping : Bool) : (s.set_sleeping c sleeping).stored = s.stored := rfl

/-- `kernel_init_main` and `kernel_init_secondary`. The initial task runs on the initial stack. -/
def kernel_init (init_task : StackTask) (init_stack fresh : StackPtr) : Option (StackLoop cfg) :=
  match s.place c with
  | .off =>
    match (s.kernel_stacks.set_current c (some init_stack)).alloc_trap_stack c fresh with
    | some (stack, h) => some ((s.move c h (.task init_task false) (some init_stack)).set_pre_stack base c stack)
    | none => some (s.panic c)
  | _ => none

/-- A trap in a task or in the wait, up to `trap_entry`. The context of a kernel task, and of the wait,
    is saved with `take_current_stack`; a user task was on a stack of its process. -/
def interrupt (external : Bool) (user_stack : StackPtr) : Option (StackLoop cfg) :=
  let saved (current_task : Option StackTask) : StackLoop cfg :=
    match s.kernel_stacks.take_current_stack c with
    | some (stack, h) => s.move c h (.entry external current_task stack) (s.kernel_stacks.trap_stack c)
    | none => s.panic c
  match s.place c with
  | .task t _ => some (saved (some t))
  | .wait => some (saved none)
  | .user t => some (s.move c s.kernel_stacks (.entry external (some t) user_stack) (s.kernel_stacks.trap_stack c))
  | _ => none

/-- `ContextVirtImpl::into_kernel` out of the user scheduler. -/
def into_kernel : Option (StackLoop cfg) :=
  match s.place c with
  | .user_sched => some (s.move c s.kernel_stacks .into_kernel (s.kernel_stacks.trap_stack c))
  | _ => none

/-- The task as it is put back, its context on `thread_stack`; the stacks of user tasks are not among
    the kernel's. -/
def put_back (t : StackTask) (thread_stack : StackPtr) : StackTask × Option StackPtr :=
  (t, if t.is_kernel then some thread_stack else none)

/-- `trap_entry` with privilege 0. A wait, indicated by IS_SLEEPING, gives its stack to the next trap, and
    nothing is put back; a synchronous trap in it panics. -/
def trap_entry (fresh : StackPtr) : Option (StackLoop cfg) :=
  match s.place c with
  | .entry external current_task thread_stack =>
    let scheduler_waiting := s.IS_SLEEPING c
    if external = false ∧ scheduler_waiting then some (s.panic c)
    else
      let r := if scheduler_waiting then (thread_stack, s.kernel_stacks) else s.kernel_stacks.alloc_stack c fresh
      match r.2.set_trap_stack r.1 c with
      | (none, _) => some (s.panic c)
      | (some current_stack, h) =>
        match h.set_current_stack current_stack c with
        | some (none, h') =>
          some ((((s.move c h' .sched (s.on c)).set_pre_stack base c r.1).set_sleeping c false).store
            (if scheduler_waiting then [] else (current_task.map fun t => put_back t thread_stack).toList))
        | _ => some (s.panic c)
  | .into_kernel => some (s.move c s.kernel_stacks .sched (s.on c))
  | _ => none

/-- The way of a task into `raw_thread_entry`, with its context saved as a thread's or not. -/
def thread_yield (save : Bool) : Option (StackLoop cfg) :=
  match s.place c with
  | .task t is_coroutine =>
    if save then
      match s.kernel_stacks.take_current_stack c with
      | some (stack, h) => some (s.move c h (.leaving t false (some stack)) (s.on c))
      | none => some (s.panic c)
    else some (s.move c s.kernel_stacks (.leaving t is_coroutine none) (s.on c))
  | _ => none

/-- `thread_entry` with its second phase. Without a saved context only a coroutine can go on later. -/
def thread_entry (exited : Bool) (fresh : StackPtr) : Option (StackLoop cfg) :=
  match s.place c with
  | .leaving t is_coroutine thread_stack =>
    if exited = false ∧ is_coroutine = false ∧ thread_stack = none then none
    else
      let tasks := if exited then [] else [(t, thread_stack)]
      if 1 < cfg.cpu_num ∨ is_coroutine = false then
        match s.kernel_stacks.get_empty_stack c fresh with
        | some (new_sp, h) => some ((s.move c h .sched (some new_sp)).store tasks)
        | none => some (s.panic c)
      else some ((s.move c s.kernel_stacks .sched (s.on c)).store tasks)
  | _ => none

/-- The end of `run_coroutine`. -/
def coroutine_return (exited : Bool) : Option (StackLoop cfg) :=
  match s.place c with
  | .task t _ =>
    if t.poll then some ((s.move c s.kernel_stacks .sched (s.on c)).store (if exited then [] else [(t, none)]))
    else none
  | _ => none

/-- `run_task` in the kernel, on a task that was not running. -/
def run_task (t : StackTask) (thread_stack : Option StackPtr) (fresh : StackPtr) : Option (StackLoop cfg) :=
  if (t, thread_stack) ∈ s.stored ∧ t.is_kernel ∧ s.place c = .sched then
    let s' := { s with stored := s.stored.erase (t, thread_stack) }
    match thread_stack with
    | none =>
      match s.kernel_stacks.get_empty_stack c fresh with
      | some (new_sp, h) => some (s'.move c h (.task t true) (some new_sp))
      | none => some (s'.panic c)
    | some stack =>
      match s.kernel_stacks.get_thread_stack pool_size (some stack) c with
      | some h => some (s'.move c h (.task t false) (some stack))
      | none => some (s'.panic c)
  else none

/-- `krun_utask`. In user mode a CPU is on no stack of the kernel. -/
def krun_utask (t : StackTask) : Option (StackLoop cfg) :=
  if (t, none) ∈ s.stored ∧ t.is_kernel = false ∧ s.place c = .sched then
    let s' := { s with stored := s.stored.erase (t, none) }
    match s.kernel_stacks.get_thread_stack pool_size none c with
    | some h => some (s'.move c h (.user t) none)
    | none => some (s'.panic c)
  else none

/-- `wait_for_runnable_task` up to `wait_irqs`, or up to its second check if that finds a task. -/
def wait (found : Bool) : Option (StackLoop cfg) :=
  match s.place c with
  | .sched => some ((s.move c s.kernel_stacks (if found then .sched else .wait) (s.on c)).set_sleeping c (!found))
  | _ => none

/-- `wait_irqs` returns without an interrupt. -/
def wait_return : Option (StackLoop cfg) :=
  match s.place c with
  | .wait => some (s.move c s.kernel_stacks .sched (s.on c))
  | _ => none

/-- A user task enters the scheduler of its process. -/
def user_yield (exited : Bool) : Option (StackLoop cfg) :=
  match s.place c with
  | .user t => some ((s.move c s.kernel_stacks .user_sched none).store (if exited then [] else [(t, none)]))
  | _ => none

/-- The scheduler of a process runs one of its tasks. -/
def user_run_task (t : StackTask) : Option (StackLoop cfg) :=
  if (t, none) ∈ s.stored ∧ t.is_kernel = false ∧ s.place c = .user_sched then
    some ({ s with stored := s.stored.erase (t, none) }.move c s.kernel_stacks (.user t) none)
  else none

/-- A new task; a kernel thread comes with its stack. -/
def spawn (t : StackTask) (thread_stack : Option StackPtr) : StackLoop cfg := s.store [(t, thread_stack)]

def act : Act cfg → Option (StackLoop cfg)
  | .kernel_init c init_task init_stack fresh => s.kernel_init base c init_task init_stack fresh
  | .spawn t thread_stack => some (s.spawn t thread_stack)
  | .interrupt c external user_stack => s.interrupt c external user_stack
  | .into_kernel c => s.into_kernel c
  | .trap_entry c fresh => s.trap_entry base c fresh
  | .thread_yield c save => s.thread_yield c save
  | .thread_entry c exited fresh => s.thread_entry c exited fresh
  | .coroutine_return c exited => s.coroutine_return c exited
  | .run_task c t thread_stack fresh => s.run_task pool_size c t thread_stack fresh
  | .krun_utask c t => s.krun_utask pool_size c t
  | .wait c => s.wait c false
  | .wait_found c => s.wait c true
  | .wait_return c => s.wait_return c
  | .user_yield c exited => s.user_yield c exited
  | .user_run_task c t => s.user_run_task c t

/-! ### What the functions do -/

section

variable {s s' : StackLoop cfg} {base pool_size c} {t : StackTask} {fresh : StackPtr}
  {external exited save found : Bool}

theorem kernel_init_cases {init_task : StackTask} {init_stack : StackPtr}
    (h : s.kernel_init base c init_task init_stack fresh = some s') :
    s.place c = .off ∧ (s' = s.panic c ∨ ∃ stack h',
      (s.kernel_stacks.set_current c (some init_stack)).alloc_trap_stack c fresh = some (stack, h') ∧
      s' = (s.move c h' (.task init_task false) (some init_stack)).set_pre_stack base c stack) := by
  simp only [kernel_init] at h
  split at h
  · rename_i hplace
    refine ⟨hplace, ?_⟩
    split at h
    · rename_i stack h' halloc
      exact Or.inr ⟨stack, h', halloc, (Option.some.inj h).symm⟩
    · exact Or.inl (Option.some.inj h).symm
  · cases h

/-- What an interrupt does: the context of a kernel task or of the wait is saved with the stack taken, or
    there is none to take; that of a user task is saved with a stack of its process. -/
theorem interrupt_cases {user_stack : StackPtr} (h : s.interrupt c external user_stack = some s') :
    (∃ current_task, (s.place c = .wait ∨ ∃ t is_coroutine, s.place c = .task t is_coroutine) ∧
      (s' = s.panic c ∨ ∃ stack h', s.kernel_stacks.take_current_stack c = some (stack, h') ∧
        s' = s.move c h' (.entry external current_task stack) (s.kernel_stacks.trap_stack c))) ∨
    ∃ t, s.place c = .user t ∧
      s' = s.move c s.kernel_stacks (.entry external (some t) user_stack) (s.kernel_stacks.trap_stack c) := by
  simp only [interrupt] at h
  split at h
  · rename_i t is_coroutine hplace
    refine Or.inl ⟨some t, Or.inr ⟨t, is_coroutine, hplace⟩, ?_⟩
    cases htake : s.kernel_stacks.take_current_stack c with
    | none =>
      rw [htake] at h
      exact Or.inl (Option.some.inj h).symm
    | some r =>
      rw [htake] at h
      exact Or.inr ⟨r.1, r.2, rfl, (Option.some.inj h).symm⟩
  · rename_i hplace
    refine Or.inl ⟨none, Or.inl hplace, ?_⟩
    cases htake : s.kernel_stacks.take_current_stack c with
    | none =>
      rw [htake] at h
      exact Or.inl (Option.some.inj h).symm
    | some r =>
      rw [htake] at h
      exact Or.inr ⟨r.1, r.2, rfl, (Option.some.inj h).symm⟩
  · rename_i t hplace
    exact Or.inr ⟨t, hplace, (Option.some.inj h).symm⟩
  · cases h

theorem into_kernel_cases (h : s.into_kernel c = some s') :
    s.place c = .user_sched ∧ s' = s.move c s.kernel_stacks .into_kernel (s.kernel_stacks.trap_stack c) := by
  simp only [into_kernel] at h
  split at h
  · rename_i hplace
    exact ⟨hplace, (Option.some.inj h).symm⟩
  · cases h

/-- What a trap entry does: it panics, or the next trap gets the stack of the wait or one allocated, and
    the scheduler goes on on the one it got before. -/
theorem trap_entry_cases (h : s.trap_entry base c fresh = some s') :
    (∃ external current_task thread_stack, s.place c = .entry external current_task thread_stack ∧
      (s' = s.panic c ∨
        ∃ next stack, next = (if s.IS_SLEEPING c then (thread_stack, s.kernel_stacks)
            else s.kernel_stacks.alloc_stack c fresh) ∧
          next.2.trap_stack c = some stack ∧ next.2.current_stack c = none ∧
          s' = (((s.move c ((next.2.set_trap c (some next.1)).set_current c (some stack)) .sched (s.on c)).set_pre_stack
            base c next.1).set_sleeping c false).store
              (if s.IS_SLEEPING c then [] else (current_task.map fun t => put_back t thread_stack).toList))) ∨
    s.place c = .into_kernel ∧ s' = s.move c s.kernel_stacks .sched (s.on c) := by
  simp only [trap_entry] at h
  split at h
  · rename_i external current_task thread_stack hplace
    refine Or.inl ⟨external, current_task, thread_stack, hplace, ?_⟩
    generalize hnext : (if s.IS_SLEEPING c then (thread_stack, s.kernel_stacks)
      else s.kernel_stacks.alloc_stack c fresh) = next at h
    split at h
    · exact Or.inl (Option.some.inj h).symm
    · split at h
      · exact Or.inl (Option.some.inj h).symm
      · rename_i stack h' hset
        obtain ⟨htrap, rfl⟩ := Prod.mk.inj hset
        split at h
        · rename_i h'' hcur
          obtain ⟨hnone, rfl⟩ := StackHandler.set_current_stack_eq hcur
          exact Or.inr ⟨next, stack, rfl, htrap, hnone.symm, (Option.some.inj h).symm⟩
        · exact Or.inl (Option.some.inj h).symm
  · rename_i hplace
    exact Or.inr ⟨hplace, (Option.some.inj h).symm⟩
  · cases h

theorem thread_yield_cases (h : s.thread_yield c save = some s') :
    ∃ t is_coroutine, s.place c = .task t is_coroutine ∧
      (s' = s.panic c ∨ (∃ stack h', s.kernel_stacks.take_current_stack c = some (stack, h') ∧
          s' = s.move c h' (.leaving t false (some stack)) (s.on c)) ∨
        s' = s.move c s.kernel_stacks (.leaving t is_coroutine none) (s.on c)) := by
  simp only [thread_yield] at h
  split at h
  · rename_i t is_coroutine hplace
    refine ⟨t, is_coroutine, hplace, ?_⟩
    split at h
    · split at h
      · rename_i stack h' htake
        exact Or.inr (Or.inl ⟨stack, h', htake, (Option.some.inj h).symm⟩)
      · exact Or.inl (Option.some.inj h).symm
    · exact Or.inr (Or.inr (Option.some.inj h).symm)
  · cases h

/-- What `thread_entry` does: it panics, or the scheduler goes on, on the stack in use if there is one. -/
theorem thread_entry_cases (h : s.thread_entry c exited fresh = some s') :
    ∃ t is_coroutine thread_stack, s.place c = .leaving t is_coroutine thread_stack ∧
      (s' = s.panic c ∨
        (∃ new_sp h', s.kernel_stacks.get_empty_stack c fresh = some (new_sp, h') ∧
          s' = (s.move c h' .sched (some new_sp)).store (if exited then [] else [(t, thread_stack)])) ∨
        is_coroutine = true ∧
          s' = (s.move c s.kernel_stacks .sched (s.on c)).store (if exited then [] else [(t, thread_stack)])) := by
  simp only [thread_entry] at h
  split at h
  · rename_i t is_coroutine thread_stack hplace
    refine ⟨t, is_coroutine, thread_stack, hplace, ?_⟩
    split at h
    · cases h
    · split at h
      · split at h
        · rename_i new_sp h' hget
          exact Or.inr (Or.inl ⟨new_sp, h', hget, (Option.some.inj h).symm⟩)
        · exact Or.inl (Option.some.inj h).symm
      · rename_i hone
        exact Or.inr (Or.inr ⟨by simpa using (not_or.mp hone).2, (Option.some.inj h).symm⟩)
  · cases h

theorem coroutine_return_cases (h : s.coroutine_return c exited = some s') :
    ∃ t is_coroutine, s.place c = .task t is_coroutine ∧
      s' = (s.move c s.kernel_stacks .sched (s.on c)).store (if exited then [] else [(t, none)]) := by
  simp only [coroutine_return] at h
  split at h
  · rename_i t is_coroutine hplace
    split at h
    · exact ⟨t, is_coroutine, hplace, (Option.some.inj h).symm⟩
    · cases h
  · cases h

/-- What `run_task` does on a task taken out of the queue, as `s'` has it, by the kind of the task. -/
theorem run_task_cases {thread_stack : Option StackPtr} (h : s.run_task pool_size c t thread_stack fresh = some s') :
    ((t, thread_stack) ∈ s.stored ∧ t.is_kernel ∧ s.place c = .sched) ∧
      (s' = panic { s with stored := s.stored.erase (t, thread_stack) } c ∨
        (thread_stack = none ∧ ∃ new_sp h', s.kernel_stacks.get_empty_stack c fresh = some (new_sp, h') ∧
          s' = move { s with stored := s.stored.erase (t, thread_stack) } c h' (.task t true) (some new_sp)) ∨
        ∃ stack h', thread_stack = some stack ∧
          s.kernel_stacks.get_thread_stack pool_size thread_stack c = some h' ∧
          s' = move { s with stored := s.stored.erase (t, thread_stack) } c h' (.task t false) thread_stack) := by
  simp only [run_task] at h
  split at h
  · rename_i hc
    refine ⟨hc, ?_⟩
    cases thread_stack with
    | none =>
      dsimp only at h
      split at h
      · rename_i new_sp h' hget
        exact Or.inr (Or.inl ⟨rfl, new_sp, h', hget, (Option.some.inj h).symm⟩)
      · exact Or.inl (Option.some.inj h).symm
    | some stack =>
      dsimp only at h
      split at h
      · rename_i h' hget
        exact Or.inr (Or.inr ⟨stack, h', rfl, hget, (Option.some.inj h).symm⟩)
      · exact Or.inl (Option.some.inj h).symm
  · cases h

/-- What `krun_utask` does; it never panics. -/
theorem krun_utask_cases (h : s.krun_utask pool_size c t = some s') :
    ((t, none) ∈ s.stored ∧ t.is_kernel = false ∧ s.place c = .sched) ∧
      ∃ h', s.kernel_stacks.get_thread_stack pool_size none c = some h' ∧
        s' = move { s with stored := s.stored.erase (t, none) } c h' (.user t) none := by
  simp only [krun_utask] at h
  split at h
  · rename_i hc
    exact ⟨hc, _, rfl, (Option.some.inj h).symm⟩
  · cases h

theorem wait_cases (h : s.wait c found = some s') :
    s.place c = .sched ∧
      s' = (s.move c s.kernel_stacks (if found then .sched else .wait) (s.on c)).set_sleeping c (!found) := by
  simp only [wait] at h
  split at h
  · rename_i hplace
    exact ⟨hplace, (Option.some.inj h).symm⟩
  · cases h

theorem wait_return_cases (h : s.wait_return c = some s') :
    s.place c = .wait ∧ s' = s.move c s.kernel_stacks .sched (s.on c) := by
  simp only [wait_return] at h
  split at h
  · rename_i hplace
    exact ⟨hplace, (Option.some.inj h).symm⟩
  · cases h

theorem user_yield_cases (h : s.user_yield c exited = some s') :
    ∃ t, s.place c = .user t ∧
      s' = (s.move c s.kernel_stacks .user_sched none).store (if exited then [] else [(t, none)]) := by
  simp only [user_yield] at h
  split at h
  · rename_i t hplace
    exact ⟨t, hplace, (Option.some.inj h).symm⟩
  · cases h

theorem user_run_task_cases (h : s.user_run_task c t = some s') :
    ((t, none) ∈ s.stored ∧ t.is_kernel = false ∧ s.place c = .user_sched) ∧
      s' = move { s with stored := s.stored.erase (t, none) } c s.kernel_stacks (.user t) none := by
  simp only [user_run_task] at h
  split at h
  · rename_i hc
    exact ⟨hc, (Option.some.inj h).symm⟩
  · cases h

end

/-! ### The stacks known -/

/-- The stack of a context saved on the way into the scheduler. -/
def place_saved : Place → List StackPtr
  | .entry _ _ thread_stack => [thread_stack]
  | .leaving _ _ thread_stack => thread_stack.toList
  | _ => []

/-- The stacks of the tasks that are not running. -/
def stored_stacks (tasks : List (StackTask × Option StackPtr)) : List StackPtr := tasks.flatMap fun e => e.2.toList

/-- The stacks of saved contexts. -/
def saved : Multiset StackPtr :=
  (stored_stacks s.stored : Multiset StackPtr) + Finset.univ.sum fun c => (place_saved (s.place c) : Multiset StackPtr)

/-- All stacks of the kernel: those its handler holds and those of saved contexts. -/
def total : Multiset StackPtr := s.kernel_stacks.held + s.saved

/-- The stacks that come from outside are none of the kernel's, and different. -/
def New (a : Act cfg) : Prop := a.given.Nodup ∧ ∀ x ∈ a.given, x ∉ s.total

instance (a : Act cfg) : Decidable (s.New a) :=
  inferInstanceAs (Decidable (a.given.Nodup ∧ ∀ x ∈ a.given, x ∉ s.total))

def step (a : Act cfg) : Option (StackLoop cfg) := if s.New a then s.act base pool_size a else none

def boot (cfg : Config) : StackLoop cfg := ⟨.default, fun _ => 0, fun _ => false, fun _ => .off, fun _ => none, []⟩

/-! ### The invariant -/

/-- The scheduler runs on the stack recorded as the one in use. -/
def Recorded (on current_stack : Option StackPtr) : Prop := ∃ stack, current_stack = some stack ∧ on = some stack

/-- The pre-stack register names the stack of the next trap. -/
def Named (base : StackPtr → ℕ) (trap_stack : Option StackPtr) (pre_stack : ℕ) : Prop :=
  ∃ stack, trap_stack = some stack ∧ pre_stack = base stack

/-- What the place of a CPU says about the stack it executes on and its slots. After a trap of type 2 the
    scheduler is on the stack of the next trap; `type2` says that there are such traps. -/
def Settled (base : StackPtr → ℕ) (type2 : Prop) (on current_stack trap_stack : Option StackPtr) (pre_stack : ℕ) :
    Place → Prop
  | .off => current_stack = none ∧ trap_stack = none
  | .task _ _ => Recorded on current_stack ∧ Named base trap_stack pre_stack
  | .user _ | .user_sched => (current_stack = none ∧ on = none) ∧ Named base trap_stack pre_stack
  | .into_kernel | .entry _ _ _ => (current_stack = none ∧ on = trap_stack) ∧ Named base trap_stack pre_stack
  | .leaving _ is_coroutine (some _) => (current_stack = none ∧ is_coroutine = false) ∧ Named base trap_stack pre_stack
  | .leaving _ _ none => Recorded on current_stack ∧ Named base trap_stack pre_stack
  | .sched | .wait =>
    (Recorded on current_stack ∨ type2 ∧ current_stack = none ∧ on = trap_stack) ∧ Named base trap_stack pre_stack
  | .panicked => True

def SettledAt (base : StackPtr → ℕ) (type2 : Prop) (s : StackLoop cfg) (c : Cpu cfg) : Prop :=
  Settled base type2 (s.on c) (s.kernel_stacks.current_stack c) (s.kernel_stacks.trap_stack c) (s.pre_stack c)
    (s.place c)

structure Inv (base : StackPtr → ℕ) (type2 : Prop) (s : StackLoop cfg) : Prop where
  nodup : s.total.Nodup
  settled : ∀ c, s.SettledAt base type2 c

variable {base pool_size c} {type2 : Prop} {s s' : StackLoop cfg}

theorem Settled.weaken {on current_stack trap_stack : Option StackPtr} {pre_stack : ℕ} {place : Place}
    (hs : Settled base type2 on current_stack trap_stack pre_stack place) :
    Settled base True on current_stack trap_stack pre_stack place := by
  cases place with
  | sched => exact ⟨hs.1.imp_right fun h => ⟨trivial, h.2⟩, hs.2⟩
  | wait => exact ⟨hs.1.imp_right fun h => ⟨trivial, h.2⟩, hs.2⟩
  | leaving t is_coroutine thread_stack => cases thread_stack <;> exact hs
  | _ => exact hs

theorem Inv.weaken (hI : s.Inv base type2) : s.Inv base True := ⟨hI.nodup, fun c => (hI.settled c).weaken⟩

theorem Inv.held_nodup (hI : s.Inv base type2) : s.kernel_stacks.held.Nodup :=
  Multiset.nodup_of_le (Multiset.le_add_right _ _) hI.nodup

/-- One CPU moves on: its handler operations have a flow, and the contexts saved and restored balance it
    with stacks that are new. -/
theorem Inv.move {a : Act cfg} {h : StackHandler cfg} {place : Place} {on : Option StackPtr} {pre_stack : Cpu cfg → ℕ}
    {sleeping : Cpu cfg → Bool} {stored : List (StackTask × Option StackPtr)} {p f r d : List StackPtr}
    (incoming : List StackPtr) (outgoing : Multiset StackPtr) (hI : s.Inv base type2) (hnew : s.New a)
    (hflow : s.kernel_stacks.Flow h p f r d)
    (hsame : s.kernel_stacks.SameElsewhere h c) (hpre : ∀ c', c' ≠ c → pre_stack c' = s.pre_stack c')
    (hsub : (incoming ++ f).Sublist a.given)
    (hsaved : (p + stored_stacks stored + place_saved place : Multiset StackPtr) + outgoing =
      (r + stored_stacks s.stored + place_saved (s.place c) : Multiset StackPtr) + incoming)
    (hsettled : Settled base type2 on (h.current_stack c) (h.trap_stack c) (pre_stack c) place) :
    Inv base type2 (⟨h, pre_stack, sleeping, Function.update s.place c place, Function.update s.on c on, stored⟩ :
      StackLoop cfg) := by
  refine ⟨?_, fun c' => ?_⟩
  · have hplace := @Ledger.sum_change _ _ _ _ _ (fun c => (place_saved (s.place c) : Multiset StackPtr))
      (fun c' => (place_saved (Function.update s.place c place c') : Multiset StackPtr)) c
      fun c' hne => by rw [Function.update_of_ne hne]
    have hbalance : total ⟨h, pre_stack, sleeping, Function.update s.place c place, Function.update s.on c on, stored⟩ +
        (d + outgoing) = s.total + (incoming ++ f : List StackPtr) := by
      ext x
      have hplace := congrArg (Multiset.count x) hplace
      have hflow := congrArg (Multiset.count x) hflow.balance
      have hsaved := congrArg (Multiset.count x) hsaved
      simp only [total, saved, ← Multiset.coe_add, Multiset.count_add, Function.update_self] at hplace hflow hsaved ⊢
      omega
    refine Ledger.nodup_of_balance hbalance hI.nodup (Multiset.coe_nodup.mpr (hnew.1.sublist hsub)) fun x hx => ?_
    exact hnew.2 x (hsub.subset hx)
  · rcases eq_or_ne c' c with rfl | hne
    · simpa [SettledAt] using hsettled
    · have hold := hI.settled c'
      simpa [SettledAt, hne, (hsame c' hne).1, (hsame c' hne).2, hpre c' hne] using hold

section

variable {a : Act cfg} {t : StackTask} {fresh : StackPtr} {external exited save : Bool}

theorem new_nil (s : StackLoop cfg) (c : Cpu cfg) : s.New (.into_kernel c) :=
  ⟨List.nodup_nil, fun _ hx => absurd hx List.not_mem_nil⟩

theorem Inv.panic (hI : s.Inv base type2) : (s.panic c).Inv base type2 :=
  Inv.move [] (place_saved (s.place c)) hI (s.new_nil c) (.refl _) (.refl _ c) (fun _ _ => rfl)
    (List.nil_sublist _) (by simp [place_saved]) trivial

/-- One CPU moves on and the handler stays as it is. -/
theorem Inv.stay {place : Place} {on : Option StackPtr} {sleeping : Cpu cfg → Bool}
    {stored : List (StackTask × Option StackPtr)} (hI : s.Inv base type2)
    (hsaved : (stored_stacks stored + place_saved place : Multiset StackPtr) =
      (stored_stacks s.stored + place_saved (s.place c) : Multiset StackPtr))
    (hsettled : Settled base type2 on (s.kernel_stacks.current_stack c) (s.kernel_stacks.trap_stack c)
      (s.pre_stack c) place) :
    Inv base type2 (⟨s.kernel_stacks, s.pre_stack, sleeping, Function.update s.place c place, Function.update s.on c on,
      stored⟩ : StackLoop cfg) := by
  refine Inv.move [] 0 hI (s.new_nil c) (.refl _) (.refl _ c) (fun _ _ => rfl) (List.nil_sublist _) ?_ hsettled
  simpa using hsaved

/-- A task without a stack put back changes nothing. -/
theorem stored_stacks_coroutine (tasks : List (StackTask × Option StackPtr)) (exited : Bool) (t : StackTask) :
    stored_stacks ((if exited then [] else [(t, none)]) ++ tasks) = stored_stacks tasks := by
  cases exited <;> simp [stored_stacks]

theorem stored_stacks_erase {tasks : List (StackTask × Option StackPtr)} {e : StackTask × Option StackPtr}
    (he : e ∈ tasks) :
    (stored_stacks tasks : Multiset StackPtr) = (e.2.toList + stored_stacks (tasks.erase e) : Multiset StackPtr) := by
  rw [Multiset.coe_add, Multiset.coe_eq_coe]
  exact (List.perm_cons_erase he).flatMap_right _

theorem kernel_init_inv {init_task : StackTask} {init_stack : StackPtr} (hI : s.Inv base type2)
    (hnew : s.New (.kernel_init c init_task init_stack fresh))
    (h : s.kernel_init base c init_task init_stack fresh = some s') : s'.Inv base type2 := by
  have hs := hI.settled c
  obtain ⟨hplace, rfl | ⟨stack, h', halloc, rfl⟩⟩ := kernel_init_cases h
  · exact hI.panic
  · rw [SettledAt, hplace] at hs
    have hcur := s.kernel_stacks.set_current_flow c (some init_stack)
    rw [hs.1] at hcur
    obtain ⟨f, hf, hflow⟩ := StackHandler.alloc_trap_stack_flow halloc
    obtain ⟨-, rfl, rfl⟩ := StackHandler.alloc_trap_stack_eq halloc
    have hcurrent := ((s.kernel_stacks.set_current c (some init_stack)).alloc_stack_unchanged c fresh).1
    refine Inv.move [init_stack] 0 hI hnew (hcur.trans hflow)
      (.set_trap (.alloc_stack (.set_current (.refl _ c) _) c fresh) _) (fun _ hne => Function.update_of_ne hne ..)
      ?_ ?_ ?_
    · rcases hf with rfl | rfl <;> simp [Act.given]
    · simp [place_saved, hplace, add_comm]
    · refine ⟨⟨init_stack, ?_, rfl⟩, _, Function.update_self .., Function.update_self ..⟩
      rw [move_kernel_stacks, StackHandler.set_trap_current, hcurrent]
      exact Function.update_self ..

theorem interrupt_inv {user_stack : StackPtr} (hI : s.Inv base type2)
    (hnew : s.New (.interrupt c external user_stack)) (h : s.interrupt c external user_stack = some s') :
    s'.Inv base type2 := by
  have hs := hI.settled c
  obtain ⟨current_task, hplace, rfl | ⟨stack, h', htake, rfl⟩⟩ | ⟨t, hplace, rfl⟩ := interrupt_cases h
  · exact hI.panic
  · -- the stack taken becomes that of the saved context
    have hold : Named base (s.kernel_stacks.trap_stack c) (s.pre_stack c) ∧ place_saved (s.place c) = [] := by
      rcases hplace with hplace | ⟨t, is_coroutine, hplace⟩
      · rw [SettledAt, hplace] at hs
        exact ⟨hs.2, by rw [hplace]; rfl⟩
      · rw [SettledAt, hplace] at hs
        exact ⟨hs.2, by rw [hplace]; rfl⟩
    have hflow := StackHandler.take_current_stack_flow htake
    obtain ⟨-, rfl⟩ := StackHandler.take_current_stack_eq htake
    refine Inv.move [] 0 hI hnew hflow (.set_current (.refl _ c) _) (fun _ _ => rfl) (List.nil_sublist _) ?_ ?_
    · rw [hold.2]
      simp [place_saved, add_comm, ← Multiset.singleton_add, ← Multiset.cons_coe]
    · exact ⟨⟨Function.update_self .., rfl⟩, hold.1⟩
  · rw [SettledAt, hplace] at hs
    refine Inv.move [user_stack] 0 hI hnew (.refl _) (.refl _ c) (fun _ _ => rfl) (List.Sublist.refl _) ?_
      ⟨⟨hs.1.1, rfl⟩, hs.2⟩
    simp [place_saved, hplace]

theorem into_kernel_inv (hI : s.Inv base type2) (h : s.into_kernel c = some s') : s'.Inv base type2 := by
  have hs := hI.settled c
  obtain ⟨hplace, rfl⟩ := into_kernel_cases h
  rw [SettledAt, hplace] at hs
  exact hI.stay (by rw [hplace]; rfl) ⟨⟨hs.1.1, rfl⟩, hs.2⟩

/-- The stacks of a trap entry: one comes in from the pool, from `Stack::alloc` or from the wait, and
    moves into the slot of the next trap, the one there into that of the stack in use. -/
theorem rotate_flow {h h' : StackHandler cfg} {next stack : StackPtr} {p f : List StackPtr}
    (hnext : h.Flow h' p f [next] []) (htrap : h'.trap_stack c = some stack) (hcur : h'.current_stack c = none) :
    h.Flow ((h'.set_trap c (some next)).set_current c (some stack)) p f [] [] := by
  have hset := h'.set_trap_flow c (some next)
  have hset' := (h'.set_trap c (some next)).set_current_flow c (some stack)
  rw [htrap] at hset
  rw [StackHandler.set_trap_current, hcur] at hset'
  exact ((hnext.trans hset).trans hset').cancel.cancel

theorem put_back_stacks (current_task : Option StackTask) (thread_stack : StackPtr) :
    stored_stacks (current_task.map fun t => put_back t thread_stack).toList = [thread_stack] ∨
    stored_stacks (current_task.map fun t => put_back t thread_stack).toList = [] := by
  cases current_task with
  | none => exact Or.inr rfl
  | some t =>
    cases hk : t.is_kernel with
    | true => exact Or.inl (by simp [put_back, stored_stacks, hk])
    | false => exact Or.inr (by simp [put_back, stored_stacks, hk])

theorem stored_stacks_append (tasks tasks' : List (StackTask × Option StackPtr)) :
    stored_stacks (tasks ++ tasks') = stored_stacks tasks ++ stored_stacks tasks' := List.flatMap_append

theorem trap_entry_inv (hI : s.Inv base type2) (hnew : s.New (.trap_entry c fresh))
    (htype : s.place c = .into_kernel → type2) (h : s.trap_entry base c fresh = some s') : s'.Inv base type2 := by
  have hs := hI.settled c
  obtain ⟨external, current_task, thread_stack, hplace, rfl | ⟨next, stack, hnext, htrap, hcur, rfl⟩⟩ | ⟨hplace, rfl⟩ :=
    trap_entry_cases h
  · exact hI.panic
  · rw [SettledAt, hplace] at hs
    obtain ⟨⟨-, hon⟩, old, hold, -⟩ := hs
    cases hsleep : s.IS_SLEEPING c with
    | true =>
      -- the stack of the wait goes into the handler
      obtain rfl : next = (thread_stack, s.kernel_stacks) := by simpa [hsleep] using hnext
      have hwait : s.kernel_stacks.Flow s.kernel_stacks [thread_stack] [] [thread_stack] [] := ⟨rfl, rfl, rfl⟩
      refine Inv.move [] 0 hI hnew (rotate_flow hwait htrap hcur)
        (.set_current (.set_trap (.refl _ c) _) _) (fun _ hne => Function.update_of_ne hne ..)
        (List.nil_sublist _) ?_ ?_
      · simp [place_saved, hplace, add_comm]
      · refine ⟨Or.inl ⟨stack, Function.update_self .., hon.trans htrap⟩, thread_stack, ?_, Function.update_self ..⟩
        exact Function.update_self ..
    | false =>
      obtain rfl : next = s.kernel_stacks.alloc_stack c fresh := by simpa [hsleep] using hnext
      obtain ⟨-, htraps, -⟩ := s.kernel_stacks.alloc_stack_unchanged c fresh
      obtain ⟨f, hf, halloc⟩ := s.kernel_stacks.alloc_stack_flow c fresh
      have hsub : f.Sublist [fresh] := by rcases hf with rfl | rfl <;> simp
      -- the context saved is put back with its stack, or its stack is none of the kernel's
      obtain ⟨outgoing, hout⟩ : ∃ outgoing : Multiset StackPtr,
          (stored_stacks (current_task.map fun t => put_back t thread_stack).toList : Multiset StackPtr) + outgoing =
            [thread_stack] := by
        rcases put_back_stacks current_task thread_stack with heq | heq
        · exact ⟨0, by rw [heq, add_zero]⟩
        · exact ⟨[thread_stack], by rw [heq]; exact zero_add _⟩
      refine Inv.move [] outgoing hI hnew (rotate_flow halloc htrap hcur)
        (.set_current (.set_trap (.alloc_stack (.refl _ c) c fresh) _) _) (fun _ hne => Function.update_of_ne hne ..)
        hsub ?_ ?_
      · simp only [move_stored, set_pre_stack_stored, set_sleeping_stored, stored_stacks_append, place_saved, hplace]
        rw [← hout]
        ext x
        simp only [Multiset.count_add, ← Multiset.coe_add, Multiset.coe_nil, Multiset.count_zero, Bool.false_eq_true,
          if_false]
        omega
      · refine ⟨Or.inl ⟨stack, Function.update_self .., ?_⟩, _, Function.update_self .., Function.update_self ..⟩
        rw [htraps] at htrap
        exact hon.trans htrap
  · rw [SettledAt, hplace] at hs
    exact hI.stay (by rw [hplace]; rfl) ⟨Or.inr ⟨htype hplace, hs.1⟩, hs.2⟩

theorem thread_yield_inv (hI : s.Inv base type2) (h : s.thread_yield c save = some s') : s'.Inv base type2 := by
  have hs := hI.settled c
  obtain ⟨t, is_coroutine, hplace, rfl | ⟨stack, h', htake, rfl⟩ | rfl⟩ := thread_yield_cases h
  · exact hI.panic
  · rw [SettledAt, hplace] at hs
    have hflow := StackHandler.take_current_stack_flow htake
    obtain ⟨-, rfl⟩ := StackHandler.take_current_stack_eq htake
    refine Inv.move [] 0 hI (s.new_nil c) hflow (.set_current (.refl _ c) _) (fun _ _ => rfl) (List.nil_sublist _) ?_ ?_
    · simp [place_saved, hplace, add_comm, ← Multiset.singleton_add, ← Multiset.cons_coe]
    · exact ⟨⟨Function.update_self .., rfl⟩, hs.2⟩
  · rw [SettledAt, hplace] at hs
    exact hI.stay (by rw [hplace]; rfl) hs

theorem thread_entry_inv (hI : s.Inv base type2) (hnew : s.New (.thread_entry c exited fresh))
    (h : s.thread_entry c exited fresh = some s') : s'.Inv base type2 := by
  have hs := hI.settled c
  obtain ⟨t, is_coroutine, thread_stack, hplace, hcases⟩ := thread_entry_cases h
  rw [SettledAt, hplace] at hs
  -- the context saved is put back with its stack, or its stack is lost
  obtain ⟨outgoing, hout⟩ : ∃ outgoing : Multiset StackPtr,
      (stored_stacks (if exited then [] else [(t, thread_stack)]) : Multiset StackPtr) + outgoing =
        thread_stack.toList := by
    cases exited with
    | true => exact ⟨thread_stack.toList, zero_add _⟩
    | false => exact ⟨0, by simp [stored_stacks]⟩
  have hnamed : Named base (s.kernel_stacks.trap_stack c) (s.pre_stack c) := by
    cases thread_stack with
    | none => exact hs.2
    | some stack => exact hs.2
  obtain rfl | ⟨new_sp, h', hget, rfl⟩ | ⟨hco, rfl⟩ := hcases
  · exact hI.panic
  · obtain ⟨f, hf, hflow⟩ := StackHandler.get_empty_stack_flow hget
    obtain ⟨hcur, htrap, hsame⟩ := StackHandler.get_empty_stack_after hget
    have hsub : f.Sublist [fresh] := by rcases hf with rfl | rfl <;> simp
    refine Inv.move [] outgoing hI hnew hflow hsame (fun _ _ => rfl) hsub ?_ ⟨Or.inl ⟨new_sp, hcur, rfl⟩, ?_⟩
    · simp only [move_stored, stored_stacks_append, place_saved, hplace]
      rw [← hout]
      ext x
      simp only [Multiset.count_add, ← Multiset.coe_add, Multiset.coe_nil, Multiset.count_zero]
      omega
    · rw [move_kernel_stacks, htrap]
      exact hnamed
  · cases thread_stack with
    | some stack => exact absurd (hs.1.2.symm.trans hco) Bool.false_ne_true
    | none =>
      refine hI.stay ?_ ⟨Or.inl hs.1, hnamed⟩
      rw [move_stored, stored_stacks_coroutine, hplace]
      rfl

theorem coroutine_return_inv (hI : s.Inv base type2) (h : s.coroutine_return c exited = some s') :
    s'.Inv base type2 := by
  have hs := hI.settled c
  obtain ⟨t, is_coroutine, hplace, rfl⟩ := coroutine_return_cases h
  rw [SettledAt, hplace] at hs
  refine hI.stay ?_ ⟨Or.inl hs.1, hs.2⟩
  rw [move_stored, stored_stacks_coroutine, hplace]
  rfl

/-- A task taken out of the queues takes its stack along. -/
theorem Inv.erase {e : StackTask × Option StackPtr} (hI : s.Inv base type2) (he : e ∈ s.stored) :
    Inv base type2 { s with stored := s.stored.erase e } := by
  refine ⟨Multiset.nodup_of_le ?_ hI.nodup, hI.settled⟩
  refine add_le_add_right (add_le_add_left ?_ _) _
  rw [stored_stacks_erase he]
  exact Multiset.le_add_left _ _

/-- The stack of a saved context is in no slot of the handler. -/
theorem Inv.stored_notMem_held {stack : StackPtr} (hI : s.Inv base type2) (he : (t, some stack) ∈ s.stored) :
    stack ∉ s.kernel_stacks.held := by
  have hmem : stack ∈ s.saved :=
    Multiset.mem_add.mpr (Or.inl (List.mem_flatMap.mpr ⟨(t, some stack), he, List.mem_singleton_self stack⟩))
  exact fun hheld => Multiset.disjoint_left.mp (Multiset.nodup_add.mp hI.nodup).2.2 hheld hmem

theorem run_task_inv {thread_stack : Option StackPtr} (hI : s.Inv base type2)
    (hnew : s.New (.run_task c t thread_stack fresh))
    (h : s.run_task pool_size c t thread_stack fresh = some s') : s'.Inv base type2 := by
  have hs := hI.settled c
  obtain ⟨⟨hmem, -, hplace⟩, hcases⟩ := run_task_cases h
  rw [SettledAt, hplace] at hs
  obtain rfl | ⟨rfl, new_sp, h', hget, rfl⟩ | ⟨stack, h', rfl, hget, rfl⟩ := hcases
  · exact (hI.erase hmem).panic
  · obtain ⟨f, hf, hflow⟩ := StackHandler.get_empty_stack_flow hget
    obtain ⟨hcur, htrap, hsame⟩ := StackHandler.get_empty_stack_after hget
    have hsub : f.Sublist [fresh] := by rcases hf with rfl | rfl <;> simp
    refine Inv.move (s := s) [] 0 hI hnew hflow hsame (fun _ _ => rfl) hsub ?_ ⟨⟨new_sp, hcur, rfl⟩, ?_⟩
    · rw [stored_stacks_erase hmem, hplace]
      simp [place_saved]
    · rw [htrap]
      exact hs.2
  · obtain ⟨d, hflow⟩ := StackHandler.get_thread_stack_flow hI.held_nodup hget
    obtain ⟨hcur, htrap, hsame⟩ := StackHandler.get_thread_stack_after hget
    refine Inv.move (s := s) [] 0 hI (s.new_nil c) hflow hsame (fun _ _ => rfl) (List.nil_sublist _) ?_
      ⟨⟨stack, hcur, rfl⟩, ?_⟩
    · rw [stored_stacks_erase hmem, hplace]
      simp [place_saved]
    · rw [htrap]
      exact hs.2

theorem krun_utask_inv (hI : s.Inv base type2) (h : s.krun_utask pool_size c t = some s') : s'.Inv base type2 := by
  have hs := hI.settled c
  obtain ⟨⟨hmem, -, hplace⟩, h', hget, rfl⟩ := krun_utask_cases h
  rw [SettledAt, hplace] at hs
  obtain ⟨d, hflow⟩ := StackHandler.get_thread_stack_flow hI.held_nodup hget
  obtain ⟨hcur, htrap, hsame⟩ := StackHandler.get_thread_stack_after hget
  refine Inv.move (s := s) [] 0 hI (s.new_nil c) hflow hsame (fun _ _ => rfl) (List.nil_sublist _) ?_ ⟨⟨hcur, rfl⟩, ?_⟩
  · rw [stored_stacks_erase hmem, hplace]
    simp [place_saved]
  · rw [htrap]
    exact hs.2

theorem wait_inv {found : Bool} (hI : s.Inv base type2) (h : s.wait c found = some s') : s'.Inv base type2 := by
  have hs := hI.settled c
  obtain ⟨hplace, rfl⟩ := wait_cases h
  rw [SettledAt, hplace] at hs
  cases found with
  | true => exact hI.stay (by rw [hplace]; rfl) hs
  | false => exact hI.stay (by rw [hplace]; rfl) hs

theorem wait_return_inv (hI : s.Inv base type2) (h : s.wait_return c = some s') : s'.Inv base type2 := by
  have hs := hI.settled c
  obtain ⟨hplace, rfl⟩ := wait_return_cases h
  rw [SettledAt, hplace] at hs
  exact hI.stay (by rw [hplace]; rfl) hs

theorem user_yield_inv (hI : s.Inv base type2) (h : s.user_yield c exited = some s') : s'.Inv base type2 := by
  have hs := hI.settled c
  obtain ⟨t, hplace, rfl⟩ := user_yield_cases h
  rw [SettledAt, hplace] at hs
  refine hI.stay ?_ ⟨⟨hs.1.1, rfl⟩, hs.2⟩
  rw [move_stored, stored_stacks_coroutine, hplace]
  rfl

theorem user_run_task_inv (hI : s.Inv base type2) (h : s.user_run_task c t = some s') : s'.Inv base type2 := by
  have hs := hI.settled c
  obtain ⟨⟨hmem, -, hplace⟩, rfl⟩ := user_run_task_cases h
  rw [SettledAt, hplace] at hs
  refine Inv.stay (s := s) hI ?_ ⟨⟨hs.1.1, rfl⟩, hs.2⟩
  rw [stored_stacks_erase hmem, hplace]
  simp [place_saved]

theorem spawn_inv {thread_stack : Option StackPtr} (hI : s.Inv base type2) (hnew : s.New (.spawn t thread_stack)) :
    (s.spawn t thread_stack).Inv base type2 := by
  have htotal : (s.spawn t thread_stack).total + 0 = s.total + thread_stack.toList := by
    simp only [total, saved, spawn, store, stored_stacks_append, ← Multiset.coe_add]
    rw [show stored_stacks [(t, thread_stack)] = thread_stack.toList from List.flatMap_singleton ..]
    ac_rfl
  exact ⟨Ledger.nodup_of_balance htotal hI.nodup (Multiset.coe_nodup.mpr hnew.1) fun x hx => hnew.2 x hx, hI.settled⟩

end

/-! ### Runs -/

/-- The CPU of a trap entry. -/
def entered : Act cfg → Option (Cpu cfg)
  | .trap_entry c _ => some c
  | _ => none

/-- A trap entry of type 2. -/
def Type2 (s : StackLoop cfg) (a : Act cfg) : Prop := ∃ c ∈ entered a, s.place c = .into_kernel

/-- Every step keeps the invariant. -/
theorem step_inv (hI : s.Inv base type2) (a : Act cfg) (htype : s.Type2 a → type2)
    (h : s.step base pool_size a = some s') : s'.Inv base type2 := by
  simp only [step] at h
  split at h
  · rename_i hnew
    cases a with
    | kernel_init c init_task init_stack fresh => exact kernel_init_inv hI hnew h
    | spawn t thread_stack =>
      obtain rfl := Option.some.inj h
      exact spawn_inv hI hnew
    | interrupt c external user_stack => exact interrupt_inv hI hnew h
    | into_kernel c => exact into_kernel_inv hI h
    | trap_entry c fresh => exact trap_entry_inv hI hnew (fun hplace => htype ⟨c, rfl, hplace⟩) h
    | thread_yield c save => exact thread_yield_inv hI h
    | thread_entry c exited fresh => exact thread_entry_inv hI hnew h
    | coroutine_return c exited => exact coroutine_return_inv hI h
    | run_task c t thread_stack fresh => exact run_task_inv hI hnew h
    | krun_utask c t => exact krun_utask_inv hI h
    | wait c => exact wait_inv hI h
    | wait_found c => exact wait_inv hI h
    | wait_return c => exact wait_return_inv hI h
    | user_yield c exited => exact user_yield_inv hI h
    | user_run_task c t => exact user_run_task_inv hI h
  · cases h

theorem boot_inv (base : StackPtr → ℕ) (type2 : Prop) : (boot cfg).Inv base type2 := by
  refine ⟨?_, fun c => ⟨rfl, rfl⟩⟩
  have hzero : (boot cfg).total = 0 := by
    simp [total, saved, boot, StackHandler.held, StackHandler.slots, StackHandler.default, stored_stacks, place_saved]
  rw [hzero]
  exact Multiset.nodup_zero

end StackLoop

end Vsched2
