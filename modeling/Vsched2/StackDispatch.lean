import Vsched2.StackHandler
import Vsched2.Lib.Run

/-! Where a dispatch records the stack and where `take_current_stack` looks for it.

    `KERNEL_STACKS` is shared by all instances of the vDSO, `STACK_HANDLER` is private to each. A dispatch
    chooses between them by the privilege it runs at, `take_current_stack` by that of the current task, and
    `STACK_HANDLER` is then the one of the instance the call is made from.

    `StackLoop` has the stacks of the kernel only, and its OS takes a stack just when it saves a context.
    Here the user processes have theirs and any instance may call `take_current_stack`, so this is a slice
    of its own: what the dispatch functions do to the stacks, called in any order. -/

namespace Vsched2

/-- An instance of the vDSO: the kernel's, or the one mapped in a user address space. -/
inductive Instance where
  | kernel | user (space : ℕ)
  deriving DecidableEq, Repr

/-- The variables that hold stack handlers. -/
inductive HandlerVar where
  | KERNEL_STACKS | STACK_HANDLER (i : Instance)
  deriving DecidableEq, Repr

/-- A task, with the address space of a user task. -/
structure DispatchTask where
  is_kernel : Bool
  space : ℕ
  is_coroutine : Bool
  thread_stack : StackPtr
  deriving DecidableEq, Repr

/-- A stack and the handler of its address space. Equal pointers in two address spaces are two stacks. -/
abbrev SpaceStack := HandlerVar × StackPtr

/-- The handler of the address space the stack of a thread is in. -/
def DispatchTask.home (t : DispatchTask) : HandlerVar :=
  if t.is_kernel then .KERNEL_STACKS else .STACK_HANDLER (.user t.space)

/-- The handler `take_current_stack` chooses in an instance, by the privilege of the task. -/
def DispatchTask.handler (t : DispatchTask) (i : Instance) : HandlerVar :=
  if t.is_kernel then .KERNEL_STACKS else .STACK_HANDLER i

/-- A dispatch, kept for the statements: the task, the stack it was dispatched on, the handler that
    recorded it if one did, and the stacks in use on the CPU before. -/
structure Dispatched where
  task : DispatchTask
  krun_utask : Bool
  recorded : Option HandlerVar
  stack : SpaceStack
  before : HandlerVar → Option StackPtr

/-- The handler that `take_current_stack` chooses is the one the dispatch recorded the stack in; for a
    thread it may also be one that held the stack of the thread before, and was not asked to drop it. -/
def Dispatched.Kept (d : Dispatched) (i : Instance) : Prop :=
  if d.task.is_coroutine then d.recorded = some (d.task.handler i)
  else d.task.handler i = d.task.home ∧ (d.recorded = some d.task.home ∨
    ¬ (d.krun_utask ∧ d.task.home = .KERNEL_STACKS) ∧ d.before d.task.home = some d.task.thread_stack)

/-- The stacks in use on the CPU right after the dispatch. -/
def Dispatched.after (d : Dispatched) (p : HandlerVar) : Option StackPtr :=
  if d.recorded = some p then some d.stack.2
  else if d.krun_utask ∧ p = .KERNEL_STACKS then none else d.before p

/-- The stack of a coroutine is chosen by the handler that records it, that of a thread is its own. -/
def Dispatched.Made (d : Dispatched) : Prop :=
  if d.task.is_coroutine then d.recorded = some d.stack.1 else d.stack = (d.task.home, d.task.thread_stack)

theorem Dispatched.kept_iff {d : Dispatched} (hd : d.Made) (i : Instance) :
    (d.task.handler i = d.stack.1 ∧ d.after (d.task.handler i) = some d.stack.2) ↔ d.Kept i := by
  cases hco : d.task.is_coroutine with
  | true =>
    rw [Made, if_pos hco] at hd
    rw [Kept, if_pos hco, hd, Option.some.injEq]
    constructor
    · rintro ⟨heq, -⟩
      exact heq.symm
    · intro heq
      exact ⟨heq.symm, if_pos (by rw [hd, heq])⟩
  | false =>
    rw [Made, if_neg (by simp [hco])] at hd
    rw [Kept, if_neg (by simp [hco]), hd]
    refine and_congr_right fun heq => ?_
    rw [heq, after, hd]
    by_cases hrec : d.recorded = some d.task.home
    · simp [hrec]
    · by_cases hkrun : d.krun_utask ∧ d.task.home = .KERNEL_STACKS
      · simp [hkrun]
      · simp [hrec, hkrun]

/-- The state; `running` is the dispatch of the task a CPU runs, until its stack is taken or the CPU
    enters the scheduler. The OS saves the context of a task before `raw_trap_entry` and
    `raw_thread_entry`, so there is no later call of `take_current_stack` for it. -/
structure StackDispatch (cfg : Config) where
  handlers : HandlerVar → Option (StackHandler cfg)
  CURRENT_TASK : Cpu cfg → Option DispatchTask
  running : Cpu cfg → Option Dispatched
  panicked : Cpu cfg → Bool

variable {cfg : Config}

namespace StackDispatch

/-- The calls a CPU makes. `i` is the instance the call is made from, `space` the address space that
    `get_user_data` resolves to, and `fresh` what `Stack::alloc` returns if it is called. -/
inductive Act (cfg : Config) where
  | kernel_init (c : Cpu cfg) (init_task : DispatchTask) (init_stack fresh : StackPtr)
  | process_init (c : Cpu cfg) (space : ℕ)
  | set_current_task (c : Cpu cfg) (t : DispatchTask)
  | run_task (c : Cpu cfg) (i : Instance) (privilege : ℕ) (fresh : StackPtr)
  | krun_utask (c : Cpu cfg) (space : ℕ) (fresh : StackPtr)
  | take_current_stack (c : Cpu cfg) (i : Instance)
  | trap_entry (c : Cpu cfg) (waiting : Bool) (fresh : StackPtr)
  | thread_entry (c : Cpu cfg) (i : Instance) (in_kernel : Bool) (fresh : StackPtr)
  | utask_schedule (c : Cpu cfg) (i : Instance)
  deriving DecidableEq

def Act.cpu : Act cfg → Cpu cfg
  | .kernel_init c _ _ _ | .process_init c _ | .set_current_task c _ | .run_task c _ _ _ | .krun_utask c _ _
  | .take_current_stack c _ | .trap_entry c _ _ | .thread_entry c _ _ _ | .utask_schedule c _ => c

variable (pool_size : ℕ) (s : StackDispatch cfg) (c : Cpu cfg)

/-- The stack in use on a CPU by one of the handlers. -/
def slot (p : HandlerVar) : Option StackPtr := (s.handlers p).bind fun h => h.current_stack c

def set_handler (p : HandlerVar) (h : StackHandler cfg) : StackDispatch cfg :=
  { s with handlers := Function.update s.handlers p (some h) }

def set_running (d : Option Dispatched) : StackDispatch cfg := { s with running := Function.update s.running c d }

def set_current_task (t : DispatchTask) : StackDispatch cfg :=
  { s with CURRENT_TASK := Function.update s.CURRENT_TASK c (some t) }

def panic : StackDispatch cfg := { s.set_running c none with panicked := Function.update s.panicked c true }

/-! ### The functions, `none` for a panic -/

/-- `kernel_init_main` and `kernel_init_secondary`. -/
def kernel_init (init_task : DispatchTask) (init_stack fresh : StackPtr) : Option (StackDispatch cfg) := do
  let kernel_stacks ← s.handlers .KERNEL_STACKS
  let r ← (kernel_stacks.set_current c (some init_stack)).alloc_trap_stack c fresh
  some (((s.set_current_task c init_task).set_handler .KERNEL_STACKS r.2).set_running c none)

/-- `process_init`: the private data of the user instance is initialised, once. -/
def process_init (space : ℕ) : Option (StackDispatch cfg) :=
  match s.handlers (.STACK_HANDLER (.user space)) with
  | none => some (s.set_handler (.STACK_HANDLER (.user space)) .default)
  | some _ => none

/-- The stack part of `run_task`. -/
def run_task (i : Instance) (privilege : ℕ) (fresh : StackPtr) : Option (StackDispatch cfg) := do
  let t ← s.CURRENT_TASK c
  let p := if privilege ≠ 0 then .STACK_HANDLER i else .KERNEL_STACKS
  let stack_handler ← s.handlers p
  if t.is_coroutine then
    let r ← stack_handler.get_empty_stack c fresh
    some ((s.set_handler p r.2).set_running c (some ⟨t, false, some p, (p, r.1), s.slot c⟩))
  else
    let h ← stack_handler.get_thread_stack pool_size (some t.thread_stack) c
    some ((s.set_handler p h).set_running c (some ⟨t, false, some p, (t.home, t.thread_stack), s.slot c⟩))

/-- The stack part of `krun_utask`. The handler of the process is used for a coroutine only. -/
def krun_utask (space : ℕ) (fresh : StackPtr) : Option (StackDispatch cfg) := do
  let t ← s.CURRENT_TASK c
  if t.is_coroutine then
    let p := .STACK_HANDLER (.user space)
    let stack_handler ← s.handlers p
    let r ← stack_handler.get_empty_stack c fresh
    let kernel_stacks ← s.handlers .KERNEL_STACKS
    let h ← kernel_stacks.get_thread_stack pool_size none c
    some (((s.set_handler p r.2).set_handler .KERNEL_STACKS h).set_running c
      (some ⟨t, true, some p, (p, r.1), s.slot c⟩))
  else
    let kernel_stacks ← s.handlers .KERNEL_STACKS
    let h ← kernel_stacks.get_thread_stack pool_size none c
    some ((s.set_handler .KERNEL_STACKS h).set_running c (some ⟨t, true, none, (t.home, t.thread_stack), s.slot c⟩))

/-- `take_current_stack` with the stack it returns. -/
def take_current_stack (i : Instance) : Option (SpaceStack × StackDispatch cfg) := do
  let t ← s.CURRENT_TASK c
  let h ← s.handlers (t.handler i)
  let r ← h.take_current_stack c
  some ((t.handler i, r.1), (s.set_handler (t.handler i) r.2).set_running c none)

/-- The stack part of `trap_entry` with privilege 0, types 0 and 1; `waiting` is `IS_SLEEPING`. -/
def trap_entry (waiting : Bool) (fresh : StackPtr) : Option (StackDispatch cfg) := do
  let t ← s.CURRENT_TASK c
  let kernel_stacks ← s.handlers .KERNEL_STACKS
  let next := if waiting then (t.thread_stack, kernel_stacks) else kernel_stacks.alloc_stack c fresh
  let current_stack ← (next.2.set_trap_stack next.1 c).1
  let r ← (next.2.set_trap_stack next.1 c).2.set_current_stack current_stack c
  if r.1 = none then some ((s.set_handler .KERNEL_STACKS r.2).set_running c none) else none

/-- The stack part of `thread_entry`. -/
def thread_entry (i : Instance) (in_kernel : Bool) (fresh : StackPtr) : Option (StackDispatch cfg) := do
  let t ← s.CURRENT_TASK c
  if 1 < cfg.cpu_num ∨ t.is_coroutine = false then
    let p := if in_kernel = false then .STACK_HANDLER i else .KERNEL_STACKS
    let stack_handler ← s.handlers p
    let r ← stack_handler.get_empty_stack c fresh
    some ((s.set_handler p r.2).set_running c none)
  else some (s.set_running c none)

/-- The stack part of `utask_schedule` on the way into the kernel. -/
def utask_schedule (i : Instance) : Option (StackDispatch cfg) := do
  let stack_handler ← s.handlers (.STACK_HANDLER i)
  let h ← stack_handler.get_thread_stack pool_size none c
  some ((s.set_handler (.STACK_HANDLER i) h).set_running c none)

def act : Act cfg → Option (StackDispatch cfg)
  | .kernel_init c init_task init_stack fresh => s.kernel_init c init_task init_stack fresh
  | .process_init _ space => s.process_init space
  | .set_current_task c t => some ((s.set_current_task c t).set_running c none)
  | .run_task c i privilege fresh => s.run_task pool_size c i privilege fresh
  | .krun_utask c space fresh => s.krun_utask pool_size c space fresh
  | .take_current_stack c i => (s.take_current_stack c i).map Prod.snd
  | .trap_entry c waiting fresh => s.trap_entry c waiting fresh
  | .thread_entry c i in_kernel fresh => s.thread_entry c i in_kernel fresh
  | .utask_schedule c i => s.utask_schedule pool_size c i

/-- A CPU that has panicked makes no more calls. -/
def step (a : Act cfg) : Option (StackDispatch cfg) :=
  if s.panicked a.cpu then none else some ((s.act pool_size a).getD (s.panic a.cpu))

def boot (cfg : Config) : StackDispatch cfg where
  handlers p := if p = .KERNEL_STACKS then some .default else none
  CURRENT_TASK _ := none
  running _ := none
  panicked _ := false

/-! ### The round trip -/

/-- The calls of `take_current_stack`. -/
def taken : Act cfg → Option (Cpu cfg × Instance)
  | .take_current_stack c i => some (c, i)
  | _ => none

/-- A call of `take_current_stack` for a running task returns the stack it was dispatched on. -/
def TakesDispatched (s : StackDispatch cfg) (a : Act cfg) : Prop :=
  ∀ q ∈ taken a, ∀ d ∈ s.running q.1, (s.take_current_stack q.1 q.2).map Prod.fst = some d.stack

/-- A call of `take_current_stack` for a running task meets the condition. -/
def Kept (s : StackDispatch cfg) (a : Act cfg) : Prop := ∀ q ∈ taken a, ∀ d ∈ s.running q.1, d.Kept q.2

instance (s : StackDispatch cfg) (a : Act cfg) : Decidable (TakesDispatched s a) :=
  inferInstanceAs (Decidable (∀ q ∈ taken a, ∀ d ∈ s.running q.1,
    (s.take_current_stack q.1 q.2).map Prod.fst = some d.stack))

/-! ### The invariant -/

variable {pool_size s c} {s' : StackDispatch cfg} {p : HandlerVar} {h h' : StackHandler cfg}

/-- The record of a dispatch is still right. -/
structure Holds (s : StackDispatch cfg) (c : Cpu cfg) (d : Dispatched) : Prop where
  current : s.CURRENT_TASK c = some d.task
  made : d.Made
  slot : s.slot c = d.after

def Inv (s : StackDispatch cfg) : Prop := ∀ c d, s.running c = some d → s.Holds c d

/-- What a call of `take_current_stack` returns is decided by the slot it reads. -/
theorem take_current_stack_eq {t : DispatchTask} (ht : s.CURRENT_TASK c = some t) (i : Instance) :
    (s.take_current_stack c i).map Prod.fst = (s.slot c (t.handler i)).map fun stack => (t.handler i, stack) := by
  simp only [take_current_stack, slot, ht, StackHandler.take_current_stack, Option.bind_eq_bind, Option.bind_some]
  cases s.handlers (t.handler i) with
  | none => rfl
  | some h =>
    rw [Option.bind_some, Option.bind_some]
    cases h.current_stack c <;> rfl

theorem takes_dispatched_iff (hI : s.Inv) (a : Act cfg) : TakesDispatched s a ↔ Kept s a := by
  refine forall_congr' fun q => forall_congr' fun _ => forall_congr' fun d => forall_congr' fun hd => ?_
  obtain ⟨hcurrent, hmade, hslot⟩ := hI q.1 d hd
  rw [take_current_stack_eq hcurrent, hslot, ← Dispatched.kept_iff hmade q.2, Option.map_eq_some_iff]
  constructor
  · rintro ⟨stack, hafter, heq⟩
    rw [← heq]
    exact ⟨rfl, hafter⟩
  · rintro ⟨heq, hafter⟩
    exact ⟨d.stack.2, hafter, Prod.ext heq rfl⟩

/-- The other CPUs find everything as it was. -/
def SameElsewhere (s s' : StackDispatch cfg) (c : Cpu cfg) : Prop :=
  ∀ c', c' ≠ c → s'.running c' = s.running c' ∧ s'.CURRENT_TASK c' = s.CURRENT_TASK c' ∧ s'.slot c' = s.slot c'

theorem SameElsewhere.refl (s : StackDispatch cfg) (c : Cpu cfg) : SameElsewhere s s c := fun _ _ => ⟨rfl, rfl, rfl⟩

theorem SameElsewhere.set_running (hs : SameElsewhere s s' c) (d : Option Dispatched) :
    SameElsewhere s (s'.set_running c d) c :=
  fun c' hne => ⟨(Function.update_of_ne hne ..).trans (hs c' hne).1, (hs c' hne).2⟩

theorem SameElsewhere.set_current_task (hs : SameElsewhere s s' c) (t : DispatchTask) :
    SameElsewhere s (s'.set_current_task c t) c :=
  fun c' hne => ⟨(hs c' hne).1, (Function.update_of_ne hne ..).trans (hs c' hne).2.1, (hs c' hne).2.2⟩

theorem slot_set_handler (s : StackDispatch cfg) (p : HandlerVar) (h : StackHandler cfg) (c : Cpu cfg)
    (q : HandlerVar) : (s.set_handler p h).slot c q = if q = p then h.current_stack c else s.slot c q := by
  by_cases hq : q = p
  · subst hq
    simp [slot, set_handler]
  · simp [slot, set_handler, hq]

theorem handlers_set_handler_of_ne {q : HandlerVar} (hne : q ≠ p) : (s.set_handler p h).handlers q = s.handlers q :=
  Function.update_of_ne hne ..

theorem SameElsewhere.set_handler (hs : SameElsewhere s s' c) (hp : s'.handlers p = some h)
    (hh : h.SameElsewhere h' c) : SameElsewhere s (s'.set_handler p h') c := by
  intro c' hne
  refine ⟨(hs c' hne).1, (hs c' hne).2.1, ?_⟩
  rw [← (hs c' hne).2.2]
  funext q
  rw [slot_set_handler]
  split
  · rename_i hq
    rw [(hh c' hne).1, hq, slot, hp]
    rfl
  · rfl

/-- Without a running task there is no record. -/
theorem holds_none (t : StackDispatch cfg) (c : Cpu cfg) (d : Dispatched)
    (hd : (t.set_running c none).running c = some d) : (t.set_running c none).Holds c d := by
  simp [StackDispatch.set_running] at hd

/-- The record of a dispatch that just took place. -/
theorem holds_some {t : StackDispatch cfg} {e : Dispatched} (hcurrent : t.CURRENT_TASK c = some e.task) (hmade : e.Made)
    (hslot : ∀ q, t.slot c q = e.after q) (d : Dispatched) (hd : (t.set_running c (some e)).running c = some d) :
    (t.set_running c (some e)).Holds c d := by
  obtain rfl : e = d := by simpa [StackDispatch.set_running] using hd
  exact ⟨hcurrent, hmade, funext hslot⟩

/-- A private handler that is initialised had no stack in use, and has none. -/
theorem slot_process_init {space : ℕ} (hnone : s.handlers (.STACK_HANDLER (.user space)) = none) (c : Cpu cfg) :
    (s.set_handler (.STACK_HANDLER (.user space)) .default).slot c = s.slot c := by
  funext q
  rw [slot_set_handler]
  split
  · rename_i hq
    rw [hq, slot, hnone]
    rfl
  · rfl

/-! ### The calls -/

/-- What a call leaves: the CPU has changed only what belongs to it, and has either no running task or a right
    record of its dispatch. -/
structure Leaves (s s' : StackDispatch cfg) (c : Cpu cfg) : Prop where
  elsewhere : SameElsewhere s s' c
  holds : ∀ d, s'.running c = some d → s'.Holds c d

/-- A call that ends in the scheduler. -/
theorem SameElsewhere.leaves (h : SameElsewhere s s' c) : Leaves s (s'.set_running c none) c :=
  ⟨h.set_running none, holds_none s' c⟩

theorem kernel_init_leaves {init_task : DispatchTask} {init_stack fresh : StackPtr}
    (h : s.kernel_init c init_task init_stack fresh = some s') : Leaves s s' c := by
  simp only [kernel_init, Option.bind_eq_bind, Option.bind_eq_some_iff] at h
  obtain ⟨kernel_stacks, hk, r, hr, heq⟩ := h
  obtain rfl := Option.some.inj heq
  obtain ⟨-, -, hr⟩ := StackHandler.alloc_trap_stack_eq hr
  refine (SameElsewhere.set_handler (.set_current_task (.refl s c) _) hk ?_).leaves
  rw [hr]
  exact .set_trap (.alloc_stack (.set_current (.refl _ c) _) c fresh) _

theorem process_init_leaves (hI : s.Inv) {space : ℕ} (h : s.process_init space = some s') : Leaves s s' c := by
  simp only [process_init] at h
  split at h
  · rename_i hnone
    obtain rfl := Option.some.inj h
    refine ⟨fun c' _ => ⟨rfl, rfl, slot_process_init hnone c'⟩, fun d hd => ?_⟩
    obtain ⟨hcurrent, hmade, hslot⟩ := hI _ d hd
    exact ⟨hcurrent, hmade, (slot_process_init hnone c).trans hslot⟩
  · cases h

/-- The handler that `run_task` chooses records the stack, which is a new one for a coroutine only. -/
theorem run_task_leaves {i : Instance} {privilege : ℕ} {fresh : StackPtr}
    (h : s.run_task pool_size c i privilege fresh = some s') : Leaves s s' c := by
  simp only [run_task, Option.bind_eq_bind, Option.bind_eq_some_iff] at h
  obtain ⟨t, ht, h₀, hp, h⟩ := h
  split at h
  · rename_i hco
    obtain ⟨r, hr, heq⟩ := Option.bind_eq_some_iff.mp h
    obtain rfl := Option.some.inj heq
    obtain ⟨hcur, -, hsame⟩ := StackHandler.get_empty_stack_after hr
    refine ⟨.set_running (.set_handler (.refl s c) hp hsame) _, ?_⟩
    refine holds_some ht (by simp [Dispatched.Made, hco]) fun q => ?_
    rw [slot_set_handler, hcur]
    simp [Dispatched.after, eq_comm]
  · rename_i hco
    obtain ⟨h', hr, heq⟩ := Option.bind_eq_some_iff.mp h
    obtain rfl := Option.some.inj heq
    obtain ⟨hcur, -, hsame⟩ := StackHandler.get_thread_stack_after hr
    refine ⟨.set_running (.set_handler (.refl s c) hp hsame) _, ?_⟩
    refine holds_some ht (by simp [Dispatched.Made, hco]) fun q => ?_
    rw [slot_set_handler, hcur]
    simp [Dispatched.after, eq_comm]

/-- `krun_utask` drops the stack in `KERNEL_STACKS`, and records that of a coroutine with the process. -/
theorem krun_utask_leaves {space : ℕ} {fresh : StackPtr} (h : s.krun_utask pool_size c space fresh = some s') :
    Leaves s s' c := by
  simp only [krun_utask, Option.bind_eq_bind, Option.bind_eq_some_iff] at h
  obtain ⟨t, ht, h⟩ := h
  split at h
  · rename_i hco
    simp only [Option.bind_eq_some_iff] at h
    obtain ⟨h₀, hp, r, hr, k, hk, k', hk', heq⟩ := h
    obtain rfl := Option.some.inj heq
    have hk : (s.set_handler (.STACK_HANDLER (.user space)) r.2).handlers .KERNEL_STACKS = some k :=
      (handlers_set_handler_of_ne (by simp)).trans hk
    obtain ⟨hcur, -, hsame⟩ := StackHandler.get_empty_stack_after hr
    obtain ⟨hcur', -, hsame'⟩ := StackHandler.get_thread_stack_after hk'
    refine ⟨.set_running (.set_handler (.set_handler (.refl s c) hp hsame) hk hsame') _, ?_⟩
    refine holds_some ht (by simp [Dispatched.Made, hco]) fun q => ?_
    rw [slot_set_handler, slot_set_handler, hcur, hcur']
    by_cases hq : q = .KERNEL_STACKS
    · simp [Dispatched.after, hq]
    · simp [Dispatched.after, hq, eq_comm]
  · rename_i hco
    simp only [Option.bind_eq_some_iff] at h
    obtain ⟨k, hk, k', hk', heq⟩ := h
    obtain rfl := Option.some.inj heq
    obtain ⟨hcur, -, hsame⟩ := StackHandler.get_thread_stack_after hk'
    refine ⟨.set_running (.set_handler (.refl s c) hk hsame) _, ?_⟩
    refine holds_some ht (by simp [Dispatched.Made, hco]) fun q => ?_
    rw [slot_set_handler, hcur]
    simp [Dispatched.after]

theorem take_current_stack_leaves {i : Instance} {stack : SpaceStack}
    (h : s.take_current_stack c i = some (stack, s')) : Leaves s s' c := by
  simp only [take_current_stack, Option.bind_eq_bind, Option.bind_eq_some_iff] at h
  obtain ⟨t, -, h₀, hp, r, hr, heq⟩ := h
  obtain ⟨-, rfl⟩ := Prod.mk.inj (Option.some.inj heq)
  obtain ⟨-, hr⟩ := StackHandler.take_current_stack_eq hr
  refine (SameElsewhere.set_handler (.refl s c) hp ?_).leaves
  rw [hr]
  exact .set_current (.refl h₀ c) _

theorem trap_entry_leaves {waiting : Bool} {fresh : StackPtr} (h : s.trap_entry c waiting fresh = some s') :
    Leaves s s' c := by
  simp only [trap_entry, Option.bind_eq_bind, Option.bind_eq_some_iff] at h
  obtain ⟨t, -, k, hk, current_stack, -, r, hr, h⟩ := h
  split at h
  · obtain rfl := Option.some.inj h
    obtain ⟨-, hr⟩ := StackHandler.set_current_stack_eq hr
    refine (SameElsewhere.set_handler (.refl s c) hk ?_).leaves
    rw [hr]
    refine .set_current (.set_trap ?_ _) _
    split
    · exact .refl k c
    · exact .alloc_stack (.refl k c) c fresh
  · cases h

theorem thread_entry_leaves {i : Instance} {in_kernel : Bool} {fresh : StackPtr}
    (h : s.thread_entry c i in_kernel fresh = some s') : Leaves s s' c := by
  simp only [thread_entry, Option.bind_eq_bind, Option.bind_eq_some_iff] at h
  obtain ⟨t, -, h⟩ := h
  split at h
  · simp only [Option.bind_eq_some_iff] at h
    obtain ⟨h₀, hp, r, hr, heq⟩ := h
    obtain rfl := Option.some.inj heq
    obtain ⟨-, -, hsame⟩ := StackHandler.get_empty_stack_after hr
    exact (SameElsewhere.set_handler (.refl s c) hp hsame).leaves
  · obtain rfl := Option.some.inj h
    exact (SameElsewhere.refl s c).leaves

theorem utask_schedule_leaves {i : Instance} (h : s.utask_schedule pool_size c i = some s') : Leaves s s' c := by
  simp only [utask_schedule, Option.bind_eq_bind, Option.bind_eq_some_iff] at h
  obtain ⟨h₀, hp, r, hr, heq⟩ := h
  obtain rfl := Option.some.inj heq
  obtain ⟨-, -, hsame⟩ := StackHandler.get_thread_stack_after hr
  exact (SameElsewhere.set_handler (.refl s c) hp hsame).leaves

theorem act_leaves (hI : s.Inv) (a : Act cfg) (ha : s.act pool_size a = some s') : Leaves s s' a.cpu := by
  cases a with
  | kernel_init c init_task init_stack fresh => exact kernel_init_leaves ha
  | process_init c space => exact process_init_leaves hI ha
  | set_current_task c t =>
    obtain rfl := Option.some.inj ha
    exact (SameElsewhere.set_current_task (.refl s c) t).leaves
  | run_task c i privilege fresh => exact run_task_leaves ha
  | krun_utask c space fresh => exact krun_utask_leaves ha
  | take_current_stack c i =>
    obtain ⟨⟨stack, t⟩, htake, rfl⟩ := Option.map_eq_some_iff.mp ha
    exact take_current_stack_leaves htake
  | trap_entry c waiting fresh => exact trap_entry_leaves ha
  | thread_entry c i in_kernel fresh => exact thread_entry_leaves ha
  | utask_schedule c i => exact utask_schedule_leaves ha

theorem step_inv (hI : s.Inv) (a : Act cfg) (ha : s.step pool_size a = some s') : s'.Inv := by
  simp only [step] at ha
  split at ha
  · cases ha
  · obtain rfl := Option.some.inj ha
    have hleaves : Leaves s ((s.act pool_size a).getD (s.panic a.cpu)) a.cpu := by
      cases hact : s.act pool_size a with
      | none =>
        refine ⟨.set_running (.refl s _) none, fun d hd => ?_⟩
        simp [panic, StackDispatch.set_running] at hd
      | some t => exact act_leaves hI a hact
    intro c d hd
    rcases eq_or_ne c a.cpu with rfl | hne
    · exact hleaves.holds d hd
    · obtain ⟨hrunning, hcurrent, hslot⟩ := hleaves.elsewhere c hne
      obtain ⟨hc, hmade, hs⟩ := hI c d (hrunning ▸ hd)
      exact ⟨hcurrent.trans hc, hmade, hslot.trans hs⟩

theorem boot_inv : (boot cfg).Inv := fun _ _ hd => by cases hd

/-- In a run every call of `take_current_stack` for a running task returns the stack the task was
    dispatched on if and only if every such call reads the handler that has kept it. -/
theorem run_takes_dispatched_iff (pool_size : ℕ) (acts : List (Act cfg)) :
    Runs.Along (step pool_size) TakesDispatched (boot cfg) acts ↔ Runs.Along (step pool_size) Kept (boot cfg) acts :=
  Runs.along_congr (fun _ a _ hI h => step_inv hI a h) (fun _ a _ hI _ => takes_dispatched_iff hI a) acts boot_inv

/-- A coroutine of a user process is dispatched by the kernel and interrupted, and its context is saved
    from the kernel. -/
def interrupted_coroutine : List (Act solo) :=
  [.kernel_init solo_cpu ⟨true, 0, false, 1⟩ 1 2, .process_init solo_cpu 7,
    .set_current_task solo_cpu ⟨false, 7, true, 0⟩, .krun_utask solo_cpu 7 3, .take_current_stack solo_cpu .kernel]

-- saved from the instance of the process, the same coroutine gives its stack back
example : Runs.Along (step 16) TakesDispatched (boot solo)
    (interrupted_coroutine.take 4 ++ [.take_current_stack solo_cpu (.user 7)]) := by decide +kernel

theorem interrupted_coroutine_not_taken :
    ¬ Runs.Along (step 16) TakesDispatched (boot solo) interrupted_coroutine := by decide +kernel

end StackDispatch

end Vsched2
