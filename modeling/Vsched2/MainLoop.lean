import Vsched2.Machine
import Vsched2.StalePriorities
import Vsched2.ScheduleLoop
import Vsched2.PidAllocation

/-! The functions of `main_loop.rs` and `trap_wait_queue.rs` around the schedule loop, over the data of
    `Kernel`, and the system that calls them in the order of the assembly.

    As in `Kernel`, each call runs without interference from another CPU, and `none` is a panic. Of the
    stacks nothing is said here. -/

namespace Vsched2

variable {cfg : Config}

namespace Kernel

def set_state (k : Kernel cfg) (t : TaskPtr) (st : TaskState) : Kernel cfg :=
  { k with tasks := k.tasks.set_state t st }

def set_sleeping (k : Kernel cfg) (cpu : Cpu cfg) (b : Bool) : Kernel cfg :=
  { k with is_sleeping := Function.update k.is_sleeping cpu b }

def set_in_kernel (k : Kernel cfg) (cpu : Cpu cfg) (b : Bool) : Kernel cfg :=
  { k with in_kernel := Function.update k.in_kernel cpu b }

/-- The OS saves the context of a task, of a coroutine or of a thread. -/
def save_context (k : Kernel cfg) (t : TaskPtr) (is_coroutine : Bool) : Kernel cfg :=
  { k with tasks := Function.update k.tasks t { k.tasks t with is_coroutine := is_coroutine } }

/-! ### Enqueueing -/

/-- `push_task` of the scheduler of `p`: whether it has taken the task. -/
def push_task (k : Kernel cfg) (cpu : Cpu cfg) (p : Pid cfg) (task : TaskPtr) : Option (Bool × Kernel cfg) :=
  ((k.schedulers p).push_task k.tasks cpu task (k.row p)).map fun r => (r.1, k.put p r.2.1 k.tasks r.2.2)

/-- `push_task` by a caller that panics when the task is refused. -/
def put_back (k : Kernel cfg) (cpu : Cpu cfg) (p : Pid cfg) (task : TaskPtr) : Option (Kernel cfg) :=
  (k.push_task cpu p task).bind fun r => if r.1 then some r.2 else none

/-- `api::push_task`. -/
def api_push_task (k : Kernel cfg) (cpu : Cpu cfg) (task : TaskPtr) : Option (Bool × Kernel cfg) :=
  if (k.tasks task).is_kernel then k.push_task cpu .kernel task
  else
    let info := k.process_info_table.table (k.tasks task).pid
    if info.valid = false then some (false, k)
    else
      match info.scheduler with
      | none => some (false, k)
      | some p => k.push_task cpu p task

/-- The scheduler of the process of a task, if its slot points to one. -/
def scheduler_ptr (k : Kernel cfg) (task : TaskPtr) : Option (Pid cfg) :=
  (k.process_info_table.table (k.tasks task).pid).scheduler

def push_prev_task (k : Kernel cfg) (cpu : Cpu cfg) : TaskState → Option (Kernel cfg)
  | .ready =>
    let current_task := k.current_task cpu
    let target := if (k.tasks current_task).is_kernel then .kernel else (k.scheduler_ptr current_task).getD .kernel
    k.put_back cpu target current_task
  | _ => some k

/-- `push_trap` of the kernel scheduler with its `unwrap`. -/
def push_trap (k : Kernel cfg) (cpu : Cpu cfg) (item : TrapItem) : Option (Kernel cfg) :=
  let r := (k.schedulers .kernel).push_trap cpu item cpu (k.row .kernel)
  if r.1 then some (k.put .kernel r.2.1 k.tasks r.2.2) else none

/-! ### The entries and the exits of the loop -/

/-- The branch of `trap_entry` for traps other than interrupts; `info` is the number of the `TrapInfo`
    that `from_task` returns. -/
def trap_entry_sync (k : Kernel cfg) (cpu : Cpu cfg) (info : ℕ) : Option (ℕ × Kernel cfg) :=
  let current_task := k.current_task cpu
  if k.is_sleeping cpu then none
  else if (k.tasks current_task).state = .running then
    (((k.set_state current_task .blocked).push_prev_task cpu .blocked).bind fun k' =>
      k'.push_trap cpu ⟨info, some current_task⟩).map fun k' => (1, k')
  else none

/-- The branch of `trap_entry` for interrupts. -/
def trap_entry_irq (k : Kernel cfg) (cpu : Cpu cfg) (info : ℕ) : Option (ℕ × Kernel cfg) :=
  let current_task := k.current_task cpu
  let scheduler_waiting := k.is_sleeping cpu
  ((k.set_sleeping cpu false).push_trap cpu ⟨info, none⟩).bind fun k' =>
    if scheduler_waiting then some (1, k')
    else if (k'.tasks current_task).state = .running then
      ((k'.set_state current_task .ready).push_prev_task cpu .ready).map fun k'' => (1, k'')
    else none

/-- `trap_entry`. In user mode only the type 2 is supported. -/
def trap_entry (k : Kernel cfg) (cpu : Cpu cfg) (trap_type privilege info : ℕ) : Option (ℕ × Kernel cfg) :=
  match privilege with
  | 0 =>
    match trap_type with
    | 0 => (k.set_in_kernel cpu true).trap_entry_sync cpu info
    | 1 => (k.set_in_kernel cpu true).trap_entry_irq cpu info
    | 2 => some (3, k.set_in_kernel cpu true)
    | _ => none
  | 1 => if trap_type = 2 then some (3, k.set_in_kernel cpu false) else none
  | _ => none

/-- `match_set_state` and `push_prev_task` for a task that leaves its CPU, the same code in
    `thread_entry_phase2` and in the `Pending` branch of `run_coroutine`. -/
def put_prev (k : Kernel cfg) (cpu : Cpu cfg) : Option (Kernel cfg) :=
  let current_task := k.current_task cpu
  let prev_state := (k.tasks current_task).state
  let k' := k.set_state current_task prev_state.leave
  match prev_state with
  | .blocking | .running => k'.push_prev_task cpu .blocked
  | .blocked => none
  | .ready => k'.push_prev_task cpu .ready
  | .exited => k'.push_prev_task cpu .exited

/-- The privilege in what the two functions return. -/
def privilege (k : Kernel cfg) (cpu : Cpu cfg) : ℕ := if k.in_kernel cpu then 0 else 1

def thread_entry_phase2 (k : Kernel cfg) (cpu : Cpu cfg) : Option (ℕ × Kernel cfg) :=
  (k.put_prev cpu).map fun k' => ((if cfg.cpu_num = 1 then 2 else 0) + k'.privilege cpu, k')

/-- `run_coroutine` after `poll`, which was `Ready` or `Pending`. -/
def after_poll (k : Kernel cfg) (cpu : Cpu cfg) (ready : Bool) : Option (ℕ × Kernel cfg) :=
  let current_task := k.current_task cpu
  (if ready then (k.set_state current_task .exited).push_prev_task cpu .exited else k.put_prev cpu).map
    fun k' => (k'.privilege cpu, k')

/-- `run_task` up to the code of the task: the assertion of `run_coroutine` and `run_thread`. -/
def run_task (k : Kernel cfg) (cpu : Cpu cfg) : Option (Kernel cfg) :=
  let current_task := k.current_task cpu
  let prev_state := (k.tasks current_task).state
  if prev_state = .ready ∨ prev_state = .blocked then some (k.set_state current_task .running) else none

/-- `krun_utask`, and whether it goes on with `run_task` in user mode. -/
def krun_utask (k : Kernel cfg) (cpu : Cpu cfg) : Bool × Kernel cfg :=
  let current_task := k.current_task cpu
  ((k.tasks current_task).is_coroutine, (k.set_state current_task .running).set_in_kernel cpu false)

/-! ### The loops -/

/-- `utok_schedule` up to its first call of `wait_irqs`; see `kschedule_until`. -/
def utok_schedule_until (user_data : Pid cfg → Pid cfg) (cpu : Cpu cfg) (fresh : TaskPtr × Task cfg) :
    ℕ → Pid cfg → Kernel cfg → Option (Outcome × Kernel cfg)
  | 0, _, _ => none
  | fuel + 1, next_pid, k =>
    (k.ktask_schedule user_data cpu next_pid fresh).bind fun r =>
      if r.1 ≠ 2 then some (.returns r.1, r.2)
      else (r.2.wait_for_runnable_task cpu).bind fun k' =>
        if k'.is_sleeping cpu then some (.wait_irqs, k')
        else (k'.process_schedule cpu .kernel).bind fun next_pid' =>
          utok_schedule_until user_data cpu fresh fuel next_pid' k'

/-- `uschedule` in the process `current_pid`: whether it returns. Otherwise it calls `into_kernel`, which
    does not return, so that its loop has one round. -/
def uschedule (k : Kernel cfg) (cpu : Cpu cfg) (current_pid : Pid cfg) (fresh : TaskPtr × Task cfg) :
    Option (Bool × Kernel cfg) :=
  (k.process_schedule cpu current_pid).bind fun next_pid =>
    (k.utask_schedule cpu current_pid next_pid fresh).map fun r => (decide (r.1 = some 0), r.2)

/-! ### `trap_handler` -/

/-- The top of the loop: the removal of a trap, and what comes before `handle`. -/
def trap_handler_take (k : Kernel cfg) (cpu : Cpu cfg) : Option TrapItem × Kernel cfg :=
  let handler := k.current_task cpu
  let r := (k.schedulers .kernel).trap_handler_pop cpu (k.row .kernel)
  let k' := k.put .kernel r.2.1 k.tasks r.2.2
  match r.1 with
  | none => (none, k')
  | some item =>
    let pid := item.pid k'.tasks
    (some item, ({ k' with tasks := k'.tasks.set_pid handler pid }).switch_vspace cpu pid)

/-- `reschedule_handler` up to its `resched`. -/
def reschedule_handler (k : Kernel cfg) (cpu : Cpu cfg) : Option (Kernel cfg) :=
  let s := k.schedulers .kernel
  (s.trap_wait_queue.reschedule_handler k.tasks (k.current_task cpu)).map fun r =>
    k.put .kernel { s with trap_wait_queue := r.1 } r.2 (k.row .kernel)

/-- What follows `handle`: the wake-up of the trapped task, or its end. -/
def trap_handler_finish (k : Kernel cfg) (cpu : Cpu cfg) (item : TrapItem) : Option (Kernel cfg) :=
  match item.task with
  | none => some k
  | some task =>
    let prev_state := (k.tasks task).state
    let k' := k.set_state task prev_state.wake_blocked
    match prev_state with
    | .blocked =>
      if (k'.tasks task).is_kernel then k'.put_back cpu .kernel task
      else (k'.scheduler_ptr task).bind fun p => k'.put_back cpu p task
    | .exited => some k'
    | _ => none

/-! ### Processes -/

/-- `process_drop`. -/
def process_drop (k : Kernel cfg) (p : Pid cfg) : Kernel cfg :=
  { k with process_info_table := (k.process_info_table.unregister_process p).2 }

end Kernel

/-! ### The system -/

open ScheduleLoop (Fn Loop)

/-- The function the assembly calls next, after `f` has returned `v`. -/
def ScheduleLoop.Fn.next (f : Fn) (v : ℕ) : Option Fn :=
  ((⟨f, 0, 0⟩ : Loop 64).next (BitVec.ofNat 64 v)).map Loop.fn

/-- Where a CPU stands: in the code of a task, with interrupts off once the task has set its own state,
    before a call of the loop, or in `wait_irqs`. -/
inductive CpuPlace where
  | task | own
  | call (f : Fn)
  | wait_irqs
  deriving DecidableEq, Repr

/-- The shared data, the CPUs, and what the OS knows: the tasks that exist, those that have blocked
    themselves, those whose waker has to enqueue them, and the trap handlers with the traps they are
    inside `handle` for. -/
structure System (cfg : Config) where
  kernel : Kernel cfg
  place : Cpu cfg → CpuPlace
  known : TaskPtr → Bool
  waits : TaskPtr → Bool
  waking : List TaskPtr
  stage : TaskPtr → Option Stage
  next_info : ℕ

namespace System

variable (user_data : Pid cfg → Pid cfg) (s : System cfg) (c : Cpu cfg)

/-- A call of `f` has returned `v` and left `k`. -/
def goto (k : Kernel cfg) (f : Fn) (v : ℕ) : Option (System cfg) :=
  (f.next v).map fun g => { s with kernel := k, place := Function.update s.place c (.call g) }

/-- The task of the CPU. -/
def current : TaskPtr := s.kernel.current_task c

/-- As `Machine.in_code`. -/
def in_code : Bool :=
  s.place c = .task && match s.stage (s.current c) with
    | none => true
    | some (.handle _) => true
    | _ => false

/-- An interrupt or another trap in task code, or an interrupt in `wait_irqs`. In task code the context
    the OS saves is that of a thread. -/
def trap_entry (trap_type : ℕ) : Option (System cfg) :=
  if s.in_code c ∧ trap_type < 2 then
    ((s.kernel.save_context (s.current c) false).trap_entry c trap_type 0 s.next_info).bind fun r =>
      { s with next_info := s.next_info + 1 }.goto c r.2 .trap_entry r.1
  else if s.place c = .wait_irqs ∧ trap_type = 1 then
    (s.kernel.trap_entry c trap_type 0 s.next_info).bind fun r =>
      { s with next_info := s.next_info + 1 }.goto c r.2 .trap_entry r.1
  else none

/-- A task sets its own state before it leaves. -/
def set_self (st : TaskState) : Option (System cfg) :=
  if s.in_code c ∧ (st = .ready ∨ st = .blocking ∨ st = .exited) then
    some { s with
      kernel := s.kernel.set_state (s.current c) st
      waits := Function.update s.waits (s.current c) (st = .blocking)
      place := Function.update s.place c .own }
  else none

/-- A task that leaves without having set its state has blocked itself. -/
def blocks_itself : TaskPtr → Bool :=
  if (s.kernel.tasks (s.current c)).state = .running then Function.update s.waits (s.current c) true else s.waits

/-- A task leaves the CPU: a thread by `thread_entry`, a coroutine by returning `Pending`. -/
def leave (is_coroutine : Bool) : Option (System cfg) :=
  if s.in_code c ∨ s.place c = .own then
    let k := s.kernel.save_context (s.current c) is_coroutine
    let s' := { s with waits := s.blocks_itself c }
    if is_coroutine then (k.after_poll c false).bind fun r => s'.goto c r.2 .run_task r.1
    else (k.thread_entry_phase2 c).bind fun r => s'.goto c r.2 .thread_entry r.1
  else none

/-- A coroutine returns `Ready`. -/
def poll_ready : Option (System cfg) :=
  if s.in_code c ∨ s.place c = .own then
    (s.kernel.after_poll c true).bind fun r =>
      { s with waits := Function.update s.waits (s.current c) false }.goto c r.2 .run_task r.1
  else none

/-- `new_handler` was called for the task that runs next, if it is the new one. -/
def adopt (fresh : TaskPtr × Task cfg) (k : Kernel cfg) : System cfg :=
  if k.current_task c = fresh.1 then
    { s with
      known := Function.update s.known fresh.1 true
      stage := Function.update s.stage fresh.1 (some .top) }
  else s

/-- What `new_handler` may return: a new kernel task. -/
def Fresh (fresh : TaskPtr × Task cfg) : Prop := s.known fresh.1 = false ∧ fresh.2.is_kernel = true

instance (fresh : TaskPtr × Task cfg) : Decidable (s.Fresh fresh) :=
  inferInstanceAs (Decidable (s.known fresh.1 = false ∧ fresh.2.is_kernel = true))

/-- How a scheduler of the kernel ends. -/
def ends (f : Fn) (fresh : TaskPtr × Task cfg) : Kernel.Outcome × Kernel cfg → Option (System cfg)
  | (.returns res, k) => (s.adopt c fresh k).goto c k f res
  | (.wait_irqs, k) => some { s with kernel := k, place := Function.update s.place c .wait_irqs }

/-- `kschedule`. The fuel bounds the rounds of its loop. -/
def kschedule (fuel : ℕ) (fresh : TaskPtr × Task cfg) : Option (System cfg) :=
  if s.place c = .call .kschedule ∧ s.Fresh fresh then
    (s.kernel.kschedule_until user_data c fresh fuel).bind (s.ends c .kschedule fresh)
  else none

def utok_schedule (fuel : ℕ) (fresh : TaskPtr × Task cfg) : Option (System cfg) :=
  if s.place c = .call .utok_schedule ∧ s.Fresh fresh then
    (Kernel.utok_schedule_until user_data c fresh fuel (s.kernel.current_vspace c) s.kernel).bind
      (s.ends c .utok_schedule fresh)
  else none

/-- `uschedule` of the process `p`, with `trap_entry(2, 0)` where it enters the kernel. -/
def uschedule (p : Pid cfg) (fresh : TaskPtr × Task cfg) : Option (System cfg) :=
  if s.place c = .call .uschedule ∧ p ≠ .kernel ∧ s.Fresh fresh then
    (s.kernel.uschedule c p fresh).bind fun r =>
      if r.1 then s.goto c r.2 .uschedule 0
      else (r.2.trap_entry c 2 0 s.next_info).bind fun r' => s.goto c r'.2 .trap_entry r'.1
  else none

/-- `wait_irqs` returns without an interrupt. The loop goes on, that of `utok_schedule` as that of
    `kschedule`. -/
def wait_return : Option (System cfg) :=
  if s.place c = .wait_irqs then some { s with place := Function.update s.place c (.call .kschedule) } else none

def run_task : Option (System cfg) :=
  if s.place c = .call .run_task then
    (s.kernel.run_task c).map fun k => { s with kernel := k, place := Function.update s.place c .task }
  else none

def krun_utask : Option (System cfg) :=
  if s.place c = .call .krun_utask then
    let r := s.kernel.krun_utask c
    some { s with
      kernel := r.2
      place := Function.update s.place c (if r.1 then .call .run_task else .task) }
  else none

/-- `trap_handler` from the top of its loop: up to `handle`, or back into the scheduler. -/
def trap_handler : Option (System cfg) :=
  if s.place c = .task ∧ s.stage (s.current c) = some .top then
    match s.kernel.trap_handler_take c with
    | (some item, k) => some { s with
        kernel := k
        stage := Function.update s.stage (s.current c) (some (.handle item)) }
    | (none, k) =>
      (k.reschedule_handler c).bind fun k' =>
        ((k'.save_context (s.current c) false).thread_entry_phase2 c).bind fun r => s.goto c r.2 .thread_entry r.1
  else none

/-- The trapped task exits inside `handle`. -/
def handle_exits : Option (System cfg) :=
  match s.place c, s.stage (s.current c) with
  | .task, some (.handle ⟨_, some task⟩) => some { s with kernel := s.kernel.set_state task .exited }
  | _, _ => none

/-- `handle` returns, and the handler goes on to the top of its loop. -/
def handle_returns : Option (System cfg) :=
  match s.place c, s.stage (s.current c) with
  | .task, some (.handle item) =>
    (s.kernel.trap_handler_finish c item).map fun k =>
      { s with kernel := k, stage := Function.update s.stage (s.current c) (some .top) }
  | _, _ => none

/-- `api::push_task` takes a new task. -/
def push_task (t : TaskPtr) (task : Task cfg) : Option (System cfg) :=
  if s.known t = false ∧ task.state = .ready then
    (({ s.kernel with tasks := Function.update s.kernel.tasks t task }).api_push_task c t).bind fun r =>
      if r.1 then some { s with
        kernel := r.2
        known := Function.update s.known t true
        stage := Function.update s.stage t none }
      else none
  else none

/-- An OS waker: it wakes only a task that has blocked itself, and enqueues it only if it was
    `Blocked`. -/
def wake (t : TaskPtr) : System cfg :=
  if s.waits t then
    let s' := { s with kernel := s.kernel.set_state t .ready, waits := Function.update s.waits t false }
    match (s.kernel.tasks t).state with
    | .blocked => { s' with waking := s.waking ++ [t] }
    | .blocking => s'
    | _ => s
  else s

/-- The waker's `push_task`, which it tries again if the task is refused. -/
def wake_push (t : TaskPtr) : Option (System cfg) :=
  if t ∈ s.waking then
    (s.kernel.api_push_task c t).bind fun r =>
      if r.1 then some { s with kernel := r.2, waking := s.waking.erase t } else none
  else none

def process_init (vspace : ℕ) : Option (System cfg) :=
  (s.kernel.process_init vspace).map fun r => { s with kernel := r.2 }

/-- `process_drop`, of a process and not of the kernel. -/
def process_drop (p : Pid cfg) : Option (System cfg) :=
  if p ≠ .kernel then some { s with kernel := s.kernel.process_drop p } else none

/-- `user_init` for the process `p`, called once, with the trap handlers of its own. -/
def user_init (p : Pid cfg) (handlers : Cpu cfg → TaskPtr) : Option (System cfg) :=
  if p ≠ .kernel ∧ (s.kernel.process_info_table.table p).scheduler = some p ∧
      (s.kernel.schedulers p).sources = [] ∧ ∀ d, s.known (handlers d) = false then
    (s.kernel.init_sources c p handlers).map fun k =>
      { s with kernel := k, known := fun t => s.known t || decide (∃ d, handlers d = t) }
  else none

/-- The calls: on the CPU `c`, by the OS or a task on `c`, and by an OS waker. -/
inductive Act (cfg : Config) where
  | trap_entry (c : Cpu cfg) (trap_type : ℕ)
  | set_self (c : Cpu cfg) (st : TaskState)
  | leave (c : Cpu cfg) (is_coroutine : Bool)
  | poll_ready (c : Cpu cfg)
  | kschedule (c : Cpu cfg) (fuel : ℕ) (fresh : TaskPtr × Task cfg)
  | utok_schedule (c : Cpu cfg) (fuel : ℕ) (fresh : TaskPtr × Task cfg)
  | uschedule (c : Cpu cfg) (p : Pid cfg) (fresh : TaskPtr × Task cfg)
  | wait_return (c : Cpu cfg)
  | run_task (c : Cpu cfg)
  | krun_utask (c : Cpu cfg)
  | trap_handler (c : Cpu cfg)
  | handle_exits (c : Cpu cfg)
  | handle_returns (c : Cpu cfg)
  | push_task (c : Cpu cfg) (t : TaskPtr) (task : Task cfg)
  | wake (t : TaskPtr)
  | wake_push (c : Cpu cfg) (t : TaskPtr)
  | process_init (vspace : ℕ)
  | process_drop (p : Pid cfg)
  | user_init (c : Cpu cfg) (p : Pid cfg) (handlers : Cpu cfg → TaskPtr)

def step : Act cfg → Option (System cfg)
  | .trap_entry c trap_type => s.trap_entry c trap_type
  | .set_self c st => s.set_self c st
  | .leave c is_coroutine => s.leave c is_coroutine
  | .poll_ready c => s.poll_ready c
  | .kschedule c fuel fresh => s.kschedule user_data c fuel fresh
  | .utok_schedule c fuel fresh => s.utok_schedule user_data c fuel fresh
  | .uschedule c p fresh => s.uschedule c p fresh
  | .wait_return c => s.wait_return c
  | .run_task c => s.run_task c
  | .krun_utask c => s.krun_utask c
  | .trap_handler c => s.trap_handler c
  | .handle_exits c => s.handle_exits c
  | .handle_returns c => s.handle_returns c
  | .push_task c t task => s.push_task c t task
  | .wake t => some (s.wake t)
  | .wake_push c t => s.wake_push c t
  | .process_init vspace => s.process_init vspace
  | .process_drop p => s.process_drop p
  | .user_init c p handlers => s.user_init c p handlers

end System

/-- The system after `kernel_init_main` on `cpu`, and `kernel_init_secondary` on the others. -/
def Boot.system (b : Boot cfg) (cpu : Cpu cfg) : Option (System cfg) :=
  (Kernel.kernel_init_main b.tasks b.init_task b.wait_context cpu b.handlers).map fun k =>
    { kernel := k
      place := fun _ => .task
      known := b.machine.known
      waits := fun _ => false
      waking := []
      stage := b.machine.stage
      next_info := 0 }

end Vsched2
