import Vsched2.TrapWaitQueue
import Vsched2.Lib.Run

/-! The schedule loop on several CPUs, one atomic access at a time.

    A CPU runs task code or one of the functions of `main_loop.rs` and `trap_wait_queue.rs`; its `Pc`
    says where it stands. A step is one access to shared data, or one section under a lock, of one
    CPU. Interrupts are taken in task code and while the CPU waits for them, nowhere else.

    Priorities and the process table are left out: a round of the loop may take the first task of any
    level of any ready queue, or a trap of its CPU, or find nothing. So every run of the real loop is
    a run here. A user task's scheduler is that of its process. -/

namespace Vsched2

variable {cfg : Config}

/-- The assertion, `panic!`, `unwrap` or `expect` a CPU stopped at. -/
inductive Panic where
  | task_state | sleeping | task_blocked | ready_full | trap_full | pool_full | idle_state | new_state
  | trapped_state
  deriving DecidableEq, Repr

/-- Where a selected task is to be run: by `run_task` in the kernel, by `krun_utask`, or by
    `run_task` of a user scheduler. -/
inductive Target where | kernel | krun | user
  deriving DecidableEq, Repr

/-- Where a CPU stands. -/
inductive Pc (cfg : Config) where
  -- task code; with interrupts off once the task has set its own state
  | run | own
  -- `trap_entry`: before `push_trap` of the synchronous and of the interrupt branch (the latter with
  -- the flag `scheduler_waiting`), and before `set_state(Ready)`
  | sync_push | irq_push (scheduler_waiting : Bool) | irq_state
  -- `push_prev_task` in the state Ready and Exited
  | push_prev | dealloc_prev
  -- the head of the loop of a scheduler; after `wait_irqs` has returned normally the flag is set
  | sched (returned : Bool)
  -- `take_task` of the trap wait queue: `get_idle_handler`, the busy wait, `new_handler`, `set_pid`
  | idle_handler (pid : Pid cfg) | busy_wait (handler : TaskPtr) (pid : Pid cfg) | no_handler (pid : Pid cfg)
  | set_pid (handler : TaskPtr) (pid : Pid cfg)
  -- the task `pop_task` returned, before `set_current_task`
  | popped (task : TaskPtr) (target : Target)
  | run_task | krun_utask | user_run_task
  -- `wait_for_runnable_task`: `set_current_task`, the store of IS_SLEEPING, the second check, the
  -- store that clears IS_SLEEPING, and `wait_irqs`
  | wait_context | wait_sleeping | wait_check | wait_clear | wait_irqs
  -- `reschedule_handler`: before `push_back`, and before `thread_entry_phase2`
  | idle_push | idle_resched
  | panicked (why : Panic)
  deriving DecidableEq

/-- Where a trap handler stands in the loop of `trap_handler`. -/
inductive Stage where
  | top
  | taken (item : TrapItem)
  | handle (item : TrapItem)
  | handled (item : TrapItem)
  | wake (item : TrapItem) (task : TaskPtr)
  | exited (item : TrapItem) (task : TaskPtr)
  | dealloc (item : TrapItem)
  deriving DecidableEq, Repr

/-- What happens to traps, with the handler where one acts and the number of the trap. -/
inductive Event (cfg : Config) where
  | push_trap (cpu : Cpu cfg) (item : TrapItem)
  | pop_trap (cpu : Cpu cfg) (handler : TaskPtr) (info : ℕ)
  | handle (handler : TaskPtr) (info : ℕ)
  | returned (handler : TaskPtr) (info : ℕ) (state : Option TaskState)
  | push_task (handler : TaskPtr) (info : ℕ) (task : TaskPtr)
  | dealloc_task (handler : TaskPtr) (info : ℕ) (task : TaskPtr)
  | dealloc (handler : TaskPtr) (info : ℕ)
  deriving DecidableEq

/-- The state of the system. `known` are the tasks that exist, `waits` those that have blocked
    themselves and wait for a waker, `waking` those a waker has to put into a ready queue, `entered` those
    `push_task` has accepted, `admitted` those of them nobody has deallocated. `stage` is for trap
    handlers. -/
structure Machine (cfg : Config) where
  tasks : Tasks cfg
  known : TaskPtr → Bool
  waits : TaskPtr → Bool
  stage : TaskPtr → Option Stage
  ready : Pid cfg → Level cfg → List TaskPtr
  traps : Cpu cfg → List TrapItem
  idle_handlers : List TaskPtr
  waking : List TaskPtr
  entered : TaskPtr → Bool
  admitted : List TaskPtr
  pc : Cpu cfg → Pc cfg
  current_task : Cpu cfg → TaskPtr
  scheduler_wait_context : Cpu cfg → TaskPtr
  is_sleeping : Cpu cfg → Bool
  in_kernel : Cpu cfg → Bool
  current_vspace : Cpu cfg → Pid cfg
  next_info : ℕ
  log : List (Event cfg)

namespace Machine

/-! ### Accesses -/

def set_pc (m : Machine cfg) (c : Cpu cfg) (pc : Pc cfg) : Machine cfg :=
  { m with pc := Function.update m.pc c pc }

def set_current (m : Machine cfg) (c : Cpu cfg) (t : TaskPtr) : Machine cfg :=
  { m with current_task := Function.update m.current_task c t }

def set_state (m : Machine cfg) (t : TaskPtr) (st : TaskState) : Machine cfg :=
  { m with tasks := m.tasks.set_state t st }

/-- `set_state` of the TCB with the ghost flag `waits`. -/
def set_wait (m : Machine cfg) (t : TaskPtr) (st : TaskState) (w : Bool) : Machine cfg :=
  { m with tasks := m.tasks.set_state t st, waits := Function.update m.waits t w }

/-- Saving a context decides whether the task is a coroutine from now on. -/
def save_context (m : Machine cfg) (t : TaskPtr) (is_coroutine : Bool) : Machine cfg :=
  { m with tasks := Function.update m.tasks t { m.tasks t with is_coroutine := is_coroutine } }

def set_stage (m : Machine cfg) (h : TaskPtr) (st : Stage) : Machine cfg :=
  { m with stage := Function.update m.stage h (some st) }

def set_sleeping (m : Machine cfg) (c : Cpu cfg) (b : Bool) : Machine cfg :=
  { m with is_sleeping := Function.update m.is_sleeping c b }

def set_in_kernel (m : Machine cfg) (c : Cpu cfg) (b : Bool) : Machine cfg :=
  { m with in_kernel := Function.update m.in_kernel c b }

def set_vspace (m : Machine cfg) (c : Cpu cfg) (p : Pid cfg) : Machine cfg :=
  { m with current_vspace := Function.update m.current_vspace c p }

def emit (m : Machine cfg) (e : Event cfg) : Machine cfg := { m with log := m.log ++ [e] }

def set_ready (m : Machine cfg) (p : Pid cfg) (l : Level cfg) (q : List TaskPtr) : Machine cfg :=
  { m with ready := Function.update m.ready p (Function.update (m.ready p) l q) }

/-- A new TCB. -/
def create (m : Machine cfg) (t : TaskPtr) (task : Task cfg) (stage : Option Stage) : Machine cfg :=
  { m with
    tasks := Function.update m.tasks t task
    known := Function.update m.known t true
    stage := Function.update m.stage t stage }

/-- The process whose scheduler a task is put into. -/
def home (m : Machine cfg) (t : TaskPtr) : Pid cfg :=
  if (m.tasks t).is_kernel then .kernel else (m.tasks t).pid

/-- `Scheduler::push_task`; `none` when the queue is full or the priority out of range. -/
def push_task (m : Machine cfg) (t : TaskPtr) : Option (Machine cfg) :=
  (cfg.level (m.tasks t).priority).bind fun l =>
    if (m.ready (m.home t) l).length < cfg.ready_queue_size then
      some (m.set_ready (m.home t) l (m.ready (m.home t) l ++ [t]))
    else none

/-- `push_trap` on CPU `c` with the `TrapInfo` that `from_task` creates. -/
def push_trap (m : Machine cfg) (c : Cpu cfg) (task : Option TaskPtr) : Option (Machine cfg) :=
  if (m.traps c).length < cfg.trap_wait_queue_size then
    some { m with
      traps := Function.update m.traps c (m.traps c ++ [⟨m.next_info, task⟩])
      next_info := m.next_info + 1
      log := m.log ++ [.push_trap c ⟨m.next_info, task⟩] }
  else none

/-! ### Task code -/

/-- The CPU executes the code of a task with interrupts on: of an ordinary task, or of a handler
    inside `TrapInfo::handle`. -/
def in_code (m : Machine cfg) (c : Cpu cfg) : Bool :=
  m.pc c = .run && match m.stage (m.current_task c) with
    | none => true
    | some (.handle _) => true
    | _ => false

/-- `trap_entry(1, 0)` up to the swap of IS_SLEEPING. In task code the OS has saved a trap context,
    which is a thread's. -/
def irq (m : Machine cfg) (c : Cpu cfg) : Option (Machine cfg) :=
  if m.in_code c then
    some ((((m.save_context (m.current_task c) false).set_in_kernel c true).set_sleeping c false).set_pc c
      (.irq_push (m.is_sleeping c)))
  else if m.pc c = .wait_irqs then
    some (((m.set_in_kernel c true).set_sleeping c false).set_pc c (.irq_push (m.is_sleeping c)))
  else none

/-- `trap_entry(0, 0)` up to `push_prev_task(Blocked)`, which does nothing. -/
def trap (m : Machine cfg) (c : Cpu cfg) : Option (Machine cfg) :=
  if m.in_code c then
    let t := m.current_task c
    let m' := (m.save_context t false).set_in_kernel c true
    if m.is_sleeping c then some (m'.set_pc c (.panicked .sleeping))
    else
      let prev_state := (m.tasks t).state
      some ((m'.set_state t .blocked).set_pc c
        (if prev_state = .running then .sync_push else .panicked .task_state))
  else none

/-- A task sets its own state to leave the CPU. -/
def set_self (m : Machine cfg) (c : Cpu cfg) (st : TaskState) : Option (Machine cfg) :=
  if m.in_code c ∧ (st = .ready ∨ st = .blocking ∨ st = .exited) then
    some ((m.set_wait (m.current_task c) st (st = .blocking)).set_pc c .own)
  else none

/-- `thread_entry_phase2`, and the `Pending` branch of `run_coroutine`: the state map and the place
    the task goes to. -/
def phase2 (m : Machine cfg) (c : Cpu cfg) : Machine cfg :=
  let t := m.current_task c
  let prev_state := (m.tasks t).state
  let m' := m.set_state t prev_state.leave
  match prev_state with
  | .ready => m'.set_pc c .push_prev
  | .running => (m.set_wait t prev_state.leave true).set_pc c (.sched false)
  | .blocked => m'.set_pc c (.panicked .task_blocked)
  | .exited => m'.set_pc c .dealloc_prev
  | .blocking => m'.set_pc c (.sched false)

/-- A task leaves the CPU: a thread by `thread_entry`, a coroutine by returning `Pending`. -/
def leave (m : Machine cfg) (c : Cpu cfg) (is_coroutine : Bool) : Option (Machine cfg) :=
  if m.in_code c ∨ m.pc c = .own then some ((m.save_context (m.current_task c) is_coroutine).phase2 c)
  else none

/-- `poll` returns `Ready` to `run_coroutine`. -/
def poll_ready (m : Machine cfg) (c : Cpu cfg) : Option (Machine cfg) :=
  if m.in_code c ∨ m.pc c = .own then
    some ((m.set_wait (m.current_task c) .exited false).set_pc c .dealloc_prev)
  else none

/-- `api::push_task` accepts a new task. -/
def arrive (m : Machine cfg) (t : TaskPtr) (task : Task cfg) : Option (Machine cfg) :=
  if m.known t = false ∧ task.state = .ready then
    ((m.create t task none).push_task t).map fun m' =>
      { m' with admitted := m'.admitted ++ [t], entered := Function.update m'.entered t true }
  else none

/-- An OS waker: it wakes only a task that has blocked itself, and enqueues it only if it was
    `Blocked`. -/
def wake (m : Machine cfg) (t : TaskPtr) : Machine cfg :=
  if m.waits t then
    match (m.tasks t).state with
    | .blocked => { m.set_wait t .ready false with waking := m.waking ++ [t] }
    | .blocking => m.set_wait t .ready false
    | _ => m
  else m

/-- The waker's `push_task`; the waker tries again if the queue is full. -/
def wake_push (m : Machine cfg) (t : TaskPtr) : Option (Machine cfg) :=
  if t ∈ m.waking then (m.push_task t).map fun m' => { m' with waking := m'.waking.erase t } else none

/-! ### The schedule loop -/

/-- `pop_task` returns the first task of a level: of the kernel scheduler or, after
    `switch_vspace`, of a user scheduler; in user mode of the own scheduler. -/
def pop_ready (m : Machine cfg) (c : Cpu cfg) (p : Pid cfg) (l : Level cfg) : Option (Machine cfg) :=
  match m.pc c, m.ready p l with
  | .sched _, t :: rest =>
    if m.in_kernel c then
      if p = .kernel then some ((m.set_ready p l rest).set_pc c (.popped t .kernel))
      else some (((m.set_vspace c p).set_ready p l rest).set_pc c (.popped t .krun))
    else if p ≠ .kernel then some ((m.set_ready p l rest).set_pc c (.popped t .user))
    else none
  | _, _ => none

/-- `pop_task` of the kernel scheduler chooses the trap wait queue. -/
def take_trap (m : Machine cfg) (c : Cpu cfg) : Option (Machine cfg) :=
  match m.pc c, m.traps c with
  | .sched _, item :: _ =>
    if m.in_kernel c then some (m.set_pc c (.idle_handler (item.pid m.tasks))) else none
  | _, _ => none

/-- No task was found: the kernel waits. It may have switched to the address space of a process whose
    scheduler had none. -/
def fail (m : Machine cfg) (c : Cpu cfg) (p : Pid cfg) : Option (Machine cfg) :=
  match m.pc c with
  | .sched _ => if m.in_kernel c then some ((m.set_vspace c p).set_pc c .wait_context) else none
  | _ => none

/-- A user scheduler enters the kernel, for process `p`; `trap_entry(2, 0)` leads to `utok_schedule`. -/
def into_kernel (m : Machine cfg) (c : Cpu cfg) (p : Pid cfg) : Option (Machine cfg) :=
  match m.pc c with
  | .sched _ =>
    if m.in_kernel c then none else some (((m.set_vspace c p).set_in_kernel c true).set_pc c (.sched false))
  | _ => none

/-- `TrapInfo::new_handler` and `create_new_handler`. A trap handler is a kernel task. -/
def new_handler (m : Machine cfg) (c : Cpu cfg) (h : TaskPtr) (task : Task cfg) : Option (Machine cfg) :=
  match m.pc c with
  | .no_handler pid =>
    if m.known h = false ∧ task.is_kernel = true then
      let m' := m.create h task (some .top)
      match create_new_handler h m'.tasks with
      | none => some (m'.set_pc c (.panicked .new_state))
      | some ts => some ({ m' with tasks := ts }.set_pc c (.set_pid h pid))
    else none
  | _ => none

/-- The second check of `wait_for_runnable_task`. -/
def check (m : Machine cfg) (c : Cpu cfg) (found : Bool) : Option (Machine cfg) :=
  if m.pc c = .wait_check then some (m.set_pc c (if found then .wait_clear else .wait_irqs)) else none

/-- `wait_irqs` returns without an interrupt having been taken. -/
def wait_return (m : Machine cfg) (c : Cpu cfg) : Option (Machine cfg) :=
  if m.pc c = .wait_irqs then some (m.set_pc c (.sched true)) else none

/-- The assertion of `run_coroutine` and `run_thread`. -/
def run_current (m : Machine cfg) (c : Cpu cfg) : Machine cfg :=
  let t := m.current_task c
  let prev_state := (m.tasks t).state
  (m.set_state t .running).set_pc c
    (if prev_state = .ready ∨ prev_state = .blocked then .run else .panicked .task_state)

/-! ### `trap_handler` -/

/-- Inside `handle` the trapped task exits. -/
def handle_exits (m : Machine cfg) (c : Cpu cfg) : Option (Machine cfg) :=
  match m.pc c, m.stage (m.current_task c) with
  | .run, some (.handle ⟨_, some t⟩) => some (m.set_state t .exited)
  | _, _ => none

/-- The next access of the handler that runs on `c`. -/
def handler_next (m : Machine cfg) (c : Cpu cfg) : Stage → Machine cfg
  | .top =>
    let h := m.current_task c
    match m.traps c with
    | item :: rest =>
      ({ m with traps := Function.update m.traps c rest }.emit (.pop_trap c h item.info)).set_stage h
        (.taken item)
    | [] => { m with tasks := (m.tasks.set_pid h .kernel).set_state h .blocking }.set_pc c .idle_push
  | .taken item =>
    let h := m.current_task c
    let pid := item.pid m.tasks
    (({ m with tasks := m.tasks.set_pid h pid }.set_vspace c pid).emit (.handle h item.info)).set_stage h
      (.handle item)
  | .handle item =>
    let h := m.current_task c
    (m.emit (.returned h item.info (item.task.map fun t => (m.tasks t).state))).set_stage h (.handled item)
  | .handled item =>
    let h := m.current_task c
    match item.task with
    | none => m.set_stage h (.dealloc item)
    | some t =>
      let prev_state := (m.tasks t).state
      let m' := m.set_state t prev_state.wake_blocked
      match prev_state with
      | .blocked => m'.set_stage h (.wake item t)
      | .exited => m'.set_stage h (.exited item t)
      | _ => m'.set_pc c (.panicked .trapped_state)
  | .wake item t =>
    let h := m.current_task c
    match m.push_task t with
    | none => m.set_pc c (.panicked .ready_full)
    | some m' => (m'.emit (.push_task h item.info t)).set_stage h (.dealloc item)
  | .exited item t =>
    let h := m.current_task c
    ({ m with admitted := m.admitted.erase t }.emit (.dealloc_task h item.info t)).set_stage h (.dealloc item)
  | .dealloc item =>
    let h := m.current_task c
    (m.emit (.dealloc h item.info)).set_stage h .top

/-- The next access of CPU `c`, where it does not depend on the task or on other CPUs. -/
def next (m : Machine cfg) (c : Cpu cfg) : Option (Machine cfg) :=
  let t := m.current_task c
  match m.pc c with
  | .run => (m.stage t).map fun st => m.handler_next c st
  | .sync_push =>
    match m.push_trap c (some t) with
    | none => some (m.set_pc c (.panicked .trap_full))
    | some m' => some (m'.set_pc c (.sched false))
  | .irq_push scheduler_waiting =>
    match m.push_trap c none with
    | none => some (m.set_pc c (.panicked .trap_full))
    | some m' => some (m'.set_pc c (if scheduler_waiting then .sched false else .irq_state))
  | .irq_state =>
    some ((m.set_state t .ready).set_pc c
      (if (m.tasks t).state = .running then .push_prev else .panicked .task_state))
  | .push_prev =>
    match m.push_task t with
    | none => some (m.set_pc c (.panicked .ready_full))
    | some m' => some (m'.set_pc c (.sched false))
  | .dealloc_prev => some ({ m with admitted := m.admitted.erase t }.set_pc c (.sched false))
  | .idle_handler pid =>
    match get_idle_handler m.idle_handlers m.tasks with
    | none => some (m.set_pc c (.panicked .idle_state))
    | some (.runnable h, rest, ts) =>
      some ({ m with idle_handlers := rest, tasks := ts }.set_pc c (.set_pid h pid))
    | some (.blocking h, rest, ts) =>
      some ({ m with idle_handlers := rest, tasks := ts }.set_pc c (.busy_wait h pid))
    | some (.empty, rest, ts) => some ({ m with idle_handlers := rest, tasks := ts }.set_pc c (.no_handler pid))
  | .busy_wait h pid =>
    some ((m.set_state h (m.tasks h).state.wake_blocked).set_pc c
      (if (m.tasks h).state = .blocked then .set_pid h pid else .busy_wait h pid))
  | .set_pid h pid => some ({ m with tasks := m.tasks.set_pid h pid }.set_pc c (.popped h .kernel))
  | .popped task .kernel => some (((m.set_vspace c (m.tasks task).pid).set_current c task).set_pc c .run_task)
  | .popped task .krun => some ((m.set_current c task).set_pc c .krun_utask)
  | .popped task .user => some ((m.set_current c task).set_pc c .run_task)
  | .run_task => some (m.run_current c)
  | .krun_utask =>
    some (((m.set_state t .running).set_in_kernel c false).set_pc c
      (if (m.tasks t).is_coroutine then .user_run_task else .run))
  | .user_run_task => some (m.run_current c)
  | .wait_context => some ((m.set_current c (m.scheduler_wait_context c)).set_pc c .wait_sleeping)
  | .wait_sleeping => some ((m.set_sleeping c true).set_pc c .wait_check)
  | .wait_clear => some ((m.set_sleeping c false).set_pc c (.sched false))
  | .idle_push =>
    if m.idle_handlers.length < cfg.trap_wait_queue_size then
      some ({ m with idle_handlers := m.idle_handlers ++ [t] }.set_pc c .idle_resched)
    else some (m.set_pc c (.panicked .pool_full))
  | .idle_resched => some ((m.save_context t false).phase2 c)
  | _ => none

/-! ### Runs -/

/-- The steps: of the CPU `c` where one is named, of an OS waker, and the arrival of a task. -/
inductive Act (cfg : Config) where
  | irq (c : Cpu cfg)
  | trap (c : Cpu cfg)
  | set_self (c : Cpu cfg) (st : TaskState)
  | leave (c : Cpu cfg) (is_coroutine : Bool)
  | poll_ready (c : Cpu cfg)
  | arrive (t : TaskPtr) (task : Task cfg)
  | wake (t : TaskPtr)
  | wake_push (t : TaskPtr)
  | pop_ready (c : Cpu cfg) (p : Pid cfg) (l : Level cfg)
  | take_trap (c : Cpu cfg)
  | fail (c : Cpu cfg) (p : Pid cfg)
  | into_kernel (c : Cpu cfg) (p : Pid cfg)
  | new_handler (c : Cpu cfg) (h : TaskPtr) (task : Task cfg)
  | check (c : Cpu cfg) (found : Bool)
  | wait_return (c : Cpu cfg)
  | handle_exits (c : Cpu cfg)
  | next (c : Cpu cfg)
  deriving DecidableEq

def step (m : Machine cfg) : Act cfg → Option (Machine cfg)
  | .irq c => m.irq c
  | .trap c => m.trap c
  | .set_self c st => m.set_self c st
  | .leave c is_coroutine => m.leave c is_coroutine
  | .poll_ready c => m.poll_ready c
  | .arrive t task => m.arrive t task
  | .wake t => some (m.wake t)
  | .wake_push t => m.wake_push t
  | .pop_ready c p l => m.pop_ready c p l
  | .take_trap c => m.take_trap c
  | .fail c p => m.fail c p
  | .into_kernel c p => m.into_kernel c p
  | .new_handler c h task => m.new_handler c h task
  | .check c found => m.check c found
  | .wait_return c => m.wait_return c
  | .handle_exits c => m.handle_exits c
  | .next c => m.next c

end Machine

/-- What the OS hands to `kernel_init_main` and `kernel_init_secondary`: for each CPU the task that
    runs, the wait context and the first trap handler, all of them different tasks. -/
structure Boot (cfg : Config) where
  tasks : Tasks cfg
  init_task : Cpu cfg → TaskPtr
  wait_context : Cpu cfg → TaskPtr
  handlers : Cpu cfg → TaskPtr
  init_inj : Function.Injective init_task
  handlers_inj : Function.Injective handlers
  init_ne_wait : ∀ c d, init_task c ≠ wait_context d
  init_ne_handler : ∀ c d, init_task c ≠ handlers d
  handler_ne_wait : ∀ c d, handlers c ≠ wait_context d
  init_running : ∀ c, (tasks (init_task c)).state = .running
  handlers_kernel : ∀ c, (tasks (handlers c)).is_kernel = true

/-- The system after initialisation: every CPU runs its init task, and the handlers are idle. -/
def Boot.machine (b : Boot cfg) : Machine cfg where
  tasks := fun t => if ∃ c, b.handlers c = t then { b.tasks t with state := .blocked } else b.tasks t
  known := fun t => decide (∃ c, b.init_task c = t ∨ b.wait_context c = t ∨ b.handlers c = t)
  waits := fun _ => false
  stage := fun t => if ∃ c, b.handlers c = t then some .top else none
  ready := fun _ _ => []
  traps := fun _ => []
  idle_handlers := (List.finRange cfg.cpu_num).map b.handlers
  waking := []
  entered := fun _ => false
  admitted := []
  pc := fun _ => .run
  current_task := b.init_task
  scheduler_wait_context := b.wait_context
  is_sleeping := fun _ => false
  in_kernel := fun _ => true
  current_vspace := fun _ => .kernel
  next_info := 0
  log := []

/-- A boot with consecutive pointers, where all tasks are kernel threads. -/
def Boot.plain (cfg : Config) : Boot cfg where
  tasks := fun _ => ⟨.running, cfg.highest_priority, false, true, .kernel⟩
  init_task := fun c => c
  wait_context := fun c => cfg.cpu_num + c
  handlers := fun c => 2 * cfg.cpu_num + c
  init_inj := Fin.val_injective
  handlers_inj := fun c d h => Fin.ext (by simpa using h)
  init_ne_wait := fun c d => Nat.ne_of_lt (Nat.lt_of_lt_of_le c.isLt (Nat.le_add_right _ _))
  init_ne_handler := fun c d => Nat.ne_of_lt (by have := c.isLt; omega)
  handler_ne_wait := fun c d => Nat.ne_of_gt (by have := d.isLt; omega)
  init_running := fun _ => rfl
  handlers_kernel := fun _ => rfl

end Vsched2
