import Vsched2.Interface

/-! The trap wait queue (`schedule/trap_wait_queue.rs`): the pending traps of every CPU and the pool
    of idle trap handlers all CPUs share. Here its operations run one at a time, so the busy wait of
    `take_task` on a handler that is still `Blocking` does not end. -/

namespace Vsched2

/-- `TrapItem`: the trap information and the trapped task, if the trap has one. -/
structure TrapItem where
  info : ℕ
  task : Option TaskPtr
  deriving DecidableEq, Repr

variable {cfg : Config}

/-- `task.map_or(0, Task::pid)`. -/
def TrapItem.pid (item : TrapItem) (ts : Tasks cfg) : Pid cfg :=
  item.task.elim .kernel fun t => (ts t).pid

/-- `INACTIVE_PRIORITY`. -/
def Config.inactive_priority (cfg : Config) : ℤ := cfg.lowest_priority + 1

/-- `ACTIVE_PRIORITY`. -/
def Config.active_priority (cfg : Config) : ℤ := cfg.highest_priority

structure TrapWaitQueue (cfg : Config) where
  queues : Cpu cfg → List TrapItem
  idle_handlers : List TaskPtr

inductive IdleHandler where
  | runnable (handler : TaskPtr)
  | blocking (handler : TaskPtr)
  | empty
  deriving DecidableEq, Repr

/-- `get_idle_handler`; `none` is its panic. The loop ends in its first round on every branch. -/
def get_idle_handler (idle : List TaskPtr) (ts : Tasks cfg) :
    Option (IdleHandler × List TaskPtr × Tasks cfg) :=
  match idle with
  | [] => some (.empty, [], ts)
  | handler :: rest =>
    let ts' := ts.set_state handler (ts handler).state.wake_blocked
    match (ts handler).state with
    | .blocked => some (.runnable handler, rest, ts')
    | .blocking => some (.blocking handler, rest, ts')
    | _ => none

/-- `create_new_handler`; `none` is its panic. -/
def create_new_handler (handler : TaskPtr) (ts : Tasks cfg) : Option (Tasks cfg) :=
  match (ts handler).state with
  | .ready | .blocked =>
    some (ts.set_state handler (TaskState.match_set .ready .running .ready .exited .ready (ts handler).state))
  | _ => none

namespace TrapWaitQueue

def new : TrapWaitQueue cfg where
  queues := fun _ => []
  idle_handlers := []

/-- `init` with the tasks `TrapInfo::new_handler` returns in turn; `none` is a full pool. -/
def init (q : TrapWaitQueue cfg) (ts : Tasks cfg) (handlers : Cpu cfg → TaskPtr) :
    Option (TrapWaitQueue cfg × Tasks cfg) :=
  if q.idle_handlers.length + cfg.cpu_num ≤ cfg.trap_wait_queue_size then
    some ({ q with idle_handlers := q.idle_handlers ++ (List.finRange cfg.cpu_num).map handlers },
      (List.finRange cfg.cpu_num).foldl (fun ts cpu => ts.set_state (handlers cpu) .blocked) ts)
  else none

def push_trap (q : TrapWaitQueue cfg) (item : TrapItem) (cpuid : Cpu cfg) :
    Except TrapItem (TrapWaitQueue cfg) :=
  if (q.queues cpuid).length < cfg.trap_wait_queue_size then
    .ok { q with queues := Function.update q.queues cpuid (q.queues cpuid ++ [item]) }
  else .error item

def hightest_priority (q : TrapWaitQueue cfg) (cpu : Cpu cfg) : ℤ :=
  if (q.queues cpu).isEmpty then cfg.inactive_priority else cfg.active_priority

/-- `take_task`. `fresh` is the task `TrapInfo::new_handler` returns if the pool is empty; `none` is
    a panic or the endless busy wait. The trap stays in its queue for the handler to remove. -/
def take_task (q : TrapWaitQueue cfg) (ts : Tasks cfg) (cpu : Cpu cfg) (fresh : TaskPtr × Task cfg) :
    Option ((Option TaskPtr × ℤ) × TrapWaitQueue cfg × Tasks cfg) :=
  match q.queues cpu with
  | [] => some ((none, cfg.inactive_priority), q, ts)
  | item :: _ =>
    let pid := item.pid ts
    match get_idle_handler q.idle_handlers ts with
    | none => none
    | some (.runnable handler, rest, ts') =>
      some ((some handler, cfg.active_priority), { q with idle_handlers := rest }, ts'.set_pid handler pid)
    | some (.blocking _, _, _) => none
    | some (.empty, rest, ts') =>
      (create_new_handler fresh.1 (Function.update ts' fresh.1 fresh.2)).map fun ts'' =>
        ((some fresh.1, cfg.active_priority), { q with idle_handlers := rest }, ts''.set_pid fresh.1 pid)

/-- The removal at the top of the loop of `trap_handler`: the first trap, and whether the queue has
    just become empty. -/
def pop_trap (q : TrapWaitQueue cfg) (cpu : Cpu cfg) : Option (TrapItem × Bool) × TrapWaitQueue cfg :=
  match q.queues cpu with
  | [] => (none, q)
  | item :: rest =>
    (some (item, rest.isEmpty), { q with queues := Function.update q.queues cpu rest })

/-- `reschedule_handler` up to its `resched`; `none` is the panic of a full pool. -/
def reschedule_handler (q : TrapWaitQueue cfg) (ts : Tasks cfg) (handler : TaskPtr) :
    Option (TrapWaitQueue cfg × Tasks cfg) :=
  if q.idle_handlers.length < cfg.trap_wait_queue_size then
    some ({ q with idle_handlers := q.idle_handlers ++ [handler] },
      (ts.set_pid handler .kernel).set_state handler .blocking)
  else none

/-! ### What `take_task` changes -/

theorem take_task_nil {q : TrapWaitQueue cfg} {cpu : Cpu cfg} (h : q.queues cpu = [])
    (ts : Tasks cfg) (fresh : TaskPtr × Task cfg) :
    q.take_task ts cpu fresh = some ((none, cfg.inactive_priority), q, ts) := by
  simp [take_task, h]

/-- With a trap pending `take_task` hands out a handler, reports `ACTIVE_PRIORITY` and leaves the
    traps where they are. -/
theorem take_task_cons {q q' : TrapWaitQueue cfg} {cpu : Cpu cfg} (h : q.queues cpu ≠ [])
    {ts ts' : Tasks cfg} {fresh : TaskPtr × Task cfg} {task : Option TaskPtr} {prio : ℤ}
    (ht : q.take_task ts cpu fresh = some ((task, prio), q', ts')) :
    (∃ handler, task = some handler) ∧ prio = cfg.active_priority ∧ q'.queues = q.queues := by
  obtain ⟨item, rest, hq⟩ := List.exists_cons_of_ne_nil h
  simp only [take_task, hq] at ht
  split at ht
  · simp at ht
  · simp only [Option.some.injEq, Prod.mk.injEq] at ht
    obtain ⟨⟨rfl, rfl⟩, rfl, -⟩ := ht
    exact ⟨⟨_, rfl⟩, rfl, rfl⟩
  · simp at ht
  · simp only [Option.map_eq_some_iff, Prod.mk.injEq] at ht
    obtain ⟨_, -, ⟨rfl, rfl⟩, rfl, -⟩ := ht
    exact ⟨⟨_, rfl⟩, rfl, rfl⟩

/-- `take_task` only takes the first idle handler away, and changes no other task than the handler it
    hands out: that handler, or the new one if the pool is empty. -/
theorem take_task_idle {q q' : TrapWaitQueue cfg} {cpu : Cpu cfg} {ts ts' : Tasks cfg}
    {fresh : TaskPtr × Task cfg} {r : Option TaskPtr × ℤ}
    (ht : q.take_task ts cpu fresh = some (r, q', ts')) :
    (q'.idle_handlers = q.idle_handlers ∧ ts' = ts) ∨
    (q.idle_handlers = [] ∧ q'.idle_handlers = []) ∨
    ∃ handler, q.idle_handlers = handler :: q'.idle_handlers ∧
      (∀ t, t ≠ handler → ts' t = ts t) := by
  simp only [take_task] at ht
  split at ht
  · obtain ⟨-, rfl, rfl⟩ := by simpa using ht
    exact Or.inl ⟨rfl, rfl⟩
  · cases hidle : q.idle_handlers with
    | nil =>
      simp only [hidle, get_idle_handler, Option.map_eq_some_iff, Prod.mk.injEq] at ht
      obtain ⟨_, -, -, rfl, -⟩ := ht
      exact Or.inr (Or.inl ⟨rfl, rfl⟩)
    | cons handler rest =>
      right; right
      simp only [hidle, get_idle_handler] at ht
      cases hst : (ts handler).state <;> simp only [hst] at ht <;> try simp at ht
      obtain ⟨-, rfl, rfl⟩ := ht
      refine ⟨handler, rfl, fun t hne => ?_⟩
      rw [Tasks.set_pid_of_ne _ _ hne, Tasks.set_state_of_ne _ _ hne]

/-- With a trap pending and the first idle handler `Blocked`, `take_task` returns a handler. -/
theorem take_task_first {q : TrapWaitQueue cfg} {cpu : Cpu cfg} (h : q.queues cpu ≠ [])
    {ts : Tasks cfg} (hidle : ∀ t ∈ q.idle_handlers.head?, (ts t).state = .blocked)
    {fresh : TaskPtr × Task cfg}
    (hfresh : q.idle_handlers = [] → fresh.2.state = .ready ∨ fresh.2.state = .blocked) :
    ∃ handler q' ts', q.take_task ts cpu fresh = some ((some handler, cfg.active_priority), q', ts') := by
  obtain ⟨item, rest, hq⟩ := List.exists_cons_of_ne_nil h
  cases hpool : q.idle_handlers with
  | nil =>
    rcases hfresh hpool with hst | hst <;>
      simp [take_task, hq, get_idle_handler, hpool, create_new_handler, hst]
  | cons handler others =>
    have hst := hidle handler (by simp [hpool])
    simp [take_task, hq, get_idle_handler, hpool, hst]

/-- With a trap pending and every idle handler `Blocked`, `take_task` returns a handler. -/
theorem take_task_isSome {q : TrapWaitQueue cfg} {cpu : Cpu cfg} (h : q.queues cpu ≠ [])
    {ts : Tasks cfg} (hidle : ∀ t ∈ q.idle_handlers, (ts t).state = .blocked)
    {fresh : TaskPtr × Task cfg} (hfresh : fresh.2.state = .ready ∨ fresh.2.state = .blocked) :
    ∃ handler q' ts', q.take_task ts cpu fresh = some ((some handler, cfg.active_priority), q', ts') :=
  take_task_first h (fun t ht => hidle t (List.mem_of_mem_head? ht)) fun _ => hfresh

end TrapWaitQueue

end Vsched2
