import Vsched2.Scheduler
import Vsched2.ProcessInfo

/-! The schedule loop (`main_loop.rs`) over the shared data of `current.rs`, each function run
    without interference from another CPU.

    The scheduler objects are named by the process they belong to. `UserData::get_user_data` is the
    parameter `user_data`: for the value of `CURRENT_VSPACE` it finds the `USER_SCHEDULER` of some
    process. Results `none` are panics, or a busy wait that does not end. -/

namespace Vsched2

/-- The vvar data and the objects it points to; `vspace` is the address space each CPU entered last
    through `VSpace::into_vspace`. -/
structure Kernel (cfg : Config) where
  current_task : Cpu cfg → TaskPtr
  scheduler_wait_context : Cpu cfg → TaskPtr
  is_sleeping : Cpu cfg → Bool
  in_kernel : Cpu cfg → Bool
  current_vspace : Cpu cfg → Pid cfg
  process_info_table : ProcessInfoTable cfg
  schedulers : Pid cfg → Scheduler cfg
  tasks : Tasks cfg
  vspace : Cpu cfg → ℕ

namespace Kernel

variable {cfg : Config}

/-- The published priorities of a process. -/
def row (k : Kernel cfg) (p : Pid cfg) : Row cfg := (k.process_info_table.table p).highest_prio

/-- Stores what an operation on the scheduler of `p` left. -/
def put (k : Kernel cfg) (p : Pid cfg) (s : Scheduler cfg) (ts : Tasks cfg) (row : Row cfg) : Kernel cfg :=
  { k with
    schedulers := Function.update k.schedulers p s
    tasks := ts
    process_info_table := k.process_info_table.set p
      { k.process_info_table.table p with highest_prio := row } }

def set_current_task (k : Kernel cfg) (cpu : Cpu cfg) (task : TaskPtr) : Kernel cfg :=
  { k with current_task := Function.update k.current_task cpu task }

def switch_vspace (k : Kernel cfg) (cpu : Cpu cfg) (vspace_pid : Pid cfg) : Kernel cfg :=
  let prev_vspace_pid := k.current_vspace cpu
  let k' := { k with current_vspace := Function.update k.current_vspace cpu vspace_pid }
  if vspace_pid ≠ prev_vspace_pid then
    let vspace := (k.process_info_table.table vspace_pid).vspace
    if vspace = 0 then k' else { k' with vspace := Function.update k.vspace cpu vspace }
  else k'

/-- `process_schedule` for the scheduler with the global index `pid`. -/
def process_schedule (k : Kernel cfg) (cpu : Cpu cfg) (pid : Pid cfg) : Option (Pid cfg) :=
  k.process_info_table.highest_prio_process pid cpu

/-- `pop_task` of the scheduler of `p`; `fresh` is what `TrapInfo::new_handler` returns. -/
def pop_task (k : Kernel cfg) (cpu : Cpu cfg) (p : Pid cfg) (fresh : TaskPtr × Task cfg) :
    Option (Option TaskPtr × Kernel cfg) :=
  ((k.schedulers p).pop_task k.tasks cpu fresh (k.row p)).map fun r =>
    (r.1.1, k.put p r.2.1.1 r.2.1.2 r.2.2)

/-- `ktask_schedule`: 0 for `run_task`, 1 for `krun_utask`, 2 for no task. -/
def ktask_schedule (user_data : Pid cfg → Pid cfg) (k : Kernel cfg) (cpu : Cpu cfg) (next_pid : Pid cfg)
    (fresh : TaskPtr × Task cfg) : Option (ℕ × Kernel cfg) :=
  if next_pid = .kernel then
    (k.pop_task cpu .kernel fresh).map fun
      | (some next_task, k') =>
        (0, (k'.switch_vspace cpu (k'.tasks next_task).pid).set_current_task cpu next_task)
      | (none, k') => (2, k')
  else
    let k' := k.switch_vspace cpu next_pid
    (k'.pop_task cpu (user_data (k'.current_vspace cpu)) fresh).map fun
      | (some next_task, k'') => (1, k''.set_current_task cpu next_task)
      | (none, k'') => (2, k'')

/-- `wait_for_runnable_task` with the kernel scheduler, up to its normal return. If the second check
    finds nothing the CPU waits, with `IS_SLEEPING` set; when an interrupt is taken there, the call
    does not return and `trap_entry` starts a new `kschedule`. -/
def wait_for_runnable_task (k : Kernel cfg) (cpu : Cpu cfg) : Option (Kernel cfg) :=
  let wait_context := k.scheduler_wait_context cpu
  if wait_context = 0 then none
  else
    let k' := { k.set_current_task cpu wait_context with
      is_sleeping := Function.update k.is_sleeping cpu true }
    (k'.process_schedule cpu .kernel).map fun next_pid =>
      if k'.row next_pid cpu ≤ cfg.lowest_priority then
        { k' with is_sleeping := Function.update k'.is_sleeping cpu false }
      else k'

/-- One round of the loop of `kschedule`: selection of a process and of a task. -/
def kround (user_data : Pid cfg → Pid cfg) (k : Kernel cfg) (cpu : Cpu cfg) (fresh : TaskPtr × Task cfg) :
    Option (ℕ × Kernel cfg) :=
  (k.process_schedule cpu .kernel).bind fun next_pid => ktask_schedule user_data k cpu next_pid fresh

/-- `kschedule`. The fuel bounds the rounds of its loop. -/
def kschedule (user_data : Pid cfg → Pid cfg) (cpu : Cpu cfg) (fresh : TaskPtr × Task cfg) :
    ℕ → Kernel cfg → Option (ℕ × Kernel cfg)
  | 0, _ => none
  | fuel + 1, k =>
    (kround user_data k cpu fresh).bind fun r =>
      if r.1 ≠ 2 then some r
      else (r.2.wait_for_runnable_task cpu).bind fun k' => kschedule user_data cpu fresh fuel k'

/-- `process_init`; `none` is its panic when the table is full. The scheduler of the address space
    is the one of the new process. -/
def process_init (k : Kernel cfg) (vspace : ℕ) : Option (Pid cfg × Kernel cfg) :=
  match k.process_info_table.register_process with
  | (none, _) => none
  | (some pid, t) =>
    some (pid, { k with
      schedulers := Function.update k.schedulers pid .new
      process_info_table := t.set pid { t.table pid with vspace := vspace, scheduler := some pid } })

/-- The sources of the scheduler of `p`: the second half of `Scheduler::init` for the kernel and
    `user_init` for a user process. -/
def init_sources (k : Kernel cfg) (cpu : Cpu cfg) (p : Pid cfg) (handlers : Cpu cfg → TaskPtr) :
    Option (Kernel cfg) :=
  ((k.schedulers p).init_sources k.tasks cpu handlers (k.row p)).map fun r => k.put p r.1 r.2.1 r.2.2

/-- The state before `kernel_init_main` initialises the scheduler; the secondary CPUs have the same
    values stored by `kernel_init_secondary`. -/
def boot (tasks : Tasks cfg) (init_task wait_context : Cpu cfg → TaskPtr) : Kernel cfg where
  current_task := init_task
  scheduler_wait_context := wait_context
  is_sleeping := fun _ => false
  in_kernel := fun _ => true
  current_vspace := fun _ => .kernel
  process_info_table := .default
  schedulers := fun _ => .new
  tasks := tasks
  vspace := fun _ => 0

/-- `kernel_init_main` on `cpu`. -/
def kernel_init_main (tasks : Tasks cfg) (init_task wait_context : Cpu cfg → TaskPtr) (cpu : Cpu cfg)
    (handlers : Cpu cfg → TaskPtr) : Option (Kernel cfg) :=
  (boot tasks init_task wait_context).init_sources cpu .kernel handlers

/-! ### The user side -/

/-- `utask_schedule` in the process `current_pid`: 0 for `run_task`, 1 for no task, `none` when the
    call went to `into_kernel`. -/
def utask_schedule (k : Kernel cfg) (cpu : Cpu cfg) (current_pid next_pid : Pid cfg)
    (fresh : TaskPtr × Task cfg) : Option (Option ℕ × Kernel cfg) :=
  if next_pid = current_pid then
    (k.pop_task cpu current_pid fresh).map fun
      | (some next_task, k') => (some 0, k'.set_current_task cpu next_task)
      | (none, k') => (some 1, k')
  else some (none, { k with current_vspace := Function.update k.current_vspace cpu next_pid })

/-- `trap_entry(2, 0)`, which returns 3 for `utok_schedule`. -/
def trap_entry_into_kernel (k : Kernel cfg) (cpu : Cpu cfg) : ℕ × Kernel cfg :=
  (3, { k with in_kernel := Function.update k.in_kernel cpu true })

/-! ### What the operations leave unchanged -/

variable {k : Kernel cfg} {cpu : Cpu cfg}

@[simp] theorem row_put_self (k : Kernel cfg) (p : Pid cfg) (s : Scheduler cfg) (ts : Tasks cfg)
    (row : Row cfg) : (k.put p s ts row).row p = row := by
  simp [Kernel.row, put, ProcessInfoTable.set]

theorem row_put_of_ne (k : Kernel cfg) {p q : Pid cfg} (h : q ≠ p) (s : Scheduler cfg)
    (ts : Tasks cfg) (row : Row cfg) : (k.put p s ts row).row q = k.row q := by
  simp [Kernel.row, put, ProcessInfoTable.set, h]

@[simp] theorem schedulers_put_self (k : Kernel cfg) (p : Pid cfg) (s : Scheduler cfg) (ts : Tasks cfg)
    (row : Row cfg) : (k.put p s ts row).schedulers p = s := by
  simp [put]

theorem schedulers_put_of_ne (k : Kernel cfg) {p q : Pid cfg} (h : q ≠ p) (s : Scheduler cfg)
    (ts : Tasks cfg) (row : Row cfg) : (k.put p s ts row).schedulers q = k.schedulers q := by
  simp [put, h]

/-- Publishing priorities changes nothing else in the table. -/
theorem table_put (k : Kernel cfg) (p q : Pid cfg) (s : Scheduler cfg) (ts : Tasks cfg) (row : Row cfg) :
    ((k.put p s ts row).process_info_table.table q).valid = (k.process_info_table.table q).valid ∧
    ((k.put p s ts row).process_info_table.table q).vspace = (k.process_info_table.table q).vspace := by
  rcases eq_or_ne q p with rfl | h
  · simp [put, ProcessInfoTable.set]
  · simp [put, ProcessInfoTable.set, h]

@[simp] theorem switch_vspace_table (k : Kernel cfg) (cpu : Cpu cfg) (p : Pid cfg) :
    (k.switch_vspace cpu p).process_info_table = k.process_info_table := by
  simp only [switch_vspace]; split_ifs <;> rfl

@[simp] theorem switch_vspace_schedulers (k : Kernel cfg) (cpu : Cpu cfg) (p : Pid cfg) :
    (k.switch_vspace cpu p).schedulers = k.schedulers := by
  simp only [switch_vspace]; split_ifs <;> rfl

@[simp] theorem switch_vspace_tasks (k : Kernel cfg) (cpu : Cpu cfg) (p : Pid cfg) :
    (k.switch_vspace cpu p).tasks = k.tasks := by
  simp only [switch_vspace]; split_ifs <;> rfl

@[simp] theorem switch_vspace_current (k : Kernel cfg) (cpu : Cpu cfg) (p : Pid cfg) :
    (k.switch_vspace cpu p).current_vspace cpu = p := by
  simp only [switch_vspace]; split_ifs <;> simp

/-- Waiting touches CURRENT_TASK and IS_SLEEPING only. -/
theorem wait_unchanged {k' : Kernel cfg} (h : k.wait_for_runnable_task cpu = some k') :
    k'.process_info_table = k.process_info_table ∧ k'.schedulers = k.schedulers ∧ k'.tasks = k.tasks ∧
      k'.current_vspace = k.current_vspace ∧ k'.vspace = k.vspace := by
  simp only [wait_for_runnable_task] at h
  split at h
  · simp at h
  · simp only [Option.map_eq_some_iff] at h
    obtain ⟨next_pid, -, rfl⟩ := h
    split <;> exact ⟨rfl, rfl, rfl, rfl, rfl⟩

end Kernel

end Vsched2
