import Mathlib.Algebra.Group.Int.Defs
import Mathlib.Data.Int.Basic
import Mathlib.Data.Fin.Basic
import Mathlib.Logic.Function.Basic

/-! The build-time constants of `build.rs` and what the traits of `interface.rs` say about a task.

    `isize` values are integers: `isize_max` is `isize::MAX` of the target. A priority expression
    such as `63 - prio + HIGHEST_PRIORITY` may leave the `isize` range half way, but its value is
    back in range, so wrapping changes nothing. -/

namespace Vsched2

/-- The configuration the crate is built with. A build with more than 64 levels is refused by the
    assertion in `ReadyQueue::new`, one with `LOWEST_PRIORITY = isize::MAX` by the constant
    `LOWEST_PRIORITY + 1`. -/
structure Config where
  cpu_num : ℕ
  event_sorce_num : ℕ
  ready_queue_size : ℕ
  trap_wait_queue_size : ℕ
  lowest_priority : ℤ
  highest_priority : ℤ
  process_num : ℕ
  isize_max : ℤ
  cpu_pos : 0 < cpu_num
  process_pos : 0 < process_num
  highest_le_lowest : highest_priority ≤ lowest_priority
  levels_le : (lowest_priority - highest_priority).toNat + 1 ≤ 64
  lowest_lt_max : lowest_priority + 1 ≤ isize_max

/-- `PRIORITY_LEVELS`. -/
def Config.priority_levels (cfg : Config) : ℕ :=
  (cfg.lowest_priority - cfg.highest_priority).toNat + 1

abbrev Cpu (cfg : Config) := Fin cfg.cpu_num

/-- An index of `ReadyQueue::queues`. -/
abbrev Level (cfg : Config) := Fin cfg.priority_levels

/-- The priority number of a level. -/
def Level.prio {cfg : Config} (l : Level cfg) : ℤ := cfg.highest_priority + (l : ℕ)

/-- `(prio - HIGHEST_PRIORITY) as usize` as an index; out of range the source panics. -/
def Config.level (cfg : Config) (prio : ℤ) : Option (Level cfg) :=
  if h : (prio - cfg.highest_priority).toNat < cfg.priority_levels ∧ cfg.highest_priority ≤ prio then
    some ⟨(prio - cfg.highest_priority).toNat, h.1⟩
  else none

variable {cfg : Config}

theorem levels_pos : 0 < cfg.priority_levels := Nat.succ_pos _

theorem levels_le_64 : cfg.priority_levels ≤ 64 := cfg.levels_le

/-- The level of `HIGHEST_PRIORITY`. -/
def Level.top : Level cfg := ⟨0, levels_pos⟩

theorem Level.top_prio : (Level.top : Level cfg).prio = cfg.highest_priority := by
  simp [Level.prio, Level.top]

theorem Level.le_top_iff {l : Level cfg} : l ≤ Level.top ↔ l = Level.top := by
  simp [Level.top, Fin.le_def, Fin.ext_iff]

theorem lowest_eq : cfg.lowest_priority + 1 = cfg.highest_priority + cfg.priority_levels := by
  have h := cfg.highest_le_lowest
  simp only [Config.priority_levels]; omega

theorem Level.highest_le (l : Level cfg) : cfg.highest_priority ≤ l.prio := by
  simp only [Level.prio]; omega

theorem Level.prio_le (l : Level cfg) : l.prio ≤ cfg.lowest_priority := by
  have h := @lowest_eq cfg
  have hl := l.isLt
  simp only [Level.prio]; omega

theorem Level.prio_lt_iff {l m : Level cfg} : l.prio < m.prio ↔ l < m := by
  simp only [Level.prio, Fin.lt_def]; omega

theorem Level.prio_inj {l m : Level cfg} : l.prio = m.prio ↔ l = m := by
  simp only [Level.prio, Fin.ext_iff]; omega

theorem level_eq_some {prio : ℤ} {l : Level cfg} : cfg.level prio = some l ↔ prio = l.prio := by
  simp only [Config.level]
  split
  · rename_i h
    simp only [Option.some.injEq, Fin.ext_iff, Level.prio]; omega
  · rename_i h
    have hl := l.isLt
    simp only [Level.prio, reduceCtorEq, false_iff]
    intro heq
    exact h ⟨by omega, by omega⟩

/-- The task states of the trait `Task`. -/
inductive TaskState where | ready | running | blocked | exited | blocking
  deriving DecidableEq, Repr

/-- The pointer of a task. -/
abbrev TaskPtr := ℕ

/-- A process id: an index of `PROCESS_INFO_TABLE`. -/
abbrev Pid (cfg : Config) := Fin cfg.process_num

/-- The kernel's process id, 0. -/
def Pid.kernel {cfg : Config} : Pid cfg := ⟨0, cfg.process_pos⟩

/-- What the getters of the trait `Task` read. -/
structure Task (cfg : Config) where
  state : TaskState
  priority : ℤ
  is_coroutine : Bool
  is_kernel : Bool
  pid : Pid cfg
  deriving DecidableEq

/-- `Task::match_set_state`: the new state chosen by the old one. The source returns the old state;
    here the caller still has it. -/
def TaskState.match_set (from_ready from_running from_blocked from_exited from_blocking : TaskState) :
    TaskState → TaskState
  | .ready => from_ready
  | .running => from_running
  | .blocked => from_blocked
  | .exited => from_exited
  | .blocking => from_blocking

/-- The state map with which a task leaves its CPU, in `thread_entry_phase2` and in the `Pending`
    branch of `run_coroutine`. -/
def TaskState.leave : TaskState → TaskState := TaskState.match_set .ready .blocked .blocked .exited .blocked

/-- The state map with which the wake-up at the end of a trap and the pick-up of an idle handler
    make a task `Ready`. -/
def TaskState.wake_blocked : TaskState → TaskState :=
  TaskState.match_set .ready .running .ready .exited .blocking

/-- The tasks of the system by pointer. -/
abbrev Tasks (cfg : Config) := TaskPtr → Task cfg

/-- `Task::set_state`. -/
def Tasks.set_state (ts : Tasks cfg) (t : TaskPtr) (st : TaskState) : Tasks cfg :=
  Function.update ts t { ts t with state := st }

/-- `Task::set_pid`. -/
def Tasks.set_pid (ts : Tasks cfg) (t : TaskPtr) (pid : Pid cfg) : Tasks cfg :=
  Function.update ts t { ts t with pid := pid }

@[simp] theorem Tasks.set_state_self (ts : Tasks cfg) (t : TaskPtr) (st : TaskState) :
    (ts.set_state t st t).state = st := by simp [Tasks.set_state]

theorem Tasks.set_state_of_ne (ts : Tasks cfg) {t u : TaskPtr} (st : TaskState) (h : u ≠ t) :
    ts.set_state t st u = ts u := by simp [Tasks.set_state, h]

theorem Tasks.set_pid_of_ne (ts : Tasks cfg) {t u : TaskPtr} (pid : Pid cfg) (h : u ≠ t) :
    ts.set_pid t pid u = ts u := by simp [Tasks.set_pid, h]

@[simp] theorem Tasks.set_pid_state (ts : Tasks cfg) (t u : TaskPtr) (pid : Pid cfg) :
    (ts.set_pid t pid u).state = (ts u).state := by
  rcases eq_or_ne u t with rfl | h
  · simp [Tasks.set_pid]
  · simp [Tasks.set_pid, h]

/-- The constants of `build.rs` for `cpu_num` CPUs, on a 64-bit target. -/
def Config.build (cpu_num : ℕ) (h : 0 < cpu_num) : Config where
  cpu_num := cpu_num
  event_sorce_num := 8
  ready_queue_size := 256
  trap_wait_queue_size := 256
  lowest_priority := 15
  highest_priority := 0
  process_num := 256
  isize_max := 2 ^ 63 - 1
  cpu_pos := h
  process_pos := by decide
  highest_le_lowest := by decide
  levels_le := by decide
  lowest_lt_max := by decide

/-- Two CPUs with the default constants. -/
def duo : Config := Config.build 2 (by decide)

def duo_first : Cpu duo := ⟨0, by decide⟩

def duo_second : Cpu duo := ⟨1, by decide⟩

/-- One CPU with the default constants. -/
def solo : Config := Config.build 1 (by decide)

def solo_cpu : Cpu solo := ⟨0, by decide⟩

/-- A process beside the kernel. -/
def solo_pid : Pid solo := ⟨1, by decide⟩

end Vsched2
