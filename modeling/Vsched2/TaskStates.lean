import Vsched2.Ownership

/-! The assertions on the state of a task in `run_coroutine`, `run_thread` and `trap_entry`.

    They hold on every path but one: `krun_utask` sets a user coroutine `Running` and enters
    `run_task` in user mode, where `run_coroutine` expects `Ready` or `Blocked`. -/

namespace Vsched2

theorem Flow.not_to_user_run_task {cfg : Config} {pc : Pc cfg} (h : Flow pc .user_run_task) : False := by
  cases h with
  | leave _ h' => simp at h'

namespace TaskStates

open Machine

variable {cfg : Config} {m m' : Machine cfg} {c : Cpu cfg}

/-- `krun_utask` is not entered with a coroutine. -/
def ThreadsOnly (m : Machine cfg) (a : Act cfg) : Prop :=
  ∀ c, a.cpu = some c → m.pc c = .krun_utask → (m.tasks (m.current_task c)).is_coroutine = false

instance (m : Machine cfg) (a : Act cfg) : Decidable (ThreadsOnly m a) :=
  inferInstanceAs (Decidable (∀ c, a.cpu = some c → m.pc c = .krun_utask →
    (m.tasks (m.current_task c)).is_coroutine = false))

/-- No CPU has stopped at one of the assertions, and none is on the path that fails. -/
structure Holds (m : Machine cfg) : Prop where
  inv : Inv m
  not_user : ∀ c, m.pc c ≠ .user_run_task
  not_panicked : ∀ c, m.pc c ≠ .panicked .task_state

/-- The only way to the second `run_task` of a dispatch. -/
theorem user_run_task_from {a : Act cfg} (hs : m.step a = some m') (hc : m'.pc c = .user_run_task) :
    m.pc c = .user_run_task ∨
    a.cpu = some c ∧ m.pc c = .krun_utask ∧ (m.tasks (m.current_task c)).is_coroutine = true := by
  change (m'.loc c).pc = _ at hc
  rcases step_loc hs c with heq | ⟨ha, hmove⟩
  · rw [heq] at hc
    exact Or.inl hc
  · right
    generalize m'.loc c = l at hmove hc
    cases hmove with
    | flow hf =>
      obtain rfl := hc
      exact hf.not_to_user_run_task.elim
    | set_current t target pc' _ h => rcases h with rfl | rfl <;> simp at hc
    | take_idle g pid pc' _ _ h => rcases h with rfl | rfl <;> simp at hc
    | krun_utask hpc =>
      by_cases hco : (m.tasks (m.current_task c)).is_coroutine = true
      · exact ⟨ha, hpc, hco⟩
      · simp [hco] at hc
    | _ => simp at hc

/-- Off that path no assertion on a task's state has a cause to fail. -/
theorem no_cause (hI : Inv m) (hu : m.pc c ≠ .user_run_task) : ¬ Cause m c .task_state := by
  intro hcause
  cases hcause with
  | trap_state hcode h => exact h (hI.run_state (run_of_in_code hcode)).1
  | irq_state hpc h => exact h (hI.state_at hpc rfl (by simp)).1
  | run_state hpc h => exact h (hI.state_at (hpc.resolve_right hu) rfl (by simp)).1

theorem step_holds {a : Act cfg} (hH : Holds m) (ha : ThreadsOnly m a) (hs : m.step a = some m') : Holds m' where
  inv := step_inv hH.inv hs
  not_user := by
    intro c hc
    rcases user_run_task_from hs hc with hc | ⟨hcpu, hpc, hco⟩
    · exact hH.not_user c hc
    · simp [ha c hcpu hpc] at hco
  not_panicked := by
    intro c hc
    rcases panic_cause hs hc with hc | hcause
    · exact hH.not_panicked c hc
    · exact no_cause hH.inv (hH.not_user c) hcause

/-- The task of a CPU on that path is `Running`: its next access is the failing assertion. -/
theorem user_run_task_panics (hI : Inv m) (hpc : m.pc c = .user_run_task) (hs : m.step (.next c) = some m') :
    m'.pc c = .panicked .task_state := by
  have hst := (hI.state_at hpc rfl (by simp)).1
  simp only [step, next, hpc, run_current, hst] at hs
  rw [← Option.some.inj hs]
  simp [set_pc]

/-- In every run that never enters `krun_utask` with a coroutine no assertion on a task's state
    fails; and where `krun_utask` has been entered with one, the CPU's next access fails. -/
theorem task_state_assertions (b : Boot cfg) (acts : List (Act cfg)) (m : Machine cfg)
    (hrun : Runs.run step b.machine acts = some m) :
    (Runs.Along step ThreadsOnly b.machine acts → ∀ c, m.pc c ≠ .panicked .task_state) ∧
    (∀ c m', m.pc c = .user_run_task → m.step (.next c) = some m' → m'.pc c = .panicked .task_state) := by
  constructor
  · intro halong
    have hstart : Holds b.machine := ⟨b.inv, fun c => by simp [Boot.machine], fun c => by simp [Boot.machine]⟩
    have hH : Holds m := Runs.along_invariant (fun _ _ _ hH ha hs => step_holds hH ha hs) acts hstart halong hrun
    exact hH.not_panicked
  · intro c m' hpc hs
    exact user_run_task_panics (b.run_inv hrun) hpc hs

/-- A user task of process 1. -/
def user_task (is_coroutine : Bool) : Task solo := ⟨.ready, 0, is_coroutine, false, solo_pid⟩

/-- The init task is interrupted, and the user task 10 is dispatched by the kernel. -/
def dispatch (is_coroutine : Bool) : List (Act solo) :=
  [.arrive 10 (user_task is_coroutine), .irq solo_cpu, .next solo_cpu, .next solo_cpu, .next solo_cpu,
    .pop_ready solo_cpu solo_pid .top, .next solo_cpu, .next solo_cpu]

theorem task_state_assertions_thread : ∃ m : Machine solo,
    Runs.run step (Boot.plain solo).machine (dispatch false) = some m ∧ m.current_task solo_cpu = 10 ∧
    ∀ c, m.pc c ≠ .panicked .task_state := by
  have hrun : ((Runs.run step (Boot.plain solo).machine (dispatch false)).map fun m =>
      m.current_task solo_cpu) = some 10 := by decide +kernel
  obtain ⟨m, hm, hcur⟩ := Option.map_eq_some_iff.mp hrun
  exact ⟨m, hm, hcur, (task_state_assertions (Boot.plain solo) (dispatch false) m hm).1 (by decide +kernel)⟩

/-- A user coroutine does not survive its first dispatch. -/
theorem coroutine_dispatch_panics : ∃ m : Machine solo,
    Runs.run step (Boot.plain solo).machine (dispatch true ++ [.next solo_cpu]) = some m ∧
    m.pc solo_cpu = .panicked .task_state := by
  have hrun : ((Runs.run step (Boot.plain solo).machine (dispatch true ++ [.next solo_cpu])).map fun m =>
      decide (m.pc solo_cpu = .panicked .task_state)) = some true := by decide +kernel
  obtain ⟨m, hm, hpc⟩ := Option.map_eq_some_iff.mp hrun
  exact ⟨m, hm, of_decide_eq_true hpc⟩

end TaskStates

end Vsched2
