import Vsched2.Admission
import Vsched2.TaskStates

/-! Kernel tasks run in the kernel and user tasks in user mode.

    `Fits` says what IN_KERNEL is at each place a CPU can stand at. A ready queue of the kernel holds
    kernel tasks only and one of a process its user tasks only, so that a dispatch in either mode finds
    a task of that mode. -/

namespace Vsched2

variable {cfg : Config}

/-- The task a CPU runs or is about to run. -/
def Pc.runs (current : TaskPtr) : Pc cfg → Option TaskPtr
  | .run | .own | .krun_utask | .run_task | .user_run_task | .idle_push | .idle_resched => some current
  | .popped t _ => some t
  | _ => none

/-- IN_KERNEL at the places of a CPU. After a task has left, and after a stop, nothing is known. -/
def Local.Fits (l : Local cfg) (tasks : Tasks cfg) : Prop :=
  match l.pc with
  | .run | .own | .run_task | .user_run_task | .idle_push | .idle_resched =>
    l.in_kernel = (tasks l.current_task).is_kernel
  | .krun_utask => l.in_kernel = true ∧ (tasks l.current_task).is_kernel = false
  | .popped t .kernel => l.in_kernel = true ∧ (tasks t).is_kernel = true
  | .popped t .krun => l.in_kernel = true ∧ (tasks t).is_kernel = false
  | .popped t .user => l.in_kernel = false ∧ (tasks t).is_kernel = false
  | .push_prev | .dealloc_prev | .sched _ | .panicked _ => True
  | _ => l.in_kernel = true

theorem Local.Fits.congr {l : Local cfg} {ts ts' : Tasks cfg} (h : l.Fits ts)
    (heq : ∀ t, l.pc.runs l.current_task = some t → (ts' t).is_kernel = (ts t).is_kernel) : l.Fits ts' := by
  obtain ⟨pc, current, sleeping, k⟩ := l
  cases pc with
  | popped t target =>
    have ht := heq t rfl
    cases target <;> simpa only [Local.Fits, ht] using h
  | run | own | krun_utask | run_task | user_run_task | idle_push | idle_resched =>
    have ht := heq current rfl
    simpa only [Local.Fits, ht] using h
  | _ => exact h

namespace Machine

variable {m m' : Machine cfg} {a : Act cfg} {c d : Cpu cfg} {t : TaskPtr}

/-- The task that arrives. -/
def Act.arrives : Act cfg → Option (Task cfg)
  | .arrive _ task => some task
  | _ => none

/-- A user task that arrives belongs to a process, not to the kernel. -/
def UserPids (_ : Machine cfg) (a : Act cfg) : Prop :=
  ∀ task ∈ a.arrives, task.is_kernel = false → task.pid ≠ .kernel

instance (m : Machine cfg) (a : Act cfg) : Decidable (UserPids m a) :=
  inferInstanceAs (Decidable (∀ task ∈ a.arrives, task.is_kernel = false → task.pid ≠ .kernel))

structure Privileged (m : Machine cfg) : Prop where
  inv : Inv m
  staffed : Staffed m
  user : ∀ t, m.known t = true → (m.tasks t).is_kernel = false → (m.tasks t).pid ≠ .kernel
  ready : ∀ t p l, t ∈ m.ready p l → (m.tasks t).home = p
  fits : ∀ c, (m.loc c).Fits m.tasks

/-! ### The tasks -/

theorem Inv.known_of_owner (hI : Inv m) (ho : m.owner c = some t) : m.known t = true := by
  cases hk : m.known t with
  | true => rfl
  | false =>
    obtain ⟨st, hv⟩ := (hI.legit t).of_unknown hk
    simpa [hv] using view_cpu_self ho

theorem Inv.known_of_ready {p : Pid cfg} {l : Level cfg} (hI : Inv m) (hmem : t ∈ m.ready p l) : m.known t = true :=
  congrArg View.known (Exclusivity.ready_view hI hmem)

/-- No step changes the mode of a task, nor the process of a user task. -/
theorem step_home (hP : Privileged m) (hs : m.step a = some m') (hk : m.known t = true) :
    (m'.tasks t).home = (m.tasks t).home := by
  have hd := step_data hP.staffed hs hk
  cases hker : (m.tasks t).is_kernel with
  | true => simp [Task.home, hd.is_kernel, hker]
  | false =>
    have hst : m.stage t = none := by
      by_contra hst
      simp [hP.staffed.kernel t hst] at hker
    simp [Task.home, hd.is_kernel, hker, hd.pid hst]

/-- Where a new task comes from. -/
theorem step_new (hs : m.step a = some m') (hk : m.known t = false) (hk' : m'.known t = true) :
    (∃ task, a = .arrive t task ∧ m'.tasks t = task) ∨
    ((m'.tasks t).is_kernel = true ∧ ∃ c task, a = .new_handler c t task) := by
  cases step_staging hs with
  | same hkn _ => simp [hkn, hk] at hk'
  | advance c st _ _ _ hm => simp [hm, (handler_next_kept m c st).1, hk] at hk'
  | arrive u task ha _ hkn _ =>
    have htu : t = u := by
      by_contra hne
      simp [hkn, hne, hk] at hk'
    subst ha htu
    simp only [step, arrive] at hs
    split at hs
    · obtain ⟨m₁, hp, rfl⟩ := Option.map_eq_some_iff.mp hs
      obtain ⟨l, -, -, rfl⟩ := push_task_eq_some hp
      exact Or.inl ⟨task, rfl, by simp [set_ready, create]⟩
    · cases hs
  | new_handler c u task ha _ hker hkn _ =>
    have htu : t = u := by
      by_contra hne
      simp [hkn, hne, hk] at hk'
    subst htu
    exact Or.inr ⟨hker, c, task, ha⟩

theorem step_user (hP : Privileged m) (ha : UserPids m a) (hs : m.step a = some m') (hk' : m'.known t = true)
    (hu : (m'.tasks t).is_kernel = false) : (m'.tasks t).pid ≠ .kernel := by
  cases hk : m.known t with
  | true =>
    have hu₀ : (m.tasks t).is_kernel = false := (step_data hP.staffed hs hk).is_kernel.symm.trans hu
    have hhome := step_home hP hs hk
    simp only [Task.home, hu, hu₀, Bool.false_eq_true, if_false] at hhome
    rw [hhome]
    exact hP.user t hk hu₀
  | false =>
    rcases step_new hs hk hk' with ⟨task, rfl, rfl⟩ | ⟨hker, -⟩
    · exact ha _ rfl hu
    · simp [hker] at hu

theorem step_ready_home {p : Pid cfg} {l : Level cfg} (hP : Privileged m) (hs : m.step a = some m')
    (hmem : t ∈ m'.ready p l) : (m'.tasks t).home = p := by
  rcases step_ready hs hmem with h | ⟨he, hp, -⟩ | ⟨-, hp, -⟩
  · rw [step_home hP hs (hP.inv.known_of_ready h)]
    exact hP.ready t p l h
  · cases hk : m.known t with
    | true => rw [step_home hP hs hk, hp]
    | false =>
      have hk' := (step_inv hP.inv hs).known_of_ready hmem
      rcases step_new hs hk hk' with ⟨task, rfl, -⟩ | ⟨-, c, task, rfl⟩ <;> simp [enqueues] at he
  · exact hp

/-! ### The CPUs -/

theorem Pc.owner_of_runs {current : TaskPtr} {pc : Pc cfg} (h : pc.runs current = some t) :
    pc.owner current = some t := by
  cases pc with
  | run | own | krun_utask | run_task | user_run_task | idle_push | idle_resched | popped _ _ => exact h
  | _ => cases h

/-- The task a CPU runs after one of its steps existed before. -/
theorem known_of_runs (hP : Privileged m) (hs : m.step a = some m') (ha : a.cpu = some c)
    (ht : (m'.pc c).runs (m'.current_task c) = some t) : m.known t = true := by
  have hk' := (step_inv hP.inv hs).known_of_owner (Pc.owner_of_runs ht)
  by_contra hk
  rcases step_new hs (by simpa using hk) hk' with ⟨task, rfl, -⟩ | ⟨-, d, task, rfl⟩
  · cases ha
  · obtain rfl := Option.some.inj ha
    simp only [step, new_handler] at hs
    repeat' split at hs
    · simp [← Option.some.inj hs, set_pc, Pc.runs] at ht
    · simp [← Option.some.inj hs, set_pc, Pc.runs] at ht
    · cases hs
    · cases hs

/-- The steps of a CPU at the head of the loop. -/
theorem sched_cases {b : Bool} (hs : m.step a = some m') (ha : a.cpu = some c) (hpc : m.pc c = .sched b) :
    (∃ p l, a = .pop_ready c p l) ∨ a = .take_trap c ∨ (∃ p, a = .fail c p) ∨ ∃ p, a = .into_kernel c p := by
  cases a <;> simp only [Act.cpu, Option.some.injEq, reduceCtorEq] at ha <;> subst ha
  case pop_ready p l => exact Or.inl ⟨p, l, rfl⟩
  case take_trap => exact Or.inr (Or.inl rfl)
  case fail p => exact Or.inr (Or.inr (Or.inl ⟨p, rfl⟩))
  case into_kernel p => exact Or.inr (Or.inr (Or.inr ⟨p, rfl⟩))
  all_goals
    simp [step, irq, trap, set_self, leave, poll_ready, new_handler, check, wait_return, handle_exits, next, in_code,
      hpc] at hs

theorem pop_ready_fits {p : Pid cfg} {l : Level cfg} (hP : Privileged m) (hs : m.pop_ready c p l = some m') :
    (m'.loc c).Fits m.tasks := by
  simp only [pop_ready] at hs
  split at hs
  · rename_i b t rest hpc hq
    have hmem : t ∈ m.ready p l := by simp [hq]
    have hhome := hP.ready t p l hmem
    have hk := hP.inv.known_of_ready hmem
    have huser : p ≠ .kernel → (m.tasks t).is_kernel = false := by
      intro hp
      by_contra hker
      exact hp (by rw [← hhome, Task.home, if_pos (by simpa using hker)])
    split at hs
    · rename_i hin
      split at hs
      · rename_i hp
        have hker : (m.tasks t).is_kernel = true := by
          by_contra hker
          have hf : (m.tasks t).is_kernel = false := by simpa using hker
          rw [Task.home, hf, if_neg (by simp), hp] at hhome
          exact hP.user t hk hf hhome
        rw [← Option.some.inj hs, loc_set_pc]
        exact ⟨hin, hker⟩
      · rename_i hp
        rw [← Option.some.inj hs, loc_set_pc]
        exact ⟨hin, huser hp⟩
    · rename_i hin
      split at hs
      · rename_i hp
        rw [← Option.some.inj hs, loc_set_pc]
        exact ⟨by simpa [loc, set_ready] using hin, huser hp⟩
      · cases hs
  · cases hs

theorem sched_fits {b : Bool} (hP : Privileged m) (hs : m.step a = some m') (ha : a.cpu = some c)
    (hpc : m.pc c = .sched b) : (m'.loc c).Fits m.tasks := by
  rcases sched_cases hs ha hpc with ⟨p, l, rfl⟩ | rfl | ⟨p, rfl⟩ | ⟨p, rfl⟩
  · exact pop_ready_fits hP hs
  all_goals
    simp only [step, take_trap, fail, into_kernel] at hs
    repeat' split at hs
    all_goals first
      | simp only [reduceCtorEq] at hs
      | simp_all [← Option.some.inj hs, loc, Local.Fits, set_pc, set_vspace, set_in_kernel]

theorem popped_fits {target : Target} (hP : Privileged m) (hs : m.next c = some m') (hpc : m.pc c = .popped t target) :
    (m'.loc c).Fits m.tasks := by
  have hF := hP.fits c
  simp only [Local.Fits, loc, hpc] at hF
  cases target <;> simp only [next, hpc] at hs <;>
    simp_all [← Option.some.inj hs, loc, Local.Fits, set_pc, set_current, set_vspace]

/-- A step of a CPU leads to a place that fits. -/
theorem move_fits (hP : Privileged m) (hs : m.step a = some m') (ha : a.cpu = some c) (hmove : Move m c (m'.loc c)) :
    (m'.loc c).Fits m.tasks := by
  have hF := hP.fits c
  have hsched : ∀ b, m.pc c = .sched b → (m'.loc c).Fits m.tasks := fun b => sched_fits hP hs ha
  have hpopped : ∀ t target, m.pc c = .popped t target → (m'.loc c).Fits m.tasks := by
    intro t target hpc
    obtain rfl := eq_next hs ha (by simp [in_code, hpc]) (by simp [hpc, Pc.in_function])
    exact popped_fits hP hs hpc
  generalize hl : m'.loc c = l at hmove hsched hpopped ⊢
  have hat : ∀ {pc}, m.pc c = pc → ({ m.loc c with pc := pc } : Local cfg).Fits m.tasks := by
    intro pc hpc
    rw [← hpc]
    exact hF
  cases hmove with
  | flow hf =>
    generalize hpc : m.pc c = pc at hf
    have hF' := hat hpc
    cases hf with
    | leave h h' => rcases h' with rfl | rfl | rfl <;> trivial
    | pushed | irq_push_prev | returned => trivial
    | pop_ready b _ _ | take_trap b _ => exact hsched b hpc
    | set_pid h pid =>
      have hst := hP.staffed.carried c h (by simp [hpc, Pc.carries])
      exact ⟨hF', hP.staffed.kernel h hst⟩
    | run h => rcases h with rfl | rfl <;> exact hF'
    | _ => exact hF'
  | irq h => cases m.is_sleeping c <;> rfl
  | trap h _ => rfl
  | stop k h => trivial
  | idle_push hpc _ =>
    have hF' := hat hpc
    exact hF'
  | take_idle g pid pc' hpc _ h' =>
    have hF' := hat hpc
    rcases h' with rfl | rfl <;> exact hF'
  | into_kernel b hpc _ => trivial
  | fail b hpc hk => exact hk
  | set_current u target pc' hpc _ => exact hpopped u target hpc
  | krun_utask hpc =>
    have hu := (hat hpc).2
    by_cases hco : (m.tasks (m.current_task c)).is_coroutine = true <;> simp only [hco, if_true] <;> exact hu.symm
  | wait_context hpc | wait_sleeping hpc =>
    have hF' := hat hpc
    exact hF'
  | wait_clear hpc => trivial

theorem step_fits (hP : Privileged m) (hs : m.step a = some m') (c : Cpu cfg) : (m'.loc c).Fits m'.tasks := by
  have hker : ∀ t, m.known t = true → (m'.tasks t).is_kernel = (m.tasks t).is_kernel :=
    fun t hk => (step_data hP.staffed hs hk).is_kernel
  rcases step_loc hs c with heq | ⟨ha, hmove⟩
  · rw [heq]
    exact (hP.fits c).congr fun t ht => hker t (hP.inv.known_of_owner (Pc.owner_of_runs ht))
  · exact (move_fits hP hs ha hmove).congr fun t ht => hker t (known_of_runs hP hs ha ht)

theorem step_privileged (hP : Privileged m) (ha : UserPids m a) (hs : m.step a = some m') : Privileged m' where
  inv := step_inv hP.inv hs
  staffed := step_staffed hP.inv hP.staffed hs
  user := fun _ => step_user hP ha hs
  ready := fun _ _ _ => step_ready_home hP hs
  fits := step_fits hP hs

end Machine

/-- Places where the kernel alone has business: traps, their handlers, and the wait for interrupts. -/
def Pc.of_kernel : Pc cfg → Bool
  | .sync_push | .irq_push _ | .irq_state | .idle_handler _ | .busy_wait _ _ | .no_handler _ | .set_pid _ _
  | .krun_utask | .wait_context | .wait_sleeping | .wait_check | .wait_clear | .wait_irqs => true
  | _ => false

theorem Local.Fits.in_kernel {l : Local cfg} {ts : Tasks cfg} (h : l.Fits ts) (hk : l.pc.of_kernel = true) :
    l.in_kernel = true := by
  obtain ⟨pc, current, sleeping, k⟩ := l
  cases pc with
  | krun_utask => exact h.1
  | popped t target => cases hk
  | run | own | push_prev | dealloc_prev | sched _ | run_task | user_run_task | idle_push | idle_resched
  | panicked _ => cases hk
  | _ => exact h

/-- At the start all tasks are kernel tasks. -/
theorem Boot.known_kernel (b : Boot cfg) (hkernel : ∀ c, (b.tasks (b.init_task c)).is_kernel = true)
    (hwait : ∀ c, (b.tasks (b.wait_context c)).is_kernel = true) {t : TaskPtr} (hk : b.machine.known t = true) :
    (b.machine.tasks t).is_kernel = true := by
  have hker : (b.machine.tasks t).is_kernel = (b.tasks t).is_kernel := by
    simp only [machine]
    split <;> rfl
  rw [hker]
  obtain ⟨c, rfl | rfl | rfl⟩ := of_decide_eq_true hk
  · exact hkernel c
  · exact hwait c
  · exact b.handlers_kernel c

theorem Boot.privileged (b : Boot cfg) (hkernel : ∀ c, (b.tasks (b.init_task c)).is_kernel = true)
    (hwait : ∀ c, (b.tasks (b.wait_context c)).is_kernel = true) : Machine.Privileged b.machine where
  inv := b.inv
  staffed := b.staffed
  user := by
    intro t hk hu
    simp [b.known_kernel hkernel hwait hk] at hu
  ready := by
    intro t p l hmem
    simp [machine] at hmem
  fits := by
    intro c
    have hne : ∀ d, b.handlers d ≠ b.init_task c := fun d h => b.init_ne_handler c d h.symm
    simp [machine, Machine.loc, Local.Fits, hne, hkernel c]

namespace Privilege

open Machine

/-- In every run whose user tasks belong to processes of their own, IN_KERNEL is the mode of the task
    while a CPU executes task code; a user scheduler dispatches user tasks only, and the kernel runs
    kernel tasks itself and enters user mode for the others; a ready queue of the kernel holds kernel
    tasks only, and one of a process its user tasks only; and in user mode a CPU has nothing to do with
    traps, their handlers and the wait for interrupts. -/
theorem tasks_run_in_their_mode (b : Boot cfg) (hkernel : ∀ c, (b.tasks (b.init_task c)).is_kernel = true)
    (hwait : ∀ c, (b.tasks (b.wait_context c)).is_kernel = true) (acts : List (Act cfg)) (m : Machine cfg)
    (hrun : Runs.run step b.machine acts = some m) (halong : Runs.Along step UserPids b.machine acts) :
    (∀ c, m.pc c = .run ∨ m.pc c = .own → m.in_kernel c = (m.tasks (m.current_task c)).is_kernel) ∧
    (∀ c t target, m.pc c = .popped t target →
      ((m.tasks t).is_kernel = true ↔ target = .kernel) ∧ (m.in_kernel c = true ↔ target ≠ .user)) ∧
    (∀ t p l, t ∈ m.ready p l →
      ((m.tasks t).is_kernel = true ↔ p = .kernel) ∧ ((m.tasks t).is_kernel = false → (m.tasks t).pid = p)) ∧
    (∀ c, (m.pc c).of_kernel = true → m.in_kernel c = true) := by
  have hP : Privileged m := Runs.along_invariant (fun _ _ _ hP ha hs => step_privileged hP ha hs) acts
    (b.privileged hkernel hwait) halong hrun
  refine ⟨fun c hpc => ?_, fun c t target hpc => ?_, fun t p l hmem => ?_, fun c hk => (hP.fits c).in_kernel hk⟩
  · have hF := hP.fits c
    rcases hpc with hpc | hpc <;> simpa [Local.Fits, loc, hpc] using hF
  · have hF := hP.fits c
    cases target <;> simpa [Local.Fits, loc, hpc, and_comm] using hF
  · have hhome := hP.ready t p l hmem
    have hk := hP.inv.known_of_ready hmem
    cases hker : (m.tasks t).is_kernel with
    | true => simpa [Task.home, hker, eq_comm] using hhome
    | false =>
      have hne := hP.user t hk hker
      have hp : (m.tasks t).pid = p := by simpa [Task.home, hker] using hhome
      refine ⟨iff_of_false (by simp) ?_, fun _ => hp⟩
      rwa [← hp]

/-- The user thread that `TaskStates.dispatch` has brought to user mode. -/
theorem tasks_run_in_their_mode_dispatch : ∃ m : Machine solo,
    Runs.run step (Boot.plain solo).machine (TaskStates.dispatch false) = some m ∧ m.pc solo_cpu = .run ∧
    m.in_kernel solo_cpu = (m.tasks (m.current_task solo_cpu)).is_kernel := by
  have hrun : ((Runs.run step (Boot.plain solo).machine (TaskStates.dispatch false)).map fun m =>
      decide (m.pc solo_cpu = .run)) = some true := by decide +kernel
  obtain ⟨m, hm, hd⟩ := Option.map_eq_some_iff.mp hrun
  have hpc := of_decide_eq_true hd
  exact ⟨m, hm, hpc, (tasks_run_in_their_mode (Boot.plain solo) (fun _ => rfl) (fun _ => rfl)
    (TaskStates.dispatch false) m hm (by decide +kernel)).1 solo_cpu (Or.inl hpc)⟩

end Privilege

end Vsched2
