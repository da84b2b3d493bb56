import Vsched2.MainLoop
import Vsched2.PriorityOrder
import Vsched2.Privilege

/-! The shared data of the kernel as the machine without priorities keeps them.

    What an operation on a scheduler does to its queues is an access of the machine: a pop that finds
    nothing, the choice of a process and the choice of a level are choices the machine has. -/

namespace Vsched2

variable {cfg : Config}

/-- The kernel's data as the machine keeps them. The machine knows nothing of the trap handlers that user
    processes have. -/
structure Agrees (k : Kernel cfg) (m : Machine cfg) : Prop where
  tasks : ∀ t, m.known t = true → m.tasks t = k.tasks t
  ready : ∀ p l, m.ready p l = (k.schedulers p).ready_queue.queues l
  traps : m.traps = (k.schedulers .kernel).trap_wait_queue.queues
  idle_handlers : m.idle_handlers = (k.schedulers .kernel).trap_wait_queue.idle_handlers
  current_task : m.current_task = k.current_task
  scheduler_wait_context : m.scheduler_wait_context = k.scheduler_wait_context
  is_sleeping : m.is_sleeping = k.is_sleeping
  in_kernel : m.in_kernel = k.in_kernel
  current_vspace : m.current_vspace = k.current_vspace

/-! ### The data under each access -/

namespace Agrees

variable {k : Kernel cfg} {m m' : Machine cfg} {c : Cpu cfg} {t : TaskPtr}

/-- The machine's further fields do not matter. -/
theorem congr {n : Machine cfg} (h : Agrees k m) (hm : n.known = m.known ∧ n.tasks = m.tasks ∧ n.ready = m.ready ∧
    n.traps = m.traps ∧ n.idle_handlers = m.idle_handlers ∧ n.current_task = m.current_task ∧
    n.scheduler_wait_context = m.scheduler_wait_context ∧ n.is_sleeping = m.is_sleeping ∧
    n.in_kernel = m.in_kernel ∧ n.current_vspace = m.current_vspace) : Agrees k n := by
  obtain ⟨hk, ht, hr, htr, hi, hc, hw, hs, hin, hv⟩ := hm
  obtain ⟨h1, h2, h3, h4, h5, h6, h7, h8, h9⟩ := h
  exact ⟨by rwa [hk, ht], by rwa [hr], by rwa [htr], by rwa [hi], by rwa [hc], by rwa [hw], by rwa [hs],
    by rwa [hin], by rwa [hv]⟩

theorem set_pc (h : Agrees k m) (pc : Pc cfg) : Agrees k (m.set_pc c pc) :=
  h.congr ⟨rfl, rfl, rfl, rfl, rfl, rfl, rfl, rfl, rfl, rfl⟩

theorem set_stage (h : Agrees k m) (st : Stage) : Agrees k (m.set_stage t st) :=
  h.congr ⟨rfl, rfl, rfl, rfl, rfl, rfl, rfl, rfl, rfl, rfl⟩

theorem emit (h : Agrees k m) (e : Event cfg) : Agrees k (m.emit e) :=
  h.congr ⟨rfl, rfl, rfl, rfl, rfl, rfl, rfl, rfl, rfl, rfl⟩

/-- Both sides change the tasks in the same way. -/
theorem with_tasks (h : Agrees k m) {ts ts' : Tasks cfg} (heq : ∀ u, m.known u = true → ts u = ts' u) :
    Agrees { k with tasks := ts' } { m with tasks := ts } :=
  ⟨heq, h.ready, h.traps, h.idle_handlers, h.current_task, h.scheduler_wait_context, h.is_sleeping, h.in_kernel,
    h.current_vspace⟩

/-- A task comes into being. -/
theorem create (h : Agrees k m) (t : TaskPtr) (task : Task cfg) (stage : Option Stage) :
    Agrees { k with tasks := Function.update k.tasks t task } (m.create t task stage) := by
  refine ⟨fun u hu => ?_, h.ready, h.traps, h.idle_handlers, h.current_task, h.scheduler_wait_context, h.is_sleeping,
    h.in_kernel, h.current_vspace⟩
  rcases eq_or_ne u t with rfl | hne
  · simp [Machine.create]
  · simp only [Machine.create, Function.update_of_ne hne] at hu ⊢
    exact h.tasks u hu

theorem update (h : Agrees k m) (hk : m.known t = true) (f : Task cfg → Task cfg) :
    Agrees { k with tasks := Function.update k.tasks t (f (k.tasks t)) }
      { m with tasks := Function.update m.tasks t (f (m.tasks t)) } := by
  refine h.with_tasks fun u hu => ?_
  rcases eq_or_ne u t with rfl | hne
  · simp [h.tasks u hk]
  · simp [hne, h.tasks u hu]

theorem set_state (h : Agrees k m) (hk : m.known t = true) (st : TaskState) :
    Agrees (k.set_state t st) (m.set_state t st) := h.update hk fun task => { task with state := st }

theorem set_wait (h : Agrees k m) (hk : m.known t = true) (st : TaskState) (w : Bool) :
    Agrees (k.set_state t st) (m.set_wait t st w) :=
  (h.set_state hk st).congr ⟨rfl, rfl, rfl, rfl, rfl, rfl, rfl, rfl, rfl, rfl⟩

theorem save_context (h : Agrees k m) (hk : m.known t = true) (b : Bool) :
    Agrees (k.save_context t b) (m.save_context t b) := h.update hk fun task => { task with is_coroutine := b }

theorem set_pid (h : Agrees k m) (hk : m.known t = true) (pid : Pid cfg) :
    Agrees { k with tasks := k.tasks.set_pid t pid } { m with tasks := m.tasks.set_pid t pid } :=
  h.update hk fun task => { task with pid := pid }

theorem set_sleeping (h : Agrees k m) (b : Bool) : Agrees (k.set_sleeping c b) (m.set_sleeping c b) :=
  ⟨h.tasks, h.ready, h.traps, h.idle_handlers, h.current_task, h.scheduler_wait_context,
    by simp [Machine.set_sleeping, Kernel.set_sleeping, h.is_sleeping], h.in_kernel, h.current_vspace⟩

theorem set_in_kernel (h : Agrees k m) (b : Bool) : Agrees (k.set_in_kernel c b) (m.set_in_kernel c b) :=
  ⟨h.tasks, h.ready, h.traps, h.idle_handlers, h.current_task, h.scheduler_wait_context, h.is_sleeping,
    by simp [Machine.set_in_kernel, Kernel.set_in_kernel, h.in_kernel], h.current_vspace⟩

theorem set_current (h : Agrees k m) (t : TaskPtr) : Agrees (k.set_current_task c t) (m.set_current c t) :=
  ⟨h.tasks, h.ready, h.traps, h.idle_handlers,
    by simp [Machine.set_current, Kernel.set_current_task, h.current_task], h.scheduler_wait_context, h.is_sleeping,
    h.in_kernel, h.current_vspace⟩

/-- The address space itself is no matter of the machine. -/
theorem switch_vspace (h : Agrees k m) (p : Pid cfg) : Agrees (k.switch_vspace c p) (m.set_vspace c p) := by
  obtain ⟨h1, h2, h3, h4, h5, h6, h7, h8, h9⟩ := h
  simp only [Kernel.switch_vspace]
  split_ifs <;> exact ⟨h1, h2, h3, h4, h5, h6, h7, h8, by simp [Machine.set_vspace, h9]⟩

/-- `into_kernel` stores the process without a switch. -/
theorem set_current_vspace (h : Agrees k m) (p : Pid cfg) :
    Agrees { k with current_vspace := Function.update k.current_vspace c p } (m.set_vspace c p) :=
  ⟨h.tasks, h.ready, h.traps, h.idle_handlers, h.current_task, h.scheduler_wait_context, h.is_sleeping, h.in_kernel,
    by simp [Machine.set_vspace, h.current_vspace]⟩

/-- A scheduler's operation that leaves the queues alone. -/
theorem put_same (h : Agrees k m) (p : Pid cfg) (row : Row cfg) : Agrees (k.put p (k.schedulers p) k.tasks row) m := by
  obtain ⟨h1, h2, h3, h4, h5, h6, h7, h8, h9⟩ := h
  have heq : (k.put p (k.schedulers p) k.tasks row).schedulers = k.schedulers := by simp [Kernel.put]
  exact ⟨h1, by rwa [heq], by rwa [heq], by rwa [heq], h5, h6, h7, h8, h9⟩

/-- One that changes one level of its ready queue. -/
theorem put_ready (h : Agrees k m) {p : Pid cfg} {l : Level cfg} {q : ReadyQueue cfg TaskPtr} {queue : List TaskPtr}
    (hq : q.queues = Function.update (k.schedulers p).ready_queue.queues l queue) (row : Row cfg) :
    Agrees (k.put p { k.schedulers p with ready_queue := q } k.tasks row) (m.set_ready p l queue) := by
  obtain ⟨h1, h2, h3, h4, h5, h6, h7, h8, h9⟩ := h
  have htrap : (Function.update k.schedulers p { k.schedulers p with ready_queue := q } .kernel).trap_wait_queue =
      (k.schedulers .kernel).trap_wait_queue := by
    rcases eq_or_ne (Pid.kernel : Pid cfg) p with rfl | hne
    · simp
    · simp [hne]
  refine ⟨h1, fun p' l' => ?_, ?_, ?_, h5, h6, h7, h8, h9⟩
  · rcases eq_or_ne p' p with rfl | hne
    · rcases eq_or_ne l' l with rfl | hl
      · simp [Kernel.put, Machine.set_ready, hq]
      · simp [Kernel.put, Machine.set_ready, hq, hl, h2]
    · simp [Kernel.put, Machine.set_ready, hne, h2]
  · rw [Kernel.put, htrap]
    exact h3
  · rw [Kernel.put, htrap]
    exact h4

/-- One that changes the kernel's trap wait queue. -/
theorem put_traps (h : Agrees k m) (q : TrapWaitQueue cfg) {a b : Tasks cfg}
    (hts : ∀ u, m.known u = true → b u = a u) (row : Row cfg) :
    Agrees (k.put .kernel { k.schedulers .kernel with trap_wait_queue := q } a row)
      { m with traps := q.queues, idle_handlers := q.idle_handlers, tasks := b } := by
  obtain ⟨h1, h2, h3, h4, h5, h6, h7, h8, h9⟩ := h
  refine ⟨hts, fun p l => ?_, by simp [Kernel.put], by simp [Kernel.put], h5, h6, h7, h8, h9⟩
  rcases eq_or_ne p .kernel with rfl | hne
  · simp [Kernel.put, h2]
  · simp [Kernel.put, hne, h2]

end Agrees

/-! ### Pops -/

namespace Kernel

variable {k k' : Kernel cfg} {cpu : Cpu cfg} {p : Pid cfg}

/-- The scheduler that the slot of `p` points to. -/
def pointer (k : Kernel cfg) (p : Pid cfg) : Option (Pid cfg) := (k.process_info_table.table p).scheduler

/-- The schedulers are in order, traps are pending in the kernel only, and a slot points to the scheduler
    of its process or to none. The slot of the kernel is valid and points to none. -/
structure Orderly (k : Kernel cfg) : Prop where
  ok : ∀ p, (k.schedulers p).Ok
  kernel_sources : (k.schedulers .kernel).sources = [.trap_wait_queue, .ready_queue]
  user_traps : ∀ p, p ≠ .kernel → ∀ c, (k.schedulers p).trap_wait_queue.queues c = []
  own_pointer : ∀ p q, k.pointer p = some q → q = p
  kernel_pointer : k.pointer .kernel = none
  kernel_valid : (k.process_info_table.table .kernel).valid = true

theorem pointer_congr (ht : k'.process_info_table = k.process_info_table) : k'.pointer = k.pointer := by
  funext p
  rw [pointer, pointer, ht]

/-- It reads the schedulers and the process table only. -/
theorem Orderly.congr (h : Orderly k) (hs : k'.schedulers = k.schedulers)
    (ht : k'.process_info_table = k.process_info_table) : Orderly k' := by
  obtain ⟨h1, h2, h3, h4, h5, h6⟩ := h
  exact ⟨by rwa [hs], by rwa [hs], by rwa [hs], by rwa [pointer_congr ht], by rwa [pointer_congr ht], by rwa [ht]⟩

/-- Operations on a scheduler leave the pointers to it. -/
@[simp] theorem put_pointer (k : Kernel cfg) (p : Pid cfg) (s : Scheduler cfg) (ts : Tasks cfg) (row : Row cfg) :
    (k.put p s ts row).pointer = k.pointer := by
  funext q
  rcases eq_or_ne q p with rfl | h
  · simp [pointer, Kernel.put, ProcessInfoTable.set]
  · simp [pointer, Kernel.put, ProcessInfoTable.set, h]

theorem Orderly.put (h : Orderly k) {s : Scheduler cfg} (ts : Tasks cfg) (row : Row cfg) (hok : s.Ok)
    (hsrc : p = .kernel → s.sources = [.trap_wait_queue, .ready_queue])
    (htraps : p ≠ .kernel → ∀ c, s.trap_wait_queue.queues c = []) : Orderly (k.put p s ts row) where
  ok q := by
    rcases eq_or_ne q p with rfl | hq
    · rwa [schedulers_put_self]
    · rw [schedulers_put_of_ne _ hq]
      exact h.ok q
  kernel_sources := by
    rcases eq_or_ne (Pid.kernel : Pid cfg) p with hp | hp
    · rw [← hp, schedulers_put_self]
      exact hsrc hp.symm
    · rw [schedulers_put_of_ne _ hp]
      exact h.kernel_sources
  user_traps q hq c := by
    rcases eq_or_ne q p with rfl | hqp
    · rw [schedulers_put_self]
      exact htraps hq c
    · rw [schedulers_put_of_ne _ hqp]
      exact h.user_traps q hq c
  own_pointer := by
    rw [put_pointer]
    exact h.own_pointer
  kernel_pointer := by
    rw [put_pointer]
    exact h.kernel_pointer
  kernel_valid := (table_put k p .kernel s ts row).1.trans h.kernel_valid

/-- Every operation on a scheduler keeps the order; traps are pushed to the kernel's only. -/
theorem Orderly.sched_step (h : Orderly k) {op : HiddenWork.Op cfg}
    (hop : p ≠ .kernel → ∀ cpu item cpuid, op ≠ .push_trap cpu item cpuid)
    (hs : PriorityOrder.sched_step k p op = some k') : Orderly k' := by
  simp only [PriorityOrder.sched_step, Option.map_eq_some_iff] at hs
  obtain ⟨s, hs, rfl⟩ := hs
  refine h.put _ _ (HiddenWork.step_ok (h.ok p) hs) ?_ fun hp => ?_
  · rintro rfl
    exact PriorityOrder.step_sources (h.ok _) h.kernel_sources hs
  · exact PriorityOrder.step_traps (h.ok p) (hop hp) (h.user_traps p hp) hs

/-- No work is hidden: each CPU sees every process published at least as urgent as its scheduler is. The
    scan for a process meets every valid slot. -/
structure Visible (k : Kernel cfg) : Prop where
  shown : ∀ p c, k.row p c ≤ (k.schedulers p).hightest_priority c
  allocated : k.process_info_table.Allocated

theorem Visible.congr (h : Visible k) (hs : k'.schedulers = k.schedulers)
    (ht : k'.process_info_table = k.process_info_table) : Visible k' := by
  obtain ⟨h1, h2⟩ := h
  exact ⟨by simpa only [row, hs, ht] using h1, by rwa [ht]⟩

theorem Visible.put (h : Visible k) {s : Scheduler cfg} (ts : Tasks cfg) {row : Row cfg}
    (hrow : ∀ c, row c ≤ s.hightest_priority c) : Visible (k.put p s ts row) where
  shown q c := by
    rcases eq_or_ne q p with rfl | hq
    · rw [row_put_self, schedulers_put_self]
      exact hrow c
    · rw [row_put_of_ne _ hq, schedulers_put_of_ne _ hq]
      exact h.shown q c
  allocated q hq := by
    rw [(table_put ..).1] at hq
    exact h.allocated q hq

/-- On one CPU every operation on a scheduler publishes what there is. -/
theorem Visible.sched_step (hcpu : cfg.cpu_num = 1) (h : Visible k) (hO : Orderly k) {op : HiddenWork.Op cfg}
    (hs : PriorityOrder.sched_step k p op = some k') : Visible k' := by
  simp only [PriorityOrder.sched_step, Option.map_eq_some_iff] at hs
  obtain ⟨s, hs, rfl⟩ := hs
  have hn : HiddenWork.NoHiddenWork ⟨k.schedulers p, k.tasks, k.row p⟩ := h.shown p
  exact h.put _ ((HiddenWork.step_sees (hO.ok p) hn hs).mpr (PriorityOrder.sees_single hcpu _ _))

/-- What `pop_task` of a scheduler can do. -/
inductive Pops (k : Kernel cfg) (cpu : Cpu cfg) (p : Pid cfg) (fresh : TaskPtr × Task cfg) :
    Option TaskPtr → Kernel cfg → Prop where
  | none (row : Row cfg) : Pops k cpu p fresh none (k.put p (k.schedulers p) k.tasks row)
  | ready (l : Level cfg) (task : TaskPtr) (rest : List TaskPtr) (row : Row cfg)
      (hq : (k.schedulers p).ready_queue.queues l = task :: rest) :
      Pops k cpu p fresh (some task) (k.put p { k.schedulers p with
        ready_queue := ((k.schedulers p).ready_queue.take_level l task rest).2 } k.tasks row)
  | trap (handler : TaskPtr) (q : TrapWaitQueue cfg) (ts : Tasks cfg) (row : Row cfg) (hp : p = .kernel)
      (hq : (k.schedulers .kernel).trap_wait_queue.queues cpu ≠ [])
      (ht : (k.schedulers .kernel).trap_wait_queue.take_task k.tasks cpu fresh =
        some ((some handler, cfg.active_priority), q, ts)) :
      Pops k cpu p fresh (some handler) (k.put p { k.schedulers p with trap_wait_queue := q } ts row)

theorem pop_task_pops (hO : Orderly k) {fresh : TaskPtr × Task cfg} {t : Option TaskPtr}
    (h : k.pop_task cpu p fresh = some (t, k')) : Pops k cpu p fresh t k' := by
  simp only [pop_task, Option.map_eq_some_iff, Prod.mk.injEq] at h
  obtain ⟨r, hr, rfl, rfl⟩ := h
  have ho := hO.ok p
  rcases ho.sources with hs | hs
  · rw [Scheduler.pop_task_nil hs] at hr
    rw [← Option.some.inj hr]
    exact .none _
  · by_cases hq : (k.schedulers p).trap_wait_queue.queues cpu = []
    · cases hb : (k.schedulers p).ready_queue.best with
      | none =>
        rw [Scheduler.pop_task_empty ho hs hq hb] at hr
        rw [← Option.some.inj hr]
        exact .none _
      | some l =>
        obtain ⟨task, rest, hl, hpop⟩ := Scheduler.pop_task_ready ho hs hq hb k.tasks fresh (k.row p)
        rw [hpop] at hr
        rw [← Option.some.inj hr]
        exact .ready l task rest _ hl
    · have hp : p = .kernel := by
        by_contra hp
        exact hq (hO.user_traps p hp cpu)
      subst hp
      obtain ⟨handler, q, ts, ht, -, rfl⟩ := Scheduler.pop_task_trap ho hs hq k.tasks fresh (k.row .kernel) hr
      exact .trap handler q ts _ rfl hq ht

theorem pop_task_step {fresh : TaskPtr × Task cfg} {t : Option TaskPtr} (h : k.pop_task cpu p fresh = some (t, k')) :
    PriorityOrder.sched_step k p (.pop_task cpu fresh) = some k' := by
  simp only [pop_task, Option.map_eq_some_iff, Prod.mk.injEq] at h
  obtain ⟨r, hr, -, rfl⟩ := h
  simp [PriorityOrder.sched_step, HiddenWork.step, hr]

end Kernel

/-! ### New processes -/

namespace Kernel

variable {k k' : Kernel cfg} {p : Pid cfg} {vspace : ℕ}

/-- What `process_init` has done when it returns `p`: the slot was invalid and points to the scheduler of the
    process, which is new. The priorities published there are those of the last process. -/
structure Initialised (k : Kernel cfg) (p : Pid cfg) (k' : Kernel cfg) : Prop where
  invalid : (k.process_info_table.table p).valid = false
  scheduler : k'.schedulers = Function.update k.schedulers p .new
  pointer : k'.pointer = Function.update k.pointer p (some p)
  row : k'.row = k.row
  others : ∀ q, q ≠ p → k'.process_info_table.table q = k.process_info_table.table q
  allocated : k.process_info_table.Allocated → k'.process_info_table.Allocated
  tasks : k'.tasks = k.tasks
  cpus : k'.current_task = k.current_task ∧ k'.scheduler_wait_context = k.scheduler_wait_context ∧
    k'.is_sleeping = k.is_sleeping ∧ k'.in_kernel = k.in_kernel ∧ k'.current_vspace = k.current_vspace

theorem process_init_spec (h : k.process_init vspace = some (p, k')) : Initialised k p k' := by
  simp only [process_init] at h
  split at h
  · cases h
  · rename_i pid t hreg
    obtain ⟨rfl, rfl⟩ := Prod.mk.inj (Option.some.inj h)
    obtain ⟨-, hother, hnew⟩ := ProcessInfoTable.register_process_spec hreg
    obtain ⟨hinvalid, hslot, -⟩ := hnew pid rfl
    have htable : ∀ q, q ≠ pid → t.table q = k.process_info_table.table q :=
      fun q hq => hother q fun heq => hq (Option.some.inj heq).symm
    refine ⟨hinvalid, rfl, ?_, ?_, fun q hq => ?_, fun ha q hq => ?_, rfl, rfl, rfl, rfl, rfl, rfl⟩
    · funext q
      rcases eq_or_ne q pid with rfl | hq
      · simp [Kernel.pointer, ProcessInfoTable.set]
      · simp [Kernel.pointer, ProcessInfoTable.set, hq, htable q hq]
    · funext q
      rcases eq_or_ne q pid with rfl | hq
      · simp [Kernel.row, ProcessInfoTable.set, hslot]
      · simp [Kernel.row, ProcessInfoTable.set, hq, htable q hq]
    · simp [ProcessInfoTable.set, hq, htable q hq]
    · have halloc := ProcessInfoTable.register_process_allocated ha hreg
      rcases eq_or_ne q pid with rfl | hne
      · exact halloc q (by rw [hslot])
      · exact halloc q (by simpa [ProcessInfoTable.set, hne] using hq)

theorem Initialised.ne_kernel (h : Initialised k p k') (hO : Orderly k) : (Pid.kernel : Pid cfg) ≠ p := by
  rintro rfl
  have hvalid := hO.kernel_valid
  rw [h.invalid] at hvalid
  cases hvalid

theorem Initialised.orderly (h : Initialised k p k') (hO : Orderly k) : Orderly k' := by
  have hp := h.ne_kernel hO
  refine ⟨fun q => ?_, ?_, fun q hq c => ?_, fun q r hqr => ?_, ?_, ?_⟩
  · rcases eq_or_ne q p with rfl | hne
    · simpa [h.scheduler] using Scheduler.new_ok
    · simpa [h.scheduler, hne] using hO.ok q
  · simpa [h.scheduler, hp] using hO.kernel_sources
  · rcases eq_or_ne q p with rfl | hne
    · simp [h.scheduler, Scheduler.new, TrapWaitQueue.new]
    · simpa [h.scheduler, hne] using hO.user_traps q hq c
  · rw [h.pointer] at hqr
    rcases eq_or_ne q p with rfl | hne
    · exact (Option.some.inj (by simpa using hqr)).symm
    · exact hO.own_pointer q r (by simpa [hne] using hqr)
  · simpa [h.pointer, hp] using hO.kernel_pointer
  · rw [h.others _ hp]
    exact hO.kernel_valid

/-- A new scheduler has nothing to show. -/
theorem Initialised.visible (h : Initialised k p k') (hV : Visible k) : Visible k' := by
  refine ⟨fun q c => ?_, h.allocated hV.allocated⟩
  rw [h.row, h.scheduler]
  rcases eq_or_ne q p with rfl | hne
  · rw [Function.update_self, Scheduler.hightest_priority_nil rfl]
    exact le_trans (hV.shown q c) (Scheduler.hightest_priority_le_max _ c)
  · rw [Function.update_of_ne hne]
    exact hV.shown q c

/-- The machine sees nothing of it if no task was left in the scheduler. -/
theorem Initialised.agrees {m : Machine cfg} (h : Initialised k p k') (hO : Orderly k) (hA : Agrees k m)
    (hdrained : ∀ l, (k.schedulers p).ready_queue.queues l = []) : Agrees k' m := by
  have hp := h.ne_kernel hO
  obtain ⟨h5, h6, h7, h8, h9⟩ := h.cpus
  refine ⟨?_, fun q l => ?_, ?_, ?_, ?_, ?_, ?_, ?_, ?_⟩
  · rw [h.tasks]
    exact hA.tasks
  · rw [hA.ready, h.scheduler]
    rcases eq_or_ne q p with rfl | hq
    · simp [hdrained, Scheduler.new, ReadyQueue.new]
    · simp [hq]
  · simp [h.scheduler, hp, hA.traps]
  · simp [h.scheduler, hp, hA.idle_handlers]
  · rw [h5, hA.current_task]
  · rw [h6, hA.scheduler_wait_context]
  · rw [h7, hA.is_sleeping]
  · rw [h8, hA.in_kernel]
  · rw [h9, hA.current_vspace]

end Kernel

/-! ### Enqueueing -/

namespace Kernel

variable {k k' : Kernel cfg} {c : Cpu cfg} {p : Pid cfg} {t : TaskPtr}

theorem push_task_step {b : Bool} (h : k.push_task c p t = some (b, k')) :
    PriorityOrder.sched_step k p (.push_task c t) = some k' := by
  simp only [push_task, Option.map_eq_some_iff, Prod.mk.injEq] at h
  obtain ⟨r, hr, -, rfl⟩ := h
  simp [PriorityOrder.sched_step, HiddenWork.step, hr]

theorem put_back_eq_some (h : k.put_back c p t = some k') : k.push_task c p t = some (true, k') := by
  simp only [put_back, Option.bind_eq_some_iff] at h
  obtain ⟨⟨b, k₁⟩, h, hb⟩ := h
  cases b with
  | false => cases hb
  | true =>
    obtain rfl : k₁ = k' := Option.some.inj hb
    exact h

/-- A task that was taken stands at the end of its level. -/
theorem push_task_eq_some (h : k.push_task c p t = some (true, k')) :
    ∃ l q row, cfg.level (k.tasks t).priority = some l ∧
      ((k.schedulers p).ready_queue.queues l).length < cfg.ready_queue_size ∧
      q.queues = Function.update (k.schedulers p).ready_queue.queues l
        ((k.schedulers p).ready_queue.queues l ++ [t]) ∧
      k' = k.put p { k.schedulers p with ready_queue := q } k.tasks row := by
  simp only [push_task, Scheduler.push_task, ReadyQueue.push_task, Option.map_map, Option.map_eq_some_iff,
    Function.comp] at h
  obtain ⟨l, hl, h⟩ := h
  by_cases hroom : ((k.schedulers p).ready_queue.queues l).length < cfg.ready_queue_size
  · obtain ⟨q, hq⟩ : ∃ q, (k.schedulers p).ready_queue.push_level l t = .ok q := by
      simp [ReadyQueue.push_level, hroom]
    simp only [hq, Prod.mk.injEq, true_and] at h
    exact ⟨l, q, _, hl, hroom, ReadyQueue.push_level_queues hq, h.symm⟩
  · simp [ReadyQueue.push_level, hroom] at h

theorem push_trap_eq_some {item : TrapItem} (h : k.push_trap c item = some k') :
    ((k.schedulers .kernel).trap_wait_queue.queues c).length < cfg.trap_wait_queue_size ∧
    ∃ row, k' = k.put .kernel { k.schedulers .kernel with
      trap_wait_queue := { (k.schedulers .kernel).trap_wait_queue with
        queues := Function.update (k.schedulers .kernel).trap_wait_queue.queues c
          ((k.schedulers .kernel).trap_wait_queue.queues c ++ [item]) } } k.tasks row := by
  by_cases hroom : ((k.schedulers .kernel).trap_wait_queue.queues c).length < cfg.trap_wait_queue_size
  · simp only [push_trap, Scheduler.push_trap, TrapWaitQueue.push_trap, hroom, if_true, Option.some.injEq] at h
    exact ⟨hroom, _, h.symm⟩
  · simp [push_trap, Scheduler.push_trap, TrapWaitQueue.push_trap, hroom] at h

end Kernel

namespace Agrees

variable {k k' : Kernel cfg} {m : Machine cfg} {c : Cpu cfg} {t : TaskPtr}

theorem push_task (hA : Agrees k m) (hk : m.known t = true) (h : k.push_task c (m.home t) t = some (true, k')) :
    ∃ l q, m.push_task t = some (m.set_ready (m.home t) l q) ∧ Agrees k' (m.set_ready (m.home t) l q) := by
  obtain ⟨l, q, row, hl, hroom, hq, rfl⟩ := Kernel.push_task_eq_some h
  rw [← hA.ready] at hroom hq
  rw [← hA.tasks t hk] at hl
  refine ⟨l, _, ?_, hA.put_ready hq row⟩
  simp only [Machine.push_task, hl, Option.bind_some, hroom, if_true]

theorem push_trap (hA : Agrees k m) {task : Option TaskPtr} (h : k.push_trap c ⟨m.next_info, task⟩ = some k') :
    ∃ m₁, m.push_trap c task = some m₁ ∧ Agrees k' m₁ := by
  obtain ⟨hroom, row, rfl⟩ := Kernel.push_trap_eq_some h
  rw [← hA.traps] at hroom
  refine ⟨_, if_pos hroom, (hA.put_traps (b := m.tasks) { (k.schedulers .kernel).trap_wait_queue with
    queues := Function.update (k.schedulers .kernel).trap_wait_queue.queues c
      ((k.schedulers .kernel).trap_wait_queue.queues c ++ [⟨m.next_info, task⟩]) } hA.tasks row).congr
    ⟨rfl, rfl, rfl, ?_, hA.idle_handlers, rfl, rfl, rfl, rfl, rfl⟩⟩
  simp [hA.traps]

end Agrees

/-! ### What the calls keep -/

namespace Kernel

variable {k k' : Kernel cfg} {c : Cpu cfg} {p : Pid cfg} {t : TaskPtr} {user_data : Pid cfg → Pid cfg}
  {fresh : TaskPtr × Task cfg}

/-- The pointers to the schedulers are the same, the schedulers still in order, and on one CPU no work gets
    hidden. -/
structure Follows (k k' : Kernel cfg) : Prop where
  pointer : k'.pointer = k.pointer
  orderly : k.Orderly → k'.Orderly
  visible : cfg.cpu_num = 1 → k.Orderly → k.Visible → k'.Visible

theorem Follows.of_eq (hs : k'.schedulers = k.schedulers) (ht : k'.process_info_table = k.process_info_table) :
    Follows k k' := ⟨pointer_congr ht, fun hO => hO.congr hs ht, fun _ _ hV => hV.congr hs ht⟩

theorem Follows.trans {k₁ : Kernel cfg} (h : Follows k k₁) (h' : Follows k₁ k') : Follows k k' :=
  ⟨h'.pointer.trans h.pointer, fun hO => h'.orderly (h.orderly hO),
    fun hcpu hO hV => h'.visible hcpu (h.orderly hO) (h.visible hcpu hO hV)⟩

/-- IN_KERNEL is the same as well. -/
structure Kept (k k' : Kernel cfg) : Prop extends Follows k k' where
  in_kernel : k'.in_kernel = k.in_kernel

theorem Kept.of_eq (hi : k'.in_kernel = k.in_kernel) (hs : k'.schedulers = k.schedulers)
    (ht : k'.process_info_table = k.process_info_table) : Kept k k' := ⟨.of_eq hs ht, hi⟩

theorem Kept.refl (k : Kernel cfg) : Kept k k := .of_eq rfl rfl rfl

theorem Kept.trans {k₁ : Kernel cfg} (h : Kept k k₁) (h' : Kept k₁ k') : Kept k k' :=
  ⟨h.toFollows.trans h'.toFollows, h'.in_kernel.trans h.in_kernel⟩

theorem sched_step_kept {o : HiddenWork.Op cfg}
    (hop : p ≠ .kernel → ∀ cpu item cpuid, o ≠ .push_trap cpu item cpuid)
    (hs : PriorityOrder.sched_step k p o = some k') : Kept k k' := by
  refine ⟨⟨?_, fun hO => hO.sched_step hop hs, fun hcpu hO hV => hV.sched_step hcpu hO hs⟩, ?_⟩
  all_goals
    simp only [PriorityOrder.sched_step, Option.map_eq_some_iff] at hs
    obtain ⟨s, -, rfl⟩ := hs
  · exact put_pointer k p _ _ _
  · rfl

/-- The pool of idle handlers matters to no priority. -/
theorem put_idle_kept (k : Kernel cfg) (idle : List TaskPtr) (ts : Tasks cfg) :
    Kept k (k.put .kernel { k.schedulers .kernel with
      trap_wait_queue := { (k.schedulers .kernel).trap_wait_queue with idle_handlers := idle } } ts (k.row .kernel)) :=
  ⟨⟨put_pointer k _ _ _ _, fun hO => hO.put _ _ ⟨(hO.ok .kernel).synced, (hO.ok .kernel).sources⟩
    (fun _ => hO.kernel_sources) fun hp => absurd rfl hp, fun _ _ hV => hV.put _ (hV.shown .kernel)⟩, rfl⟩

theorem switch_vspace_kept (k : Kernel cfg) (c : Cpu cfg) (p : Pid cfg) : Kept k (k.switch_vspace c p) := by
  refine .of_eq ?_ (by simp) (by simp)
  simp only [switch_vspace]
  split_ifs <;> rfl

theorem pop_task_kept {r : Option TaskPtr} (h : k.pop_task c p fresh = some (r, k')) : Kept k k' :=
  sched_step_kept (by simp) (pop_task_step h)

theorem ktask_kept {res : ℕ} (h : k.ktask_schedule user_data c p fresh = some (res, k')) : Kept k k' := by
  simp only [ktask_schedule] at h
  split at h
  · obtain ⟨⟨t, k₁⟩, hpop, h⟩ := Option.map_eq_some_iff.mp h
    have hk₁ := pop_task_kept hpop
    cases t with
    | none => exact (Prod.mk.inj h).2 ▸ hk₁
    | some t =>
      rw [← (Prod.mk.inj h).2]
      exact (hk₁.trans (switch_vspace_kept _ _ _)).trans (.of_eq rfl rfl rfl)
  · obtain ⟨⟨t, k₁⟩, hpop, h⟩ := Option.map_eq_some_iff.mp h
    have hk₁ := (switch_vspace_kept k c p).trans (pop_task_kept hpop)
    cases t with
    | none => exact (Prod.mk.inj h).2 ▸ hk₁
    | some t =>
      rw [← (Prod.mk.inj h).2]
      exact hk₁.trans (.of_eq rfl rfl rfl)

theorem wait_kept (h : k.wait_for_runnable_task c = some k') : Kept k k' := by
  refine .of_eq ?_ (wait_unchanged h).2.1 (wait_unchanged h).1
  simp only [wait_for_runnable_task] at h
  split at h
  · cases h
  · obtain ⟨p, -, rfl⟩ := Option.map_eq_some_iff.mp h
    split <;> rfl

theorem push_task_kept {b : Bool} (h : k.push_task c p t = some (b, k')) : Kept k k' :=
  sched_step_kept (by simp) (push_task_step h)

/-- `api::push_task` finds the scheduler of the task's home. -/
theorem api_push_task_eq_some (hO : k.Orderly) (h : k.api_push_task c t = some (true, k')) :
    k.push_task c (k.tasks t).home t = some (true, k') ∧
      ((k.tasks t).is_kernel = false → k.pointer (k.tasks t).pid = some (k.tasks t).pid) := by
  simp only [api_push_task] at h
  split at h
  · rename_i hker
    exact ⟨by simpa [Task.home, hker] using h, fun hu => by simp [hu] at hker⟩
  · rename_i hker
    have hker' : (k.tasks t).is_kernel = false := by simpa using hker
    split at h
    · simp at h
    · split at h
      · simp at h
      · rename_i q hq
        obtain rfl := hO.own_pointer _ _ hq
        exact ⟨by simpa [Task.home, hker'] using h, fun _ => hq⟩

theorem push_prev_task_kept {st : TaskState} (h : k.push_prev_task c st = some k') : Kept k k' := by
  cases st with
  | ready => exact push_task_kept (put_back_eq_some h)
  | _ =>
    obtain rfl : k = k' := Option.some.inj h
    exact .refl k

theorem push_trap_kept {item : TrapItem} (h : k.push_trap c item = some k') : Kept k k' := by
  refine sched_step_kept (p := .kernel) (o := .push_trap c item c) (fun hp => absurd rfl hp) ?_
  simp only [push_trap] at h
  split at h
  · exact h
  · cases h

/-- `kschedule` is `utok_schedule` after the selection of a process. -/
theorem kschedule_until_eq (fuel : ℕ) (k : Kernel cfg) : kschedule_until user_data c fresh fuel k =
    (k.process_schedule c .kernel).bind fun p => utok_schedule_until user_data c fresh fuel p k := by
  induction fuel generalizing k with
  | zero => cases k.process_schedule c .kernel <;> rfl
  | succ fuel ih =>
    simp only [kschedule_until, kround, Option.bind_assoc, utok_schedule_until, ih]

end Kernel

/-! ### Initialisation -/

/-- What `init` of a trap wait queue does to the tasks. -/
theorem blocked_foldl_eq (handlers : Cpu cfg → TaskPtr) (t : TaskPtr) (cs : List (Cpu cfg)) (ts : Tasks cfg) :
    cs.foldl (fun ts c => ts.set_state (handlers c) .blocked) ts t =
      if ∃ c ∈ cs, handlers c = t then { ts t with state := .blocked } else ts t := by
  induction cs generalizing ts with
  | nil => simp
  | cons c cs ih =>
    rw [List.foldl_cons, ih]
    rcases eq_or_ne t (handlers c) with rfl | hne
    · simp [Tasks.set_state]
    · have hiff : (∃ d ∈ c :: cs, handlers d = t) ↔ ∃ d ∈ cs, handlers d = t := by simp [hne.symm]
      simp only [Tasks.set_state_of_ne _ _ hne, hiff]

namespace Kernel

variable {k k' : Kernel cfg} {c : Cpu cfg} {p : Pid cfg} {handlers : Cpu cfg → TaskPtr}

theorem init_sources_eq_some (h : k.init_sources c p handlers = some k') : ∃ row,
    k' = k.put p { k.schedulers p with
        sources := (k.schedulers p).sources ++ [.trap_wait_queue, .ready_queue]
        trap_wait_queue := { (k.schedulers p).trap_wait_queue with
          idle_handlers := (k.schedulers p).trap_wait_queue.idle_handlers ++
            (List.finRange cfg.cpu_num).map handlers } }
      (fun t => if ∃ d, handlers d = t then { k.tasks t with state := .blocked } else k.tasks t) row := by
  have htasks : (List.finRange cfg.cpu_num).foldl (fun ts d => ts.set_state (handlers d) .blocked) k.tasks =
      fun t => if ∃ d, handlers d = t then { k.tasks t with state := .blocked } else k.tasks t := by
    funext t
    rw [blocked_foldl_eq]
    simp
  simp only [init_sources, Scheduler.init_sources, TrapWaitQueue.init, Option.map_eq_some_iff,
    Option.bind_eq_some_iff] at h
  obtain ⟨r, ⟨r₀, hinit, hr⟩, rfl⟩ := h
  split at hinit
  · obtain rfl := Option.some.inj hinit
    split at hr
    · obtain rfl := Option.some.inj hr
      simp only [htasks]
      exact ⟨_, rfl⟩
    · cases hr
  · cases hinit

theorem init_sources_kept (h : k.init_sources c p handlers = some k') (hs : (k.schedulers p).sources = []) :
    Kept k k' := by
  refine sched_step_kept (p := p) (o := .init_sources c handlers) (by simp) ?_
  obtain ⟨r, hr, rfl⟩ := Option.map_eq_some_iff.mp h
  simp [PriorityOrder.sched_step, HiddenWork.step, hs, hr]

end Kernel

end Vsched2
