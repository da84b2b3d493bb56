import Vsched2.HandlerPool

/-! The pool of idle handlers overflows with one handler more than places.

    One CPU is enough: it takes a handler for an interrupt, the handler blocks inside `handle`, and the
    CPU waits for the next interrupt. Every round takes one handler out of the pool, or creates one.
    Then the handlers are woken one after the other, and each goes to the pool. -/

namespace Vsched2

namespace HandlerPool

open Machine

variable {cfg : Config} {m m' : Machine cfg} {c : Cpu cfg} {h g : TaskPtr} {pool away : List TaskPtr} {n k : ℕ}
  {st : Stage} {q : List TrapItem}

/-! ### Where a handler is -/

/-- A kernel task that `push_task` puts into the first level. -/
structure Urgent (task : Task cfg) : Prop where
  is_kernel : task.is_kernel = true
  level : cfg.level task.priority = some .top

/-- `h` waits for a trap; its CPU has given it up. -/
structure Resting (m : Machine cfg) (h : TaskPtr) : Prop where
  urgent : Urgent (m.tasks h)
  state : (m.tasks h).state = .blocked
  stage : m.stage h = some .top

/-- `h` is blocked inside `handle`. -/
structure Stuck (m : Machine cfg) (h : TaskPtr) : Prop where
  urgent : Urgent (m.tasks h)
  state : (m.tasks h).state = .blocked
  waits : m.waits h = true
  stage : ∃ i, m.stage h = some (.handle ⟨i, none⟩)

/-- The step has left the task `h` alone. -/
structure Untouched (m m' : Machine cfg) (h : TaskPtr) : Prop where
  known : m'.known h = m.known h
  tasks : m'.tasks h = m.tasks h
  waits : m'.waits h = m.waits h
  stage : m'.stage h = m.stage h

theorem Untouched.trans {m₁ : Machine cfg} (h₁ : Untouched m m₁ h) (h₂ : Untouched m₁ m' h) : Untouched m m' h where
  known := h₂.known.trans h₁.known
  tasks := h₂.tasks.trans h₁.tasks
  waits := h₂.waits.trans h₁.waits
  stage := h₂.stage.trans h₁.stage

theorem Untouched.resting (hu : Untouched m m' h) (hr : Resting m h) : Resting m' h where
  urgent := by rw [hu.tasks]; exact hr.urgent
  state := by rw [hu.tasks]; exact hr.state
  stage := by rw [hu.stage]; exact hr.stage

theorem Untouched.stuck (hu : Untouched m m' h) (hk : Stuck m h) : Stuck m' h where
  urgent := by rw [hu.tasks]; exact hk.urgent
  state := by rw [hu.tasks]; exact hk.state
  waits := by rw [hu.waits]; exact hk.waits
  stage := by rw [hu.stage]; exact hk.stage

/-- Of all tasks at most `g` has changed. -/
def SameBut (g : TaskPtr) (m m' : Machine cfg) : Prop := ∀ h, h ≠ g → Untouched m m' h

theorem SameBut.trans {m₁ : Machine cfg} (h₁ : SameBut g m m₁) (h₂ : SameBut g m₁ m') : SameBut g m m' :=
  fun h hne => (h₁ h hne).trans (h₂ h hne)

/-- The CPU is in the kernel's loop and finds nothing to run. -/
structure Idling (c : Cpu cfg) (m : Machine cfg) : Prop where
  pc : ∃ b, m.pc c = .sched b
  in_kernel : m.in_kernel c = true
  traps : m.traps c = []
  ready : m.ready .kernel .top = []

/-- The CPU waits for interrupts. -/
structure Sleeping (c : Cpu cfg) (m : Machine cfg) : Prop where
  pc : m.pc c = .wait_irqs
  is_sleeping : m.is_sleeping c = true
  traps : m.traps c = []
  ready : m.ready .kernel .top = []

/-- The CPU calls `take_task` for an interrupt. -/
structure Taking (c : Cpu cfg) (m : Machine cfg) : Prop where
  pc : m.pc c = .idle_handler .kernel
  in_kernel : m.in_kernel c = true
  traps : ∃ i, m.traps c = [⟨i, none⟩]
  ready : m.ready .kernel .top = []

/-- The CPU stands at `place` and has the handler `g` in its hands, with the traps `q` in its queue. -/
structure Holding (c : Cpu cfg) (g : TaskPtr) (place : Pc cfg) (st : TaskState) (s : Stage)
    (q : List TrapItem) (m : Machine cfg) : Prop where
  pc : m.pc c = place
  owner : place.owner (m.current_task c) = some g
  in_kernel : m.in_kernel c = true
  traps : m.traps c = q
  ready : m.ready .kernel .top = []
  urgent : Urgent (m.tasks g)
  state : (m.tasks g).state = st
  stage : m.stage g = some s

/-! ### One round -/

theorem sleep (hI : Idling c m) : ∃ m',
    Runs.run step m [.fail c .kernel, .next c, .next c, .check c false] = some m' ∧ Sleeping c m' ∧
    m'.idle_handlers = m.idle_handlers ∧ ∀ h, Untouched m m' h := by
  obtain ⟨⟨b, hpc⟩, hk, ht, hr⟩ := hI
  simp [step, fail, next, check, hpc, hk, set_pc, set_vspace, set_current, set_sleeping]
  exact ⟨⟨by simp, by simp, ht, hr⟩, fun _ => ⟨rfl, rfl, rfl, rfl⟩⟩

/-- An interrupt wakes the CPU, which calls `take_task`. -/
theorem interrupt (hS : Sleeping c m) (hsize : 0 < cfg.trap_wait_queue_size) : ∃ m',
    Runs.run step m [.irq c, .next c, .take_trap c] = some m' ∧ Taking c m' ∧
    m'.idle_handlers = m.idle_handlers ∧ ∀ h, Untouched m m' h := by
  obtain ⟨hpc, hsl, ht, hr⟩ := hS
  simp [step, next, irq, take_trap, in_code, hpc, hsl, ht, hsize, set_pc, set_sleeping, set_in_kernel, push_trap,
    TrapItem.pid]
  exact ⟨⟨by simp, by simp, ⟨m.next_info, by simp⟩, hr⟩, fun _ => ⟨rfl, rfl, rfl, rfl⟩⟩

/-- From one pause to the next handler. -/
theorem call (hI : Idling c m) (hsize : 0 < cfg.trap_wait_queue_size) : ∃ m',
    Runs.Reaches step creates 0 m m' ∧ Taking c m' ∧ m'.idle_handlers = m.idle_handlers ∧
    ∀ h, Untouched m m' h := by
  obtain ⟨m₁, hr₁, hS, hi₁, hu₁⟩ := sleep hI
  obtain ⟨m₂, hr₂, hT, hi₂, hu₂⟩ := interrupt hS hsize
  exact ⟨m₂, Runs.Reaches.trans ⟨_, hr₁, rfl⟩ ⟨_, hr₂, rfl⟩, hT, hi₂.trans hi₁, fun h => (hu₁ h).trans (hu₂ h)⟩

theorem take_idle (hI : Taking c m) (hidle : m.idle_handlers = g :: pool) (hg : Resting m g) : ∃ m' i,
    Runs.run step m [.next c] = some m' ∧ Holding c g (.set_pid g .kernel) .ready .top [⟨i, none⟩] m' ∧
    m'.idle_handlers = pool ∧ SameBut g m m' := by
  obtain ⟨hpc, hk, ⟨i, ht⟩, hr⟩ := hI
  obtain ⟨⟨hker, hl⟩, hst, hstage⟩ := hg
  simp [step, next, get_idle_handler, hpc, hidle, hst, set_pc, TaskState.wake_blocked, TaskState.match_set,
    Tasks.set_state]
  exact ⟨⟨i, by simp, rfl, hk, ht, hr, ⟨by simp [hker], by simp [hl]⟩, by simp, hstage⟩,
    fun h hne => ⟨rfl, by simp [hne], rfl, rfl⟩⟩

/-- The TCB of the handlers created in the example. -/
def fresh_task (cfg : Config) : Task cfg := ⟨.blocked, cfg.highest_priority, false, true, .kernel⟩

theorem level_highest : cfg.level cfg.highest_priority = some .top :=
  level_eq_some.mpr (by simp [Level.prio, Level.top])

theorem take_new (hI : Taking c m) (hidle : m.idle_handlers = []) (hg : m.known g = false) : ∃ m' i,
    Runs.run step m [.next c, .new_handler c g (fresh_task cfg)] = some m' ∧
    Holding c g (.set_pid g .kernel) .ready .top [⟨i, none⟩] m' ∧ m'.idle_handlers = [] ∧ SameBut g m m' := by
  obtain ⟨hpc, hk, ⟨i, ht⟩, hr⟩ := hI
  simp [step, next, get_idle_handler, hpc, hidle, new_handler, hg, fresh_task, create, create_new_handler, set_pc,
    Tasks.set_state, TaskState.match_set]
  exact ⟨⟨i, by simp, rfl, hk, ht, hr, ⟨by simp, by simp [level_highest]⟩, by simp, by simp⟩,
    fun h hne => ⟨by simp [hne], by simp [hne], rfl, by simp [hne]⟩⟩

theorem give_pid (hH : Holding c g (.set_pid g .kernel) .ready st q m) : ∃ m',
    Runs.run step m [.next c] = some m' ∧ Holding c g (.popped g .kernel) .ready st q m' ∧
    m'.idle_handlers = m.idle_handlers ∧ SameBut g m m' := by
  obtain ⟨hpc, -, hk, ht, hr, ⟨hker, hl⟩, hst, hstage⟩ := hH
  simp [step, next, hpc, set_pc, Tasks.set_pid]
  exact ⟨⟨by simp, rfl, hk, ht, hr, ⟨by simp [hker], by simp [hl]⟩, by simp [hst], hstage⟩,
    fun h hne => ⟨rfl, by simp [hne], rfl, rfl⟩⟩

theorem dispatch (hH : Holding c g (.popped g .kernel) .ready st q m) : ∃ m',
    Runs.run step m [.next c, .next c] = some m' ∧ Holding c g .run .running st q m' ∧
    m'.idle_handlers = m.idle_handlers ∧ SameBut g m m' := by
  obtain ⟨hpc, -, hk, ht, hr, ⟨hker, hl⟩, hst, hstage⟩ := hH
  simp [step, next, hpc, set_vspace, set_current, set_pc, run_current, hst, set_state, Tasks.set_state]
  exact ⟨⟨by simp, by simp [Pc.owner], hk, ht, hr, ⟨by simp [hker], by simp [hl]⟩, by simp, hstage⟩,
    fun h hne => ⟨rfl, by simp [hne], rfl, rfl⟩⟩

/-- The handler takes the trap and blocks inside `handle`. -/
theorem block {i : ℕ} (hH : Holding c g .run .running .top [⟨i, none⟩] m) : ∃ m',
    Runs.run step m [.next c, .next c, .set_self c .blocking, .leave c false] = some m' ∧
    Idling c m' ∧ Stuck m' g ∧ m'.idle_handlers = m.idle_handlers ∧ SameBut g m m' := by
  obtain ⟨hpc, ho, hk, ht, hr, ⟨hker, hl⟩, hst, hstage⟩ := hH
  have hcur : m.current_task c = g := Option.some.inj ho
  simp [step, next, leave, set_self, in_code, hpc, hcur, ht, hstage, set_pc, set_vspace, set_state, Tasks.set_state,
    Tasks.set_pid, handler_next, emit, set_stage, phase2, set_wait, save_context, TaskState.leave,
    TaskState.match_set, TrapItem.pid]
  exact ⟨⟨⟨false, by simp⟩, hk, by simp, hr⟩, ⟨⟨by simp [hker], by simp [hl]⟩, by simp, by simp, i, by simp⟩,
    fun h hne => ⟨rfl, by simp [hne], by simp [hne], by simp [hne]⟩⟩

/-- A task that is no handler blocks. -/
theorem block_self (hpc : m.pc c = .run) (hstage : m.stage (m.current_task c) = none) (hk : m.in_kernel c = true)
    (ht : m.traps c = []) (hr : m.ready .kernel .top = []) : ∃ m',
    Runs.run step m [.set_self c .blocking, .leave c false] = some m' ∧ Idling c m' ∧
    m'.idle_handlers = m.idle_handlers ∧ SameBut (m.current_task c) m m' := by
  simp [step, set_self, leave, in_code, hpc, hstage, set_wait, set_pc, save_context, phase2, set_state,
    Tasks.set_state, TaskState.leave, TaskState.match_set]
  exact ⟨⟨⟨false, by simp⟩, hk, ht, hr⟩, fun h hne => ⟨rfl, by simp [hne], by simp [hne], rfl⟩⟩

/-- The event a handler waits for happens. -/
theorem resume (hI : Idling c m) (hg : Stuck m g) (hready : 0 < cfg.ready_queue_size) : ∃ m' i,
    Runs.run step m [.wake g, .wake_push g, .pop_ready c .kernel .top] = some m' ∧
    Holding c g (.popped g .kernel) .ready (.handle ⟨i, none⟩) [] m' ∧
    m'.idle_handlers = m.idle_handlers ∧ SameBut g m m' := by
  obtain ⟨⟨b, hpc⟩, hk, ht, hr⟩ := hI
  obtain ⟨⟨hker, hl⟩, hst, hw, ⟨i, hstage⟩⟩ := hg
  simp [step, wake, hw, hst, wake_push, push_task, home, hker, hl, hr, hready, pop_ready, set_ready, hpc, hk,
    set_pc, Tasks.set_state, set_wait]
  exact ⟨⟨i, by simp, rfl, hk, ht, by simp, ⟨by simp, by simp [hl]⟩, by simp, hstage⟩,
    fun h hne => ⟨rfl, by simp [hne], by simp [hne], rfl⟩⟩

/-- `handle` returns, and there is no other trap. -/
theorem finish {i : ℕ} (hH : Holding c g .run .running (.handle ⟨i, none⟩) [] m) : ∃ m',
    Runs.run step m [.next c, .next c, .next c, .next c] = some m' ∧ Holding c g .idle_push .blocking .top [] m' ∧
    m'.idle_handlers = m.idle_handlers ∧ SameBut g m m' := by
  obtain ⟨hpc, ho, hk, ht, hr, ⟨hker, hl⟩, hst, hstage⟩ := hH
  have hcur : m.current_task c = g := Option.some.inj ho
  simp [step, next, hpc, hcur, hstage, handler_next, emit, set_stage, ht, Tasks.set_pid, Tasks.set_state, set_pc]
  exact ⟨⟨by simp, by simpa [Pc.owner] using hcur, hk, ht, hr, ⟨by simp [hker], by simp [hl]⟩, by simp, by simp⟩,
    fun h hne => ⟨rfl, by simp [hne], rfl, by simp [hne]⟩⟩

theorem push_idle (hH : Holding c g .idle_push .blocking .top [] m)
    (hroom : m.idle_handlers.length < cfg.trap_wait_queue_size) : ∃ m',
    Runs.run step m [.next c, .next c] = some m' ∧ Idling c m' ∧ Resting m' g ∧
    m'.idle_handlers = m.idle_handlers ++ [g] ∧ SameBut g m m' := by
  obtain ⟨hpc, ho, hk, ht, hr, ⟨hker, hl⟩, hst, hstage⟩ := hH
  have hcur : m.current_task c = g := Option.some.inj ho
  simp [step, next, hpc, hcur, hroom, set_pc, phase2, save_context, hst, set_state, Tasks.set_state, TaskState.leave,
    TaskState.match_set]
  exact ⟨⟨⟨false, by simp⟩, hk, ht, hr⟩, ⟨⟨by simp [hker], by simp [hl]⟩, by simp, hstage⟩,
    fun h hne => ⟨rfl, by simp [hne], rfl, rfl⟩⟩

theorem push_idle_full (hH : Holding c g .idle_push .blocking .top [] m)
    (hfull : cfg.trap_wait_queue_size ≤ m.idle_handlers.length) :
    ∃ m', Runs.run step m [.next c] = some m' ∧ m'.pc c = .panicked .pool_full := by
  have hno : ¬ m.idle_handlers.length < cfg.trap_wait_queue_size := by omega
  simp [step, next, hH.pc, hno, set_pc]

/-! ### Many rounds -/

/-- The handlers in the pool and those blocked inside `handle`; from the pointer `k` on no task exists. -/
structure Crowd (c : Cpu cfg) (pool away : List TaskPtr) (k : ℕ) (m : Machine cfg) : Prop where
  idling : Idling c m
  idle : m.idle_handlers = pool
  resting : ∀ h ∈ pool, Resting m h
  stuck : ∀ h ∈ away, Stuck m h
  nodup : (pool ++ away).Nodup
  below : ∀ h ∈ pool ++ away, h < k
  fresh : ∀ t, k ≤ t → m.known t = false

namespace Crowd

/-- From `take_task` to the next pause. -/
theorem served {i : ℕ} (hH : Holding c g (.set_pid g .kernel) .ready .top [⟨i, none⟩] m) : ∃ m',
    Runs.Reaches step creates 0 m m' ∧ Idling c m' ∧ Stuck m' g ∧ m'.idle_handlers = m.idle_handlers ∧
    SameBut g m m' := by
  obtain ⟨m₁, hr₁, hH₁, hi₁, hs₁⟩ := give_pid hH
  obtain ⟨m₂, hr₂, hH₂, hi₂, hs₂⟩ := dispatch hH₁
  obtain ⟨m₃, hr₃, hI, hg, hi₃, hs₃⟩ := block hH₂
  have hreach : Runs.Reaches step creates 0 m m₃ :=
    (Runs.Reaches.trans ⟨_, hr₁, rfl⟩ ⟨_, hr₂, rfl⟩).trans ⟨_, hr₃, rfl⟩
  exact ⟨m₃, hreach, hI, hg, (hi₃.trans hi₂).trans hi₁, (hs₁.trans hs₂).trans hs₃⟩

/-- Only the handler `g` has moved. -/
theorem of_move {pool' away' : List TaskPtr} {k' : ℕ} (hC : Crowd c pool away k m) (hI : Idling c m')
    (hsame : SameBut g m m') (hidle : m'.idle_handlers = pool')
    (hrest : ∀ h ∈ pool', h ≠ g → h ∈ pool) (hstuck : ∀ h ∈ away', h ≠ g → h ∈ away)
    (hg : (g ∈ pool' → Resting m' g) ∧ (g ∈ away' → Stuck m' g)) (hnodup : (pool' ++ away').Nodup)
    (hlt : g < k') (hle : k ≤ k') : Crowd c pool' away' k' m' where
  idling := hI
  idle := hidle
  resting := by
    intro h hmem
    rcases eq_or_ne h g with rfl | hne
    · exact hg.1 hmem
    · exact (hsame h hne).resting (hC.resting h (hrest h hmem hne))
  stuck := by
    intro h hmem
    rcases eq_or_ne h g with rfl | hne
    · exact hg.2 hmem
    · exact (hsame h hne).stuck (hC.stuck h (hstuck h hmem hne))
  nodup := hnodup
  below := by
    intro h hmem
    rcases eq_or_ne h g with rfl | hne
    · exact hlt
    · refine Nat.lt_of_lt_of_le (hC.below h ?_) hle
      rcases List.mem_append.mp hmem with hmem | hmem
      · exact List.mem_append_left away (hrest h hmem hne)
      · exact List.mem_append_right pool (hstuck h hmem hne)
  fresh := by
    intro t ht
    have hne : t ≠ g := Nat.ne_of_gt (Nat.lt_of_lt_of_le hlt ht)
    rw [(hsame t hne).known]
    exact hC.fresh t (hle.trans ht)

/-- A round with a handler from the pool. -/
theorem pick (hC : Crowd c (g :: pool) away k m) (hsize : 0 < cfg.trap_wait_queue_size) : ∃ m',
    Runs.Reaches step creates 0 m m' ∧ Crowd c pool (g :: away) k m' := by
  obtain ⟨m₁, hr₁, hT, hi₁, hu₁⟩ := call hC.idling hsize
  have hg : Resting m₁ g := (hu₁ g).resting (hC.resting g (by simp))
  obtain ⟨m₂, i, hr₂, hH, hi₂, hs₂⟩ := take_idle hT (hi₁.trans hC.idle) hg
  obtain ⟨m₃, hr₃, hI, hst, hi₃, hs₃⟩ := served hH
  have hsame : SameBut g m m₃ := fun h hne => (hu₁ h).trans ((hs₂.trans hs₃) h hne)
  have hnodup : (g :: (pool ++ away)).Nodup := hC.nodup
  have hnot : g ∉ pool := fun hmem => (List.nodup_cons.mp hnodup).1 (List.mem_append_left away hmem)
  refine ⟨m₃, (hr₁.trans ⟨_, hr₂, rfl⟩).trans hr₃, ?_⟩
  refine hC.of_move hI hsame (hi₃.trans hi₂) ?_ ?_ ⟨fun hmem => absurd hmem hnot, fun _ => hst⟩ ?_ ?_ le_rfl
  · intro h hmem _
    exact List.mem_cons_of_mem g hmem
  · intro h hmem hne
    exact (List.mem_cons.mp hmem).resolve_left hne
  · exact List.nodup_middle.mpr hnodup
  · exact hC.below g (by simp)

/-- A round with a new handler. -/
theorem create (hC : Crowd c [] away k m) (hsize : 0 < cfg.trap_wait_queue_size) : ∃ m',
    Runs.Reaches step creates 1 m m' ∧ Crowd c [] (k :: away) (k + 1) m' := by
  obtain ⟨m₁, hr₁, hT, hi₁, hu₁⟩ := call hC.idling hsize
  have hk : m₁.known k = false := (hu₁ k).known.trans (hC.fresh k le_rfl)
  obtain ⟨m₂, i, hr₂, hH, hi₂, hs₂⟩ := take_new hT (hi₁.trans hC.idle) hk
  obtain ⟨m₃, hr₃, hI, hst, hi₃, hs₃⟩ := served hH
  have hsame : SameBut k m m₃ := fun h hne => (hu₁ h).trans ((hs₂.trans hs₃) h hne)
  have hnot : k ∉ away := fun hmem => Nat.lt_irrefl k (hC.below k hmem)
  refine ⟨m₃, (hr₁.trans ⟨_, hr₂, rfl⟩).trans hr₃, ?_⟩
  refine hC.of_move hI hsame (hi₃.trans hi₂) ?_ ?_ ⟨by simp, fun _ => hst⟩ ?_ (Nat.lt_succ_self k) (Nat.le_succ k)
  · intro h hmem _
    exact hmem
  · intro h hmem hne
    exact (List.mem_cons.mp hmem).resolve_left hne
  · exact List.nodup_cons.mpr ⟨hnot, hC.nodup⟩

/-- A handler returns from `handle` and goes to the pool. -/
theorem push (hC : Crowd c pool (g :: away) k m) (hready : 0 < cfg.ready_queue_size) : ∃ m',
    Runs.Reaches step creates 0 m m' ∧ Holding c g .idle_push .blocking .top [] m' ∧ m'.idle_handlers = pool ∧
    SameBut g m m' := by
  obtain ⟨m₁, i, hr₁, hH₁, hi₁, hs₁⟩ := resume hC.idling (hC.stuck g (by simp)) hready
  obtain ⟨m₂, hr₂, hH₂, hi₂, hs₂⟩ := dispatch hH₁
  obtain ⟨m₃, hr₃, hH₃, hi₃, hs₃⟩ := finish hH₂
  have hreach : Runs.Reaches step creates 0 m m₃ :=
    (Runs.Reaches.trans ⟨_, hr₁, rfl⟩ ⟨_, hr₂, rfl⟩).trans ⟨_, hr₃, rfl⟩
  exact ⟨m₃, hreach, hH₃, ((hi₃.trans hi₂).trans hi₁).trans hC.idle, (hs₁.trans hs₂).trans hs₃⟩

theorem come_back (hC : Crowd c pool (g :: away) k m) (hready : 0 < cfg.ready_queue_size)
    (hroom : pool.length < cfg.trap_wait_queue_size) : ∃ m',
    Runs.Reaches step creates 0 m m' ∧ Crowd c (pool ++ [g]) away k m' := by
  obtain ⟨m₁, hr₁, hH, hi₁, hs₁⟩ := hC.push hready
  obtain ⟨m₂, hr₂, hI, hrest, hi₂, hs₂⟩ := push_idle hH (by rwa [hi₁])
  have hnodup : (g :: (pool ++ away)).Nodup := List.nodup_middle.mp hC.nodup
  have hnot : g ∉ away := fun hmem => (List.nodup_cons.mp hnodup).1 (List.mem_append_right pool hmem)
  refine ⟨m₂, hr₁.trans ⟨_, hr₂, rfl⟩, ?_⟩
  refine hC.of_move hI (hs₁.trans hs₂) (by rw [hi₂, hi₁]) ?_ ?_ ⟨fun _ => hrest, fun hmem => absurd hmem hnot⟩ ?_ ?_
    le_rfl
  · intro h hmem hne
    rcases List.mem_append.mp hmem with hmem | hmem
    · exact hmem
    · exact absurd (List.mem_singleton.mp hmem) hne
  · intro h hmem _
    exact List.mem_cons_of_mem g hmem
  · simpa using hC.nodup
  · exact hC.below g (by simp)

theorem overflow (hC : Crowd c pool (g :: away) k m) (hready : 0 < cfg.ready_queue_size)
    (hfull : cfg.trap_wait_queue_size ≤ pool.length) : ∃ m',
    Runs.Reaches step creates 0 m m' ∧ m'.pc c = .panicked .pool_full := by
  obtain ⟨m₁, hr₁, hH, hi₁, -⟩ := hC.push hready
  obtain ⟨m₂, hr₂, hpc⟩ := push_idle_full hH (by rwa [hi₁])
  exact ⟨m₂, hr₁.trans ⟨_, hr₂, rfl⟩, hpc⟩

/-- All handlers of the pool are blocked in turn. -/
theorem pick_all (hsize : 0 < cfg.trap_wait_queue_size) : ∀ {pool away : List TaskPtr} {m : Machine cfg},
    Crowd c pool away k m → ∃ m' away', Runs.Reaches step creates 0 m m' ∧ Crowd c [] away' k m' ∧
      away'.length = pool.length + away.length := by
  intro pool
  induction pool with
  | nil =>
    intro away m hC
    exact ⟨m, away, Runs.Reaches.refl m, hC, by simp⟩
  | cons g pool ih =>
    intro away m hC
    obtain ⟨m₁, hr₁, hC₁⟩ := hC.pick hsize
    obtain ⟨m₂, away', hr₂, hC₂, hlen⟩ := ih hC₁
    refine ⟨m₂, away', hr₁.trans hr₂, hC₂, ?_⟩
    rw [hlen, List.length_cons, List.length_cons]
    omega

/-- With the pool empty, `n` more handlers are created and blocked. -/
theorem create_all (hsize : 0 < cfg.trap_wait_queue_size) : ∀ (n : ℕ) {away : List TaskPtr} {k : ℕ} {m : Machine cfg},
    Crowd c [] away k m → ∃ m' away' k', Runs.Reaches step creates n m m' ∧ Crowd c [] away' k' m' ∧
      away'.length = away.length + n := by
  intro n
  induction n with
  | zero =>
    intro away k m hC
    exact ⟨m, away, k, Runs.Reaches.refl m, hC, rfl⟩
  | succ n ih =>
    intro away k m hC
    obtain ⟨m₁, hr₁, hC₁⟩ := hC.create hsize
    obtain ⟨m₂, away', k', hr₂, hC₂, hlen⟩ := ih hC₁
    refine ⟨m₂, away', k', ?_, hC₂, ?_⟩
    · rw [Nat.add_comm]
      exact hr₁.trans hr₂
    · rw [hlen, List.length_cons]
      omega

/-- The handlers come back until the pool is full; the next one panics. -/
theorem push_all (hready : 0 < cfg.ready_queue_size) : ∀ {away pool : List TaskPtr} {m : Machine cfg},
    Crowd c pool away k m → pool.length ≤ cfg.trap_wait_queue_size →
    cfg.trap_wait_queue_size < pool.length + away.length →
    ∃ m', Runs.Reaches step creates 0 m m' ∧ m'.pc c = .panicked .pool_full := by
  intro away
  induction away with
  | nil =>
    intro pool m hC hle hlt
    exact absurd hlt (by simpa using hle)
  | cons g away ih =>
    intro pool m hC hle hlt
    by_cases hroom : pool.length < cfg.trap_wait_queue_size
    · obtain ⟨m₁, hr₁, hC₁⟩ := hC.come_back hready hroom
      have hlen : (pool ++ [g]).length = pool.length + 1 := List.length_append
      rw [List.length_cons] at hlt
      obtain ⟨m₂, hr₂, hpc⟩ := ih hC₁ (by omega) (by omega)
      exact ⟨m₂, hr₁.trans hr₂, hpc⟩
    · exact hC.overflow hready (by omega)

end Crowd

theorem plain_fresh {t : ℕ} (ht : 3 * cfg.cpu_num ≤ t) : (Boot.plain cfg).machine.known t = false := by
  refine decide_eq_false ?_
  rintro ⟨d, hd⟩
  have hlt := d.isLt
  change (d : ℕ) = t ∨ cfg.cpu_num + (d : ℕ) = t ∨ 2 * cfg.cpu_num + (d : ℕ) = t at hd
  omega

/-- After the boot the init task of the CPU blocks. -/
theorem boot_crowd (c : Cpu cfg) : ∃ m, Runs.Reaches step creates 0 (Boot.plain cfg).machine m ∧
    Crowd c ((List.finRange cfg.cpu_num).map (Boot.plain cfg).handlers) [] (3 * cfg.cpu_num) m := by
  have hne : ∀ d, (Boot.plain cfg).handlers d ≠ (Boot.plain cfg).init_task c :=
    fun d => ((Boot.plain cfg).init_ne_handler c d).symm
  have hstage : (Boot.plain cfg).machine.stage ((Boot.plain cfg).init_task c) = none := by simp [Boot.machine, hne]
  obtain ⟨m, hr, hI, hidle, hsame⟩ := block_self (m := (Boot.plain cfg).machine) rfl hstage rfl rfl rfl
  refine ⟨m, ⟨_, hr, rfl⟩, ?_⟩
  exact {
    idling := hI
    idle := hidle
    resting := by
      intro h hmem
      obtain ⟨d, -, rfl⟩ := List.mem_map.mp hmem
      refine (hsame _ (hne d)).resting ⟨⟨?_, ?_⟩, ?_, ?_⟩
      · simp [Boot.machine, Boot.plain]
      · simp [Boot.machine, Boot.plain, level_highest]
      · simp [Boot.machine]
      · simp [Boot.machine]
    stuck := by simp
    nodup := by simpa using (List.nodup_finRange _).map (Boot.plain cfg).handlers_inj
    below := by
      intro h hmem
      rw [List.append_nil] at hmem
      obtain ⟨d, -, rfl⟩ := List.mem_map.mp hmem
      have hlt := d.isLt
      change 2 * cfg.cpu_num + (d : ℕ) < 3 * cfg.cpu_num
      omega
    fresh := by
      intro t ht
      have hlt := c.isLt
      have hne : t ≠ (Boot.plain cfg).init_task c := by
        simp only [Boot.plain]
        omega
      rw [(hsame t hne).known]
      exact plain_fresh ht }

/-- In every configuration a run overflows the pool with one handler more than places. -/
theorem overflow_reachable (cfg : Config) (hsize : cfg.cpu_num ≤ cfg.trap_wait_queue_size)
    (hready : 0 < cfg.ready_queue_size) : ∃ acts m,
    Runs.run step (Boot.plain cfg).machine acts = some m ∧
    cfg.cpu_num + acts.countP creates = cfg.trap_wait_queue_size + 1 ∧
    m.pc (⟨0, cfg.cpu_pos⟩ : Cpu cfg) = .panicked .pool_full := by
  have hpos : 0 < cfg.trap_wait_queue_size := Nat.lt_of_lt_of_le cfg.cpu_pos hsize
  obtain ⟨m₁, hr₁, hC₁⟩ := boot_crowd (⟨0, cfg.cpu_pos⟩ : Cpu cfg)
  obtain ⟨m₂, away, hr₂, hC₂, hlen⟩ := hC₁.pick_all hpos
  obtain ⟨m₃, away', k, hr₃, hC₃, hlen'⟩ := hC₂.create_all hpos (cfg.trap_wait_queue_size + 1 - cfg.cpu_num)
  rw [List.length_map, List.length_finRange, List.length_nil] at hlen
  obtain ⟨m₄, hr₄, hpc⟩ := hC₃.push_all hready (Nat.zero_le _) (by rw [hlen', hlen, List.length_nil]; omega)
  obtain ⟨acts, hrun, hcount⟩ := ((hr₁.trans hr₂).trans hr₃).trans hr₄
  exact ⟨acts, m₄, hrun, by omega, hpc⟩

/-- The bound is exact: the pool has room in all runs with at most `n` handlers if and only if it has
    `n` places. -/
theorem room_iff (hn : cfg.cpu_num ≤ n) (hready : 0 < cfg.ready_queue_size) :
    (∀ (b : Boot cfg) acts m, Runs.run step b.machine acts = some m →
      cfg.cpu_num + acts.countP creates ≤ n → Room m) ↔ n ≤ cfg.trap_wait_queue_size := by
  constructor
  · intro hroom
    have hsize : cfg.cpu_num ≤ cfg.trap_wait_queue_size := by
      have hle := (hroom (Boot.plain cfg) [] _ rfl hn).length_le
      simpa [Boot.machine] using hle
    obtain ⟨acts, m, hrun, hcount, hpc⟩ := overflow_reachable cfg hsize hready
    by_contra hlt
    exact (hroom (Boot.plain cfg) acts m hrun (by omega)).not_full _ hpc
  · intro hle b acts m hrun hfew
    exact (run_manned b hrun).room (hfew.trans hle)

/-- With the default constants 256 handlers besides the first are enough. -/
theorem pool_overflows : ∃ acts m, Runs.run step (Boot.plain solo).machine acts = some m ∧
    acts.countP creates = 256 ∧ m.pc solo_cpu = .panicked .pool_full := by
  obtain ⟨acts, m, hrun, hcount, hpc⟩ := overflow_reachable solo (by decide) (by decide)
  have hcount' : 1 + acts.countP creates = 257 := hcount
  exact ⟨acts, m, hrun, by omega, hpc⟩

end HandlerPool

end Vsched2
