import Vsched2.Scheduler
import Vsched2.Lib.Run

/-! The priorities a scheduler publishes for the CPUs of its process.

    A published priority may be too urgent, which costs a failed selection; a priority that is not
    urgent enough hides work. The trap queues are per-CPU while `push_task` and `pop_task` publish
    for all CPUs the priority the running CPU sees, so a trap pending on another CPU gets hidden.
    `visits_iff_along` says exactly which runs never hide work. -/

namespace Vsched2.HiddenWork

variable {cfg : Config}

/-- A scheduler with the tasks and its process's row of published priorities. -/
structure State (cfg : Config) where
  sched : Scheduler cfg
  tasks : Tasks cfg
  highest_prio : Row cfg

/-- The operations on one scheduler, each run as one step on `cpu`, and changes the OS makes to a
    task between them. -/
inductive Op (cfg : Config) where
  | init_sources (cpu : Cpu cfg) (handlers : Cpu cfg → TaskPtr)
  | push_task (cpu : Cpu cfg) (task : TaskPtr)
  | push_trap (cpu : Cpu cfg) (item : TrapItem) (cpuid : Cpu cfg)
  | pop_task (cpu : Cpu cfg) (fresh : TaskPtr × Task cfg)
  | trap_handler (cpu : Cpu cfg)
  | os (task : TaskPtr) (value : Task cfg)

/-- A scheduler as `init_except_sources` leaves it, with the row of a slot never used. -/
def start (tasks : Tasks cfg) : State cfg where
  sched := .new
  tasks := tasks
  highest_prio := fun _ => cfg.isize_max

/-- One operation; `none` is a panic or a call that does not return. The sources are initialised
    once. -/
def step (s : State cfg) : Op cfg → Option (State cfg)
  | .init_sources cpu handlers =>
    if s.sched.sources = [] then
      (s.sched.init_sources s.tasks cpu handlers s.highest_prio).map fun r => ⟨r.1, r.2.1, r.2.2⟩
    else none
  | .push_task cpu task =>
    (s.sched.push_task s.tasks cpu task s.highest_prio).map fun r => ⟨r.2.1, s.tasks, r.2.2⟩
  | .push_trap cpu item cpuid =>
    let r := s.sched.push_trap cpu item cpuid s.highest_prio
    some ⟨r.2.1, s.tasks, r.2.2⟩
  | .pop_task cpu fresh =>
    (s.sched.pop_task s.tasks cpu fresh s.highest_prio).map fun r => ⟨r.2.1.1, r.2.1.2, r.2.2⟩
  | .trap_handler cpu =>
    let r := s.sched.trap_handler_pop cpu s.highest_prio
    some ⟨r.2.1, s.tasks, r.2.2⟩
  | .os task value => some { s with tasks := Function.update s.tasks task value }

/-- No CPU's published priority is less urgent than the priority of the scheduler on that CPU. -/
def NoHiddenWork (s : State cfg) : Prop :=
  ∀ c, s.highest_prio c ≤ s.sched.hightest_priority c

/-- If a trap is pending on some CPU, then one is pending on `cpu` too or `urgent` holds. -/
def TrapsSeen (s : Scheduler cfg) (cpu : Cpu cfg) (urgent : Prop) : Prop :=
  (∃ c, s.trap_wait_queue.queues c ≠ []) → s.trap_wait_queue.queues cpu ≠ [] ∨ urgent

/-- A task of the highest priority is queued. -/
def TopReady (s : Scheduler cfg) : Prop := s.ready_queue.queues Level.top ≠ []

/-- The level the task goes to is full. -/
def LevelFull (s : State cfg) (task : TaskPtr) : Prop :=
  ∃ l, cfg.level (s.tasks task).priority = some l ∧
    cfg.ready_queue_size ≤ (s.sched.ready_queue.queues l).length

/-- The operation publishes for no CPU a priority below that CPU's own work. An operation that
    publishes for all CPUs while a trap is pending has to publish `HIGHEST_PRIORITY`; a trap is
    pushed for the CPU that runs `push_trap`. -/
def Sees (s : State cfg) : Op cfg → Prop
  | .init_sources cpu _ => TrapsSeen s.sched cpu (TopReady s.sched)
  | .push_task cpu task =>
    s.sched.sources = [] ∨ LevelFull s task ∨ TrapsSeen s.sched cpu
      (TopReady s.sched ∨ (s.tasks task).priority = cfg.highest_priority)
  | .push_trap cpu _ cpuid =>
    s.sched.sources = [] ∨ cpuid = cpu ∨
      cfg.trap_wait_queue_size ≤ (s.sched.trap_wait_queue.queues cpuid).length ∨
      s.highest_prio cpuid ≤ cfg.highest_priority
  | .pop_task cpu _ =>
    s.sched.sources = [] ∨ (∀ l, s.sched.ready_queue.queues l = []) ∨
      TrapsSeen s.sched cpu (TopReady s.sched)
  | .trap_handler _ => True
  | .os _ _ => True

/-! ### Publishing for all CPUs -/

theorem top_ready_iff {s : Scheduler cfg} :
    s.ready_queue.best_prio ≤ cfg.highest_priority ↔ TopReady s := by
  rw [← Level.top_prio, ReadyQueue.best_prio_le]
  simp [Level.le_top_iff, TopReady]

/-- A priority not below the ready tasks is right for every CPU unless a trap is pending and the
    priority is not the highest. -/
theorem all_le_iff {s : Scheduler cfg} (ho : s.Ok)
    (hs : s.sources = [.trap_wait_queue, .ready_queue]) {p : ℤ} (hp : p ≤ s.ready_queue.best_prio) :
    (∀ c, p ≤ s.hightest_priority c) ↔
      ((∃ c, s.trap_wait_queue.queues c ≠ []) → p ≤ cfg.highest_priority) := by
  simp only [Scheduler.hightest_priority_eq ho hs]
  constructor
  · rintro h ⟨c, hc⟩
    simpa [hc] using h c
  · intro h c
    split
    · exact hp
    · rename_i hc
      exact h ⟨c, hc⟩

/-- What `get_and_update_all_prio` publishes is right for every CPU exactly when the running CPU
    sees the traps of the others. -/
theorem publish_all_iff {s : Scheduler cfg} (ho : s.Ok)
    (hs : s.sources = [.trap_wait_queue, .ready_queue]) (cpu : Cpu cfg) :
    (∀ c, s.hightest_priority cpu ≤ s.hightest_priority c) ↔ TrapsSeen s cpu (TopReady s) := by
  have hge := @Scheduler.highest_le_best cfg s.ready_queue
  have hle : s.hightest_priority cpu ≤ s.ready_queue.best_prio := by
    rw [Scheduler.hightest_priority_eq ho hs]; split <;> omega
  rw [all_le_iff ho hs hle, TrapsSeen, ← top_ready_iff, Scheduler.hightest_priority_eq ho hs]
  refine forall_congr' fun _ => ?_
  by_cases hq : s.trap_wait_queue.queues cpu = []
  · simp [hq]
  · simp [hq]

/-! ### What an operation can do -/

/-- The effects of the operations on a scheduler in order. -/
inductive Effect (s : State cfg) : Op cfg → State cfg → Prop where
  | init_sources {cpu handlers q ts} {sched : Scheduler cfg} (hs : s.sched.sources = [])
      (hinit : s.sched.trap_wait_queue.init s.tasks handlers = some (q, ts))
      (hsched : sched = { s.sched with sources := [.trap_wait_queue, .ready_queue], trap_wait_queue := q }) :
      Effect s (.init_sources cpu handlers)
        ⟨sched, ts, update_prio s.highest_prio (sched.hightest_priority cpu) none⟩
  | push_refused {cpu task l} (hl : cfg.level (s.tasks task).priority = some l)
      (hfull : cfg.ready_queue_size ≤ (s.sched.ready_queue.queues l).length) :
      Effect s (.push_task cpu task) s
  | push_task {cpu task l q} {sched : Scheduler cfg} (hl : cfg.level (s.tasks task).priority = some l)
      (hq : s.sched.ready_queue.push_level l task = .ok q)
      (hroom : (s.sched.ready_queue.queues l).length < cfg.ready_queue_size)
      (hsched : sched = { s.sched with ready_queue := q }) :
      Effect s (.push_task cpu task)
        ⟨sched, s.tasks, update_prio s.highest_prio (sched.hightest_priority cpu) none⟩
  | trap_refused {cpu item cpuid}
      (hfull : cfg.trap_wait_queue_size ≤ (s.sched.trap_wait_queue.queues cpuid).length) :
      Effect s (.push_trap cpu item cpuid) s
  | push_trap {cpu item cpuid} {sched : Scheduler cfg}
      (hroom : (s.sched.trap_wait_queue.queues cpuid).length < cfg.trap_wait_queue_size)
      (hsched : sched = { s.sched with
        trap_wait_queue := { s.sched.trap_wait_queue with
          queues := Function.update s.sched.trap_wait_queue.queues cpuid
            (s.sched.trap_wait_queue.queues cpuid ++ [item]) } }) :
      Effect s (.push_trap cpu item cpuid)
        ⟨sched, s.tasks, update_prio s.highest_prio (sched.hightest_priority cpu) (some cpu)⟩
  | pop_nil {cpu fresh} (hs : s.sched.sources = []) :
      Effect s (.pop_task cpu fresh)
        ⟨s.sched, s.tasks, update_prio s.highest_prio cfg.isize_max (some cpu)⟩
  | pop_trap {cpu fresh r q ts} (hs : s.sched.sources = [.trap_wait_queue, .ready_queue])
      (hq : s.sched.trap_wait_queue.queues cpu ≠ [])
      (ht : s.sched.trap_wait_queue.take_task s.tasks cpu fresh = some (r, q, ts))
      (hqs : q.queues = s.sched.trap_wait_queue.queues) :
      Effect s (.pop_task cpu fresh) ⟨{ s.sched with trap_wait_queue := q }, ts,
        update_prio s.highest_prio cfg.highest_priority (some cpu)⟩
  | pop_ready {cpu fresh l task rest} (hs : s.sched.sources = [.trap_wait_queue, .ready_queue])
      (hq : s.sched.trap_wait_queue.queues cpu = []) (hb : s.sched.ready_queue.best = some l)
      (hl : s.sched.ready_queue.queues l = task :: rest) :
      Effect s (.pop_task cpu fresh)
        ⟨{ s.sched with ready_queue := (s.sched.ready_queue.take_level l task rest).2 }, s.tasks,
          update_prio s.highest_prio l.prio none⟩
  | pop_empty {cpu fresh} (hs : s.sched.sources = [.trap_wait_queue, .ready_queue])
      (hq : s.sched.trap_wait_queue.queues cpu = []) (hb : s.sched.ready_queue.best = none) :
      Effect s (.pop_task cpu fresh)
        ⟨s.sched, s.tasks, update_prio s.highest_prio (cfg.lowest_priority + 1) (some cpu)⟩
  | no_trap {cpu} (hq : s.sched.trap_wait_queue.queues cpu = []) : Effect s (.trap_handler cpu) s
  | trap_handler {cpu item rest} {sched : Scheduler cfg}
      (hq : s.sched.trap_wait_queue.queues cpu = item :: rest)
      (hsched : sched = { s.sched with
        trap_wait_queue := { s.sched.trap_wait_queue with
          queues := Function.update s.sched.trap_wait_queue.queues cpu rest } }) :
      Effect s (.trap_handler cpu) ⟨sched, s.tasks,
        if rest = [] then update_prio s.highest_prio (sched.hightest_priority cpu) (some cpu)
        else s.highest_prio⟩
  | os {task value} : Effect s (.os task value) { s with tasks := Function.update s.tasks task value }

theorem step_effect {s s' : State cfg} {op : Op cfg} (ho : s.sched.Ok) (h : step s op = some s') :
    Effect s op s' := by
  cases op with
  | init_sources cpu handlers =>
    simp only [step] at h
    split at h
    · rename_i hs
      simp only [Scheduler.init_sources, Option.map_eq_some_iff, Option.bind_eq_some_iff] at h
      obtain ⟨r, ⟨⟨q, ts⟩, hinit, hr⟩, rfl⟩ := h
      split at hr
      · obtain rfl := Option.some.inj hr
        exact .init_sources hs hinit (by simp [hs])
      · simp at hr
    · simp at h
  | push_task cpu task =>
    simp only [step, Scheduler.push_task, ReadyQueue.push_task, Option.map_map,
      Option.map_eq_some_iff, Function.comp] at h
    obtain ⟨l, hl, rfl⟩ := h
    by_cases hroom : (s.sched.ready_queue.queues l).length < cfg.ready_queue_size
    · obtain ⟨q, hq⟩ : ∃ q, s.sched.ready_queue.push_level l task = .ok q := by
        simp [ReadyQueue.push_level, hroom]
      simp only [hq]
      exact .push_task hl hq hroom rfl
    · simp only [ReadyQueue.push_level, hroom, if_false]
      exact .push_refused hl (not_lt.mp hroom)
  | push_trap cpu item cpuid =>
    obtain rfl := Option.some.inj h
    by_cases hroom : (s.sched.trap_wait_queue.queues cpuid).length < cfg.trap_wait_queue_size
    · simp only [Scheduler.push_trap, TrapWaitQueue.push_trap, hroom, if_true]
      exact .push_trap hroom rfl
    · simp only [Scheduler.push_trap, TrapWaitQueue.push_trap, hroom, if_false]
      exact .trap_refused (not_lt.mp hroom)
  | pop_task cpu fresh =>
    simp only [step, Option.map_eq_some_iff] at h
    obtain ⟨r, hr, rfl⟩ := h
    rcases ho.sources with hs | hs
    · rw [Scheduler.pop_task_nil hs] at hr
      obtain rfl := Option.some.inj hr
      exact .pop_nil hs
    · by_cases hq : s.sched.trap_wait_queue.queues cpu = []
      · cases hb : s.sched.ready_queue.best with
        | none =>
          rw [Scheduler.pop_task_empty ho hs hq hb] at hr
          obtain rfl := Option.some.inj hr
          exact .pop_empty hs hq hb
        | some l =>
          obtain ⟨task, rest, hl, hpop⟩ :=
            Scheduler.pop_task_ready ho hs hq hb s.tasks fresh s.highest_prio
          rw [hpop] at hr
          obtain rfl := Option.some.inj hr
          exact .pop_ready hs hq hb hl
      · obtain ⟨_, q, _, ht, hqs, rfl⟩ :=
          Scheduler.pop_task_trap ho hs hq s.tasks fresh s.highest_prio hr
        exact .pop_trap hs hq ht hqs
  | trap_handler cpu =>
    obtain rfl := Option.some.inj h
    cases hq : s.sched.trap_wait_queue.queues cpu with
    | nil =>
      simp only [Scheduler.trap_handler_pop, TrapWaitQueue.pop_trap, hq]
      exact .no_trap hq
    | cons item rest =>
      simp only [Scheduler.trap_handler_pop, TrapWaitQueue.pop_trap, hq, List.isEmpty_iff]
      exact .trap_handler hq rfl
  | os task value =>
    obtain rfl := Option.some.inj h
    exact .os

/-- Each operation keeps the scheduler in order. -/
theorem step_ok {s s' : State cfg} {op : Op cfg} (ho : s.sched.Ok) (h : step s op = some s') :
    s'.sched.Ok := by
  cases step_effect ho h with
  | init_sources _ _ hsched => subst hsched; exact ⟨ho.synced, Or.inr rfl⟩
  | push_task _ hq _ hsched => subst hsched; exact ⟨ReadyQueue.push_level_synced ho.synced hq, ho.sources⟩
  | push_trap _ hsched => subst hsched; exact ⟨ho.synced, ho.sources⟩
  | trap_handler _ hsched => subst hsched; exact ⟨ho.synced, ho.sources⟩
  | pop_trap => exact ⟨ho.synced, ho.sources⟩
  | pop_ready _ _ _ hl => exact ⟨ReadyQueue.take_level_synced ho.synced hl, ho.sources⟩
  | push_refused => exact ho
  | trap_refused => exact ho
  | pop_nil => exact ho
  | pop_empty => exact ho
  | no_trap => exact ho
  | os => exact ho

/-! ### When an operation keeps all work visible -/

theorem row_le_max {s : State cfg} (hs : s.sched.sources = []) (hn : NoHiddenWork s) (c : Cpu cfg) :
    s.highest_prio c ≤ cfg.isize_max := by
  simpa [Scheduler.hightest_priority_nil hs] using hn c

/-- Publishing for one CPU what is right there hides nothing. -/
theorem publish_one {s : Scheduler cfg} {row : Row cfg} {cpu : Cpu cfg} {prio : ℤ}
    (hp : prio ≤ s.hightest_priority cpu) (h : ∀ c, c ≠ cpu → row c ≤ s.hightest_priority c) (c : Cpu cfg) :
    update_prio row prio (some cpu) c ≤ s.hightest_priority c := by
  rcases eq_or_ne c cpu with rfl | hc
  · rw [update_prio_self]
    exact hp
  · rw [update_prio_of_ne _ _ hc]
    exact h c hc

section Effects

variable {s : State cfg} {sched : Scheduler cfg} {cpu cpuid : Cpu cfg}

theorem sees_push_task (ho : s.sched.Ok) (ho' : sched.Ok) {task : TaskPtr} {l : Level cfg}
    {q : ReadyQueue cfg TaskPtr} (hl : cfg.level (s.tasks task).priority = some l)
    (hok : s.sched.ready_queue.push_level l task = .ok q)
    (hroom : (s.sched.ready_queue.queues l).length < cfg.ready_queue_size)
    (hsched : sched = { s.sched with ready_queue := q }) :
    (∀ c, sched.hightest_priority cpu ≤ sched.hightest_priority c) ↔ Sees s (.push_task cpu task) := by
  have hq := ReadyQueue.push_level_queues hok
  have hnotfull : ¬ LevelFull s task := by
    rintro ⟨m, hm, hmfull⟩
    rw [hl, Option.some.injEq] at hm
    subst hm
    omega
  subst hsched
  rcases ho.sources with hs | hs
  · refine iff_of_true (fun c => ?_) (Or.inl hs)
    simp [Scheduler.hightest_priority, hs]
  · have htop : TopReady { s.sched with ready_queue := q } ↔
        TopReady s.sched ∨ (s.tasks task).priority = cfg.highest_priority := by
      rw [level_eq_some.mp hl, ← Level.top_prio, Level.prio_inj]
      simp only [TopReady, hq]
      rcases eq_or_ne l Level.top with rfl | hlt
      · simp
      · simp [Function.update_of_ne hlt.symm, hlt]
    have hsees : Sees s (.push_task cpu task) ↔ TrapsSeen s.sched cpu
        (TopReady s.sched ∨ (s.tasks task).priority = cfg.highest_priority) := by
      simp only [Sees, hs, hnotfull, reduceCtorEq, false_or]
    rw [hsees]
    exact (publish_all_iff ho' hs cpu).trans (forall_congr' fun _ => or_congr Iff.rfl htop)

theorem sees_push_trap (ho : s.sched.Ok) (ho' : sched.Ok) (hn : NoHiddenWork s) {item : TrapItem}
    (hroom : (s.sched.trap_wait_queue.queues cpuid).length < cfg.trap_wait_queue_size)
    (hsched : sched = { s.sched with
      trap_wait_queue := { s.sched.trap_wait_queue with
        queues := Function.update s.sched.trap_wait_queue.queues cpuid
          (s.sched.trap_wait_queue.queues cpuid ++ [item]) } }) :
    (∀ c, update_prio s.highest_prio (sched.hightest_priority cpu) (some cpu) c ≤ sched.hightest_priority c) ↔
      Sees s (.push_trap cpu item cpuid) := by
  subst hsched
  rcases ho.sources with hs | hs
  · refine iff_of_true (publish_one (le_refl _) fun c _ => ?_) (Or.inl hs)
    simp only [Scheduler.hightest_priority, hs]
    exact row_le_max hs hn c
  · have hsees : Sees s (.push_trap cpu item cpuid) ↔
        cpuid = cpu ∨ s.highest_prio cpuid ≤ cfg.highest_priority := by
      simp only [Sees, hs, not_le.mpr hroom, reduceCtorEq, false_or]
    rw [hsees]
    constructor
    · intro hall
      rcases eq_or_ne cpuid cpu with heq | hne
      · exact Or.inl heq
      · refine Or.inr ?_
        have hc := hall cpuid
        simp only [update_prio_of_ne _ _ hne, Scheduler.hightest_priority_eq ho' hs] at hc
        simpa using hc
    · rintro hcase
      refine publish_one (le_refl _) fun c hc => ?_
      have hnc := hn c
      rw [Scheduler.hightest_priority_eq ho hs] at hnc
      rw [Scheduler.hightest_priority_eq ho' hs]
      rcases eq_or_ne c cpuid with rfl | hcid
      · rcases hcase with rfl | hle
        · exact absurd rfl hc
        · simpa using hle
      · simpa [Function.update_of_ne hcid] using hnc

/-- A trap is taken: the CPU publishes the highest priority, the queues of traps are as before. -/
theorem pop_trap_visible (ho : s.sched.Ok) (ho' : sched.Ok) (hn : NoHiddenWork s)
    (hs : s.sched.sources = [.trap_wait_queue, .ready_queue]) {q : TrapWaitQueue cfg}
    (hqs : q.queues = s.sched.trap_wait_queue.queues)
    (hsched : sched = { s.sched with trap_wait_queue := q }) (c : Cpu cfg) :
    update_prio s.highest_prio cfg.highest_priority (some cpu) c ≤ sched.hightest_priority c := by
  subst hsched
  refine publish_one (Scheduler.hightest_priority_ge ho' cpu) (fun c _ => ?_) c
  have hnc := hn c
  rw [Scheduler.hightest_priority_eq ho hs] at hnc
  rw [Scheduler.hightest_priority_eq ho' hs, hqs]
  exact hnc

/-- A ready task is taken: what is published for all CPUs is the priority of its level. -/
theorem sees_pop_ready (ho' : sched.Ok) (hs : s.sched.sources = [.trap_wait_queue, .ready_queue])
    (hq : s.sched.trap_wait_queue.queues cpu = []) {l : Level cfg} (hb : s.sched.ready_queue.best = some l)
    {task : TaskPtr} {rest : List TaskPtr} {fresh : TaskPtr × Task cfg}
    (hsched : sched = { s.sched with ready_queue := (s.sched.ready_queue.take_level l task rest).2 }) :
    (∀ c, l.prio ≤ sched.hightest_priority c) ↔ Sees s (.pop_task cpu fresh) := by
  subst hsched
  obtain ⟨hne, hmin⟩ := ReadyQueue.best_eq_some.mp hb
  have hbest : l.prio ≤ (s.sched.ready_queue.take_level l task rest).2.best_prio := by
    rw [ReadyQueue.le_best_prio, ReadyQueue.take_level_queues]
    intro m hm
    rw [Function.update_of_ne (ne_of_lt hm)]
    exact hmin m hm
  have htop : l.prio ≤ cfg.highest_priority ↔ TopReady s.sched := by
    rw [← Level.top_prio, ← not_lt, Level.prio_lt_iff, not_lt, Level.le_top_iff]
    constructor
    · rintro rfl
      exact hne
    · intro htop
      by_contra hlt
      exact htop (hmin _ (lt_of_le_of_ne (by simp [Level.top, Fin.le_def]) (Ne.symm hlt)))
  have hnot : ¬ ∀ m, s.sched.ready_queue.queues m = [] := fun hall => hne (hall l)
  have hsees : Sees s (.pop_task cpu fresh) ↔
      ((∃ c, s.sched.trap_wait_queue.queues c ≠ []) → TopReady s.sched) := by
    simp only [Sees, hs, hnot, reduceCtorEq, false_or, TrapsSeen, hq, ne_eq, not_true_eq_false]
  rw [hsees]
  exact (all_le_iff ho' hs hbest).trans (forall_congr' fun _ => htop)

/-- Removing a trap hides nothing: the priority is lowered when the last trap of the CPU goes. -/
theorem trap_handler_visible (ho : s.sched.Ok) (ho' : sched.Ok) (hn : NoHiddenWork s) {item : TrapItem}
    {rest : List TrapItem} (hq : s.sched.trap_wait_queue.queues cpu = item :: rest)
    (hsched : sched = { s.sched with
      trap_wait_queue := { s.sched.trap_wait_queue with
        queues := Function.update s.sched.trap_wait_queue.queues cpu rest } }) (c : Cpu cfg) :
    (if rest = [] then update_prio s.highest_prio (sched.hightest_priority cpu) (some cpu)
      else s.highest_prio) c ≤ sched.hightest_priority c := by
  subst hsched
  have hkept : ∀ c, (c = cpu → rest ≠ []) → s.highest_prio c ≤ Scheduler.hightest_priority { s.sched with
      trap_wait_queue := { s.sched.trap_wait_queue with
        queues := Function.update s.sched.trap_wait_queue.queues cpu rest } } c := by
    intro c hc
    have hnc := hn c
    rcases ho.sources with hs | hs
    · simpa [Scheduler.hightest_priority, hs] using hnc
    · rw [Scheduler.hightest_priority_eq ho hs] at hnc
      rw [Scheduler.hightest_priority_eq ho' hs]
      rcases eq_or_ne c cpu with rfl | hne
      · simpa [hq, hc rfl] using hnc
      · simpa [Function.update_of_ne hne] using hnc
  by_cases hrest : rest = []
  · rw [if_pos hrest]
    exact publish_one (le_refl _) (fun d hd => hkept d fun heq => absurd heq hd) c
  · rw [if_neg hrest]
    exact hkept c fun _ => hrest

end Effects

theorem step_sees {s s' : State cfg} {op : Op cfg} (ho : s.sched.Ok) (hn : NoHiddenWork s)
    (h : step s op = some s') : NoHiddenWork s' ↔ Sees s op := by
  have ho' := step_ok ho h
  cases step_effect ho h with
  | init_sources hs hinit hsched =>
    simp only [TrapWaitQueue.init] at hinit
    split at hinit
    · obtain ⟨rfl, -⟩ := Prod.mk.inj (Option.some.inj hinit)
      subst hsched
      exact publish_all_iff ho' rfl _
    · cases hinit
  | push_refused hl hfull => exact iff_of_true hn (Or.inr (Or.inl ⟨_, hl, hfull⟩))
  | push_task hl hok hroom hsched => exact sees_push_task ho ho' hl hok hroom hsched
  | trap_refused hfull => exact iff_of_true hn (Or.inr (Or.inr (Or.inl hfull)))
  | push_trap hroom hsched => exact sees_push_trap ho ho' hn hroom hsched
  | pop_nil hs =>
    refine iff_of_true (publish_one ?_ fun c _ => hn c) (Or.inl hs)
    rw [Scheduler.hightest_priority_nil hs]
  | pop_trap hs hq _ hqs =>
    exact iff_of_true (pop_trap_visible ho ho' hn hs hqs rfl) (Or.inr (Or.inr fun _ => Or.inl hq))
  | pop_ready hs hq hb _ => exact sees_pop_ready ho' hs hq hb rfl
  | pop_empty hs hq hb =>
    refine iff_of_true (publish_one ?_ fun c _ => hn c) (Or.inr (Or.inl (ReadyQueue.best_eq_none.mp hb)))
    rw [Scheduler.hightest_priority_eq ho hs]
    simp [hq, ReadyQueue.best_prio, hb]
  | no_trap => exact iff_of_true hn trivial
  | trap_handler hq hsched => exact iff_of_true (trap_handler_visible ho ho' hn hq hsched) trivial
  | os => exact iff_of_true hn trivial

theorem start_visible (tasks : Tasks cfg) : NoHiddenWork (start tasks : State cfg) := by
  intro c
  rw [Scheduler.hightest_priority_nil (by rfl)]
  exact le_refl _

/-- A run from a new scheduler hides work in none of its states if and only if every operation it
    performs sees the pending traps of the CPUs it publishes for. -/
theorem visible_iff_sees (tasks : Tasks cfg) (ops : List (Op cfg)) :
    Runs.Visits step NoHiddenWork (start tasks) ops ↔ Runs.Along step Sees (start tasks) ops :=
  Runs.visits_iff_along (fun _ _ _ ho h => step_ok ho h) (fun _ _ _ ho hn h => step_sees ho hn h)
    ops Scheduler.new_ok (start_visible tasks)

/-- A trap is pending on CPU 0 when CPU 1 queues a task of priority 5. -/
def hiding_run : List (Op (Config.build 2 Nat.two_pos)) :=
  [.init_sources ⟨0, by decide⟩ fun c => 100 + c, .push_trap ⟨0, by decide⟩ ⟨1, none⟩ ⟨0, by decide⟩,
    .push_task ⟨1, by decide⟩ 7]

/-- CPU 1 publishes its 5 for CPU 0 as well, over the 0 of the pending trap. -/
theorem hiding_run_hides : ¬ Runs.Visits step NoHiddenWork
    (start fun _ => ⟨.ready, 5, false, true, .kernel⟩) hiding_run := by
  intro hV
  have hprio : (Runs.run step (start fun _ => ⟨.ready, 5, false, true, .kernel⟩) hiding_run).map
      (fun s => (s.highest_prio ⟨0, by decide⟩, s.sched.hightest_priority ⟨0, by decide⟩)) =
      some (5, 0) := by decide +kernel
  rw [Option.map_eq_some_iff] at hprio
  obtain ⟨s, hrun, hs⟩ := hprio
  obtain ⟨h5, h0⟩ := Prod.mk.inj hs
  have h := hV.last hrun ⟨0, by decide⟩
  rw [h5, h0] at h
  exact absurd h (by decide)

end Vsched2.HiddenWork
