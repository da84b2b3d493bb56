import Vsched2.ReadyQueue
import Vsched2.TrapWaitQueue
import Vsched2.EventSource

/-! The scheduler (`schedule/scheduler.rs`) with its own two event sources, each operation run as one
    step. The priority row of the scheduler's process is passed in and out, as the source reaches it
    through `PROCESS_INFO_TABLE.table[global_index]`. -/

namespace Vsched2

/-- The sources `init` and `init_sources` register, in this order. -/
inductive Source where | trap_wait_queue | ready_queue
  deriving DecidableEq, Repr

/-- `Scheduler`; `sources` is empty until they are initialised. -/
structure Scheduler (cfg : Config) where
  sources : List Source
  ready_queue : ReadyQueue cfg TaskPtr
  trap_wait_queue : TrapWaitQueue cfg

variable {cfg : Config}

/-- The `hightest_priority` entry of a source's vtable. -/
def Source.hightest_priority (src : Source) (s : Scheduler cfg) (cpu : Cpu cfg) : ℤ :=
  match src with
  | .trap_wait_queue => s.trap_wait_queue.hightest_priority cpu
  | .ready_queue => s.ready_queue.hightest_priority

/-- A registered source as `pop_task` calls it. `fresh` is what `TrapInfo::new_handler` returns. -/
def Source.vtable (fresh : TaskPtr × Task cfg) : Source → EventSource cfg (Scheduler cfg × Tasks cfg) TaskPtr
  | .trap_wait_queue =>
    { hightest_priority := fun s cpu => Source.trap_wait_queue.hightest_priority s.1 cpu
      take_task := fun s cpu =>
        (s.1.trap_wait_queue.take_task s.2 cpu fresh).map fun r =>
          (r.1, { s.1 with trap_wait_queue := r.2.1 }, r.2.2)
      is_prio_per_cpu := true }
  | .ready_queue =>
    { hightest_priority := fun s cpu => Source.ready_queue.hightest_priority s.1 cpu
      take_task := fun s _ =>
        let r := s.1.ready_queue.take_task
        some (r.1, { s.1 with ready_queue := r.2 }, s.2)
      is_prio_per_cpu := false }

namespace Scheduler

/-- `init_except_sources`. -/
def new : Scheduler cfg where
  sources := []
  ready_queue := .new
  trap_wait_queue := .new

def hightest_priority (s : Scheduler cfg) (cpu : Cpu cfg) : ℤ :=
  (s.sources.map fun src => src.hightest_priority s cpu).foldl
    (fun a b => if a < b then a else b) cfg.isize_max

/-- `get_and_update_current_prio` on `cpu`. -/
def get_and_update_current_prio (s : Scheduler cfg) (cpu : Cpu cfg) (row : Row cfg) : Row cfg :=
  update_prio row (s.hightest_priority cpu) (some cpu)

/-- `get_and_update_all_prio` on `cpu`. -/
def get_and_update_all_prio (s : Scheduler cfg) (cpu : Cpu cfg) (row : Row cfg) : Row cfg :=
  update_prio row (s.hightest_priority cpu) none

/-- `init_sources`, and the second half of `init`: the handler pool, the two sources, the priority. -/
def init_sources (s : Scheduler cfg) (ts : Tasks cfg) (cpu : Cpu cfg) (handlers : Cpu cfg → TaskPtr)
    (row : Row cfg) : Option (Scheduler cfg × Tasks cfg × Row cfg) :=
  (s.trap_wait_queue.init ts handlers).bind fun r =>
    let sources := s.sources ++ [.trap_wait_queue, .ready_queue]
    if sources.length ≤ cfg.event_sorce_num then
      let s' := { s with sources := sources, trap_wait_queue := r.1 }
      some (s', r.2, s'.get_and_update_all_prio cpu row)
    else none

def pop_task (s : Scheduler cfg) (ts : Tasks cfg) (cpu : Cpu cfg) (fresh : TaskPtr × Task cfg)
    (row : Row cfg) : Option ((Option TaskPtr × ℤ) × (Scheduler cfg × Tasks cfg) × Row cfg) :=
  Vsched2.pop_task (s.sources.map (Source.vtable fresh)) cpu (s, ts) row

/-- `push_task`: whether the task was accepted, and the state it leaves. The ready queue is not
    per-CPU, so the priority is published for all CPUs. -/
def push_task (s : Scheduler cfg) (ts : Tasks cfg) (cpu : Cpu cfg) (task : TaskPtr) (row : Row cfg) :
    Option (Bool × Scheduler cfg × Row cfg) :=
  (s.ready_queue.push_task task (ts task).priority).map fun
    | .error _ => (false, s, row)
    | .ok q =>
      let s' := { s with ready_queue := q }
      (true, s', s'.get_and_update_all_prio cpu row)

/-- `push_trap`. The trap wait queue is per-CPU, so the priority is published for the running CPU. -/
def push_trap (s : Scheduler cfg) (cpu : Cpu cfg) (item : TrapItem) (cpuid : Cpu cfg) (row : Row cfg) :
    Bool × Scheduler cfg × Row cfg :=
  match s.trap_wait_queue.push_trap item cpuid with
  | .error _ => (false, s, row)
  | .ok q =>
    let s' := { s with trap_wait_queue := q }
    (true, s', s'.get_and_update_current_prio cpu row)

/-- The removal in `trap_handler` with its priority update, made when the queue became empty. -/
def trap_handler_pop (s : Scheduler cfg) (cpu : Cpu cfg) (row : Row cfg) :
    Option TrapItem × Scheduler cfg × Row cfg :=
  match s.trap_wait_queue.pop_trap cpu with
  | (none, q) => (none, { s with trap_wait_queue := q }, row)
  | (some (item, flag), q) =>
    let s' := { s with trap_wait_queue := q }
    (some item, s', if flag then s'.get_and_update_current_prio cpu row else row)

/-! ### Priorities -/

/-- A scheduler is in order when its ready queue is synced and its sources are not initialised yet
    or are the two it registers itself. -/
structure Ok (s : Scheduler cfg) : Prop where
  synced : s.ready_queue.Synced
  sources : s.sources = [] ∨ s.sources = [.trap_wait_queue, .ready_queue]

theorem new_ok : (new : Scheduler cfg).Ok := ⟨ReadyQueue.new_synced, Or.inl rfl⟩

/-- The priority a scheduler publishes is the one its vtable shows to `pop_task`. -/
theorem sources_priority_vtable (s : Scheduler cfg) (ts : Tasks cfg) (cpu : Cpu cfg) (fresh : TaskPtr × Task cfg) :
    sources_priority (s.sources.map (Source.vtable fresh)) (s, ts) cpu = s.hightest_priority cpu := by
  have hsource : ∀ src ∈ s.sources,
      (Source.vtable fresh src).hightest_priority (s, ts) cpu = src.hightest_priority s cpu := by
    intro src _
    cases src <;> rfl
  rw [sources_priority, hightest_priority, List.map_map]
  exact congrArg (List.foldl _ _) (List.map_congr_left hsource)

theorem hightest_priority_nil {s : Scheduler cfg} (h : s.sources = []) (cpu : Cpu cfg) :
    s.hightest_priority cpu = cfg.isize_max := by simp [hightest_priority, h]

theorem best_prio_le {q : ReadyQueue cfg TaskPtr} : q.best_prio ≤ cfg.inactive_priority := by
  rw [ReadyQueue.best_prio, Config.inactive_priority]
  cases q.best with
  | none => exact le_refl _
  | some l => have h := l.prio_le; simp only [Option.elim_some]; omega

theorem highest_le_best {q : ReadyQueue cfg TaskPtr} : cfg.highest_priority ≤ q.best_prio := by
  rw [ReadyQueue.best_prio]
  cases q.best with
  | none => have h := cfg.highest_le_lowest; simp only [Option.elim_none]; omega
  | some l => exact l.highest_le

/-- The priority of an initialised scheduler on a CPU: a pending trap there comes first. -/
theorem hightest_priority_eq {s : Scheduler cfg} (ho : s.Ok)
    (hs : s.sources = [.trap_wait_queue, .ready_queue]) (cpu : Cpu cfg) :
    s.hightest_priority cpu =
      if s.trap_wait_queue.queues cpu = [] then s.ready_queue.best_prio else cfg.highest_priority := by
  have hmax := cfg.lowest_lt_max
  have hhl := cfg.highest_le_lowest
  have hb := @best_prio_le cfg s.ready_queue
  have hb' := @highest_le_best cfg s.ready_queue
  simp only [hightest_priority, hs, List.map_cons, List.map_nil, List.foldl_cons, List.foldl_nil,
    Source.hightest_priority, ReadyQueue.hightest_priority_eq ho.synced,
    TrapWaitQueue.hightest_priority, List.isEmpty_iff]
  simp only [Config.inactive_priority, Config.active_priority] at hb ⊢
  split_ifs <;> omega

theorem hightest_priority_ge {s : Scheduler cfg} (ho : s.Ok) (cpu : Cpu cfg) :
    cfg.highest_priority ≤ s.hightest_priority cpu := by
  have hmax := cfg.lowest_lt_max
  have hhl := cfg.highest_le_lowest
  rcases ho.sources with hs | hs
  · rw [hightest_priority_nil hs]; omega
  · rw [hightest_priority_eq ho hs]
    split
    · exact highest_le_best
    · exact le_refl _

theorem hightest_priority_le_max (s : Scheduler cfg) (cpu : Cpu cfg) :
    s.hightest_priority cpu ≤ cfg.isize_max := foldl_least_le _ _

/-! ### `pop_task` -/

theorem pop_task_nil {s : Scheduler cfg} (hs : s.sources = []) (ts : Tasks cfg) (cpu : Cpu cfg)
    (fresh : TaskPtr × Task cfg) (row : Row cfg) :
    s.pop_task ts cpu fresh row =
      some ((none, cfg.isize_max), (s, ts), update_prio row cfg.isize_max (some cpu)) := by
  simp [pop_task, Vsched2.pop_task, hs, two_least]

/-- What the fold of `pop_task` sees of the two sources. -/
theorem two_least_sources {s : Scheduler cfg} (hs : s.sources = [.trap_wait_queue, .ready_queue])
    (ts : Tasks cfg) (cpu : Cpu cfg) (fresh : TaskPtr × Task cfg) :
    two_least (s.sources.map (Source.vtable fresh)) (s, ts) cpu =
      fold_two (fold_two ((none, cfg.isize_max), (none, cfg.isize_max))
        (some 0, s.trap_wait_queue.hightest_priority cpu)) (some 1, s.ready_queue.hightest_priority) := by
  simp [two_least, hs, Source.vtable, Source.hightest_priority, List.zipIdx]

theorem two_least_eq {s : Scheduler cfg} (ho : s.Ok)
    (hs : s.sources = [.trap_wait_queue, .ready_queue]) (ts : Tasks cfg) (cpu : Cpu cfg)
    (fresh : TaskPtr × Task cfg) :
    two_least (s.sources.map (Source.vtable fresh)) (s, ts) cpu =
      fold_two (fold_two ((none, cfg.isize_max), (none, cfg.isize_max))
        (some 0, s.trap_wait_queue.hightest_priority cpu)) (some 1, s.ready_queue.best_prio) := by
  rw [two_least_sources hs, ReadyQueue.hightest_priority_eq ho.synced]

/-- With a trap pending on the CPU, `pop_task` does what `take_task` of the trap queue does. -/
theorem pop_task_trap_eq {s : Scheduler cfg} (ho : s.Ok)
    (hs : s.sources = [.trap_wait_queue, .ready_queue]) {cpu : Cpu cfg}
    (hq : s.trap_wait_queue.queues cpu ≠ []) (ts : Tasks cfg) (fresh : TaskPtr × Task cfg) (row : Row cfg) :
    s.pop_task ts cpu fresh row = (s.trap_wait_queue.take_task ts cpu fresh).map fun r =>
      ((r.1.1, cfg.highest_priority), ({ s with trap_wait_queue := r.2.1 }, r.2.2),
        update_prio row cfg.highest_priority (some cpu)) := by
  have hmax := cfg.lowest_lt_max
  have hhl := cfg.highest_le_lowest
  have hge := @highest_le_best cfg s.ready_queue
  have hp : s.trap_wait_queue.hightest_priority cpu = cfg.highest_priority := by
    simp [TrapWaitQueue.hightest_priority, hq, Config.active_priority]
  obtain ⟨m, hm, hfold⟩ := fold_two_left (by omega : cfg.highest_priority < cfg.isize_max) hge
  rw [← hp, ← two_least_eq ho hs ts cpu fresh, hp] at hfold
  have hmin : (if cfg.active_priority < m.2 then cfg.active_priority else m.2) = cfg.highest_priority := by
    rw [Config.active_priority]; split_ifs <;> omega
  simp only [pop_task, Vsched2.pop_task, hfold, Option.bind_some]
  simp only [hs, List.map_cons, List.getElem?_cons_zero, Source.vtable, Option.map_map, Function.comp_def]
  cases ht : s.trap_wait_queue.take_task ts cpu fresh with
  | none => rfl
  | some r =>
    obtain ⟨⟨task, prio⟩, q, ts'⟩ := r
    obtain ⟨-, rfl, -⟩ := TrapWaitQueue.take_task_cons hq ht
    simp only [Option.map_some, hmin, if_true]

/-- With a trap pending on the CPU, `pop_task` takes a trap handler and publishes
    `HIGHEST_PRIORITY` for this CPU. -/
theorem pop_task_trap {s : Scheduler cfg} (ho : s.Ok)
    (hs : s.sources = [.trap_wait_queue, .ready_queue]) {cpu : Cpu cfg}
    (hq : s.trap_wait_queue.queues cpu ≠ []) (ts : Tasks cfg) (fresh : TaskPtr × Task cfg) (row : Row cfg)
    {r : (Option TaskPtr × ℤ) × (Scheduler cfg × Tasks cfg) × Row cfg}
    (h : s.pop_task ts cpu fresh row = some r) :
    ∃ handler q ts', s.trap_wait_queue.take_task ts cpu fresh =
        some ((some handler, cfg.active_priority), q, ts') ∧ q.queues = s.trap_wait_queue.queues ∧
      r = ((some handler, cfg.highest_priority), ({ s with trap_wait_queue := q }, ts'),
        update_prio row cfg.highest_priority (some cpu)) := by
  rw [pop_task_trap_eq ho hs hq, Option.map_eq_some_iff] at h
  obtain ⟨⟨⟨task, prio⟩, q, ts'⟩, ht, rfl⟩ := h
  obtain ⟨⟨handler, rfl⟩, rfl, hqs⟩ := TrapWaitQueue.take_task_cons hq ht
  exact ⟨handler, q, ts', ht, hqs, rfl⟩

/-- Without a trap on the CPU, `pop_task` takes the oldest of the most urgent ready tasks and
    publishes its priority for all CPUs. -/
theorem pop_task_ready {s : Scheduler cfg} (ho : s.Ok)
    (hs : s.sources = [.trap_wait_queue, .ready_queue]) {cpu : Cpu cfg}
    (hq : s.trap_wait_queue.queues cpu = []) {l : Level cfg} (hb : s.ready_queue.best = some l)
    (ts : Tasks cfg) (fresh : TaskPtr × Task cfg) (row : Row cfg) :
    ∃ task rest, s.ready_queue.queues l = task :: rest ∧ s.pop_task ts cpu fresh row =
      some ((some task, l.prio),
        ({ s with ready_queue := (s.ready_queue.take_level l task rest).2 }, ts),
        update_prio row l.prio none) := by
  have hmax := cfg.lowest_lt_max
  have hle := l.prio_le
  have hp : s.trap_wait_queue.hightest_priority cpu = cfg.lowest_priority + 1 := by
    simp [TrapWaitQueue.hightest_priority, hq, Config.inactive_priority]
  have hbest : s.ready_queue.best_prio = l.prio := by simp [ReadyQueue.best_prio, hb]
  have hlt : l.prio < cfg.lowest_priority + 1 := by omega
  obtain ⟨m, hm, hfold⟩ := fold_two_right hlt hmax
  rw [← hp, ← hbest, ← two_least_eq ho hs ts cpu fresh, hbest] at hfold
  obtain ⟨task, rest, htask, htake⟩ := ReadyQueue.take_task_some hb
  refine ⟨task, rest, htask, ?_⟩
  have hprio := ReadyQueue.take_level_prio ho.synced hb task rest
  have hfst := s.ready_queue.take_level_fst l task rest
  have hmin : (if l.prio < m.2 then l.prio else m.2) = l.prio := by rw [hm]; exact if_pos hlt
  simp only [pop_task, Vsched2.pop_task, hfold, Option.bind_some]
  simp [hs, Source.vtable, htake, hprio, hfst, hmin]

/-- With nothing to run for the CPU, `pop_task` publishes one below the lowest priority for it. -/
theorem pop_task_empty {s : Scheduler cfg} (ho : s.Ok)
    (hs : s.sources = [.trap_wait_queue, .ready_queue]) {cpu : Cpu cfg}
    (hq : s.trap_wait_queue.queues cpu = []) (hb : s.ready_queue.best = none)
    (ts : Tasks cfg) (fresh : TaskPtr × Task cfg) (row : Row cfg) :
    s.pop_task ts cpu fresh row = some ((none, cfg.lowest_priority + 1), (s, ts),
      update_prio row (cfg.lowest_priority + 1) (some cpu)) := by
  have hmax := cfg.lowest_lt_max
  have hp : s.trap_wait_queue.hightest_priority cpu = cfg.lowest_priority + 1 := by
    simp [TrapWaitQueue.hightest_priority, hq, Config.inactive_priority]
  have hbest : s.ready_queue.best_prio = cfg.lowest_priority + 1 := by
    simp [ReadyQueue.best_prio, hb]
  have hfold := two_least_eq ho hs ts cpu fresh
  rw [hp, hbest] at hfold
  rcases lt_or_eq_of_le hmax with hlt | heq
  · obtain ⟨m, hm, hpair⟩ := fold_two_left hlt (le_refl _)
    have hmin : (if cfg.lowest_priority + 1 < m.2 then cfg.lowest_priority + 1 else m.2) =
        cfg.lowest_priority + 1 := by split_ifs <;> omega
    simp only [pop_task, Vsched2.pop_task, hfold, hpair, Option.bind_some]
    simp [hs, Source.vtable, TrapWaitQueue.take_task_nil hq, Config.inactive_priority, hmin]
    rw [← hs]
  · have hfold' : two_least (s.sources.map (Source.vtable fresh)) (s, ts) cpu =
        ((none, cfg.isize_max), (none, cfg.isize_max)) := by
      rw [hfold]; simp [fold_two, heq]
    simp only [pop_task, Vsched2.pop_task, hfold', Option.bind_none, heq]

end Scheduler

end Vsched2
