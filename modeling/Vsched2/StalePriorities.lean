import Vsched2.Kernel
import Vsched2.SharedReadyQueue
import Mathlib.Data.Fintype.Card

/-! `kschedule` among published priorities that are too urgent.

    A process may be published with a priority above that of its tasks, and with one when it has none.
    A round of the loop that selects such a process finds no task there; `pop_task` then publishes a
    priority below the lowest for it, so every process misleads the loop at most once. -/

namespace Vsched2

variable {cfg : Config}

/-! ### A scheduler with and without work -/

/-- Every non-empty level has its bit. Any other bits may be set or not. -/
def ReadyQueue.Covered {τ : Type} (q : ReadyQueue cfg τ) : Prop := ∀ l, q.queues l ≠ [] → q.Ready l

theorem ReadyQueue.Synced.covered {τ : Type} {q : ReadyQueue cfg τ} (hs : q.Synced) : q.Covered := by
  intro l hl
  have h64 := @levels_le_64 cfg
  exact (hs l (by omega)).mpr (Or.inl ⟨l, rfl, hl⟩)

namespace Scheduler

/-- The sources are initialised, and one of them holds a task for the CPU. -/
def HasWork (s : Scheduler cfg) (cpu : Cpu cfg) : Prop :=
  s.sources ≠ [] ∧ (s.trap_wait_queue.queues cpu ≠ [] ∨ ∃ l, s.ready_queue.queues l ≠ [])

/-- The state of a scheduler between two calls, whatever bits other CPUs have left in the bitmap. -/
structure WellFormed (s : Scheduler cfg) : Prop where
  covered : s.ready_queue.Covered
  sources : s.sources = [] ∨ s.sources = [.trap_wait_queue, .ready_queue]

/-- If a trap is pending on the CPU, `take_task` finds a handler it can hand out: the first idle one is
    `Blocked`, or the new one `Ready` or `Blocked`. -/
def HandlerReady (s : Scheduler cfg) (cpu : Cpu cfg) (ts : Tasks cfg) (fresh : TaskPtr × Task cfg) : Prop :=
  s.trap_wait_queue.queues cpu ≠ [] →
    (∀ t ∈ s.trap_wait_queue.idle_handlers.head?, (ts t).state = .blocked) ∧
    (s.trap_wait_queue.idle_handlers = [] → fresh.2.state = .ready ∨ fresh.2.state = .blocked)

variable {s : Scheduler cfg} {ts : Tasks cfg} {cpu : Cpu cfg} {fresh : TaskPtr × Task cfg}

theorem WellFormed.of_work (hs : s.WellFormed) (h : s.HasWork cpu) :
    s.sources = [.trap_wait_queue, .ready_queue] := hs.sources.resolve_left h.1

theorem trap_priority (s : Scheduler cfg) (cpu : Cpu cfg) : s.trap_wait_queue.hightest_priority cpu =
    if s.trap_wait_queue.queues cpu = [] then cfg.lowest_priority + 1 else cfg.highest_priority := by
  simp [TrapWaitQueue.hightest_priority, Config.inactive_priority, Config.active_priority]

/-- A scheduler with a task for the CPU has at least the lowest priority there. -/
theorem WellFormed.le_lowest (hs : s.WellFormed) (h : s.HasWork cpu) :
    s.hightest_priority cpu ≤ cfg.lowest_priority := by
  have hhl := cfg.highest_le_lowest
  simp only [hightest_priority, hs.of_work h, List.map_cons, List.map_nil, List.foldl_cons, List.foldl_nil,
    Source.hightest_priority, trap_priority]
  rcases h.2 with htrap | ⟨l, hl⟩
  · rw [if_neg htrap]
    split_ifs <;> omega
  · have hle := ReadyQueue.hightest_priority_le (hs.covered l hl)
    have hlow := l.prio_le
    split_ifs <;> omega

/-- `pop_task` of a scheduler with a task for the CPU returns one. -/
theorem WellFormed.pop_task_found (hs : s.WellFormed) (h : s.HasWork cpu) (hready : s.HandlerReady cpu ts fresh)
    (row : Row cfg) :
    ∃ task prio st row', s.pop_task ts cpu fresh row = some ((some task, prio), st, row') := by
  have hmax := cfg.lowest_lt_max
  have hhl := cfg.highest_le_lowest
  have hsources := hs.of_work h
  have hfold := two_least_sources hsources ts cpu fresh
  rw [trap_priority] at hfold
  by_cases htrap : s.trap_wait_queue.queues cpu = []
  · obtain ⟨l, hl⟩ := h.2.resolve_left (not_not.mpr htrap)
    have hle := ReadyQueue.hightest_priority_le (hs.covered l hl)
    have hlow := l.prio_le
    have hlt : s.ready_queue.hightest_priority < cfg.lowest_priority + 1 := by omega
    obtain ⟨m, -, hpair⟩ := fold_two_right hlt hmax
    rw [if_pos htrap, hpair] at hfold
    cases hb : s.ready_queue.best with
    | none => exact absurd (ReadyQueue.best_eq_none.mp hb l) hl
    | some b =>
      obtain ⟨task, rest, -, htake⟩ := ReadyQueue.take_task_some hb
      have hfst := s.ready_queue.take_level_fst b task rest
      simp only [pop_task, Vsched2.pop_task, hfold, Option.bind_some]
      simp [hsources, Source.vtable, htake, hfst]
  · have hge := ReadyQueue.highest_le_hightest_priority (q := s.ready_queue)
    obtain ⟨m, -, hpair⟩ := fold_two_left (by omega : cfg.highest_priority < cfg.isize_max) hge
    rw [if_neg htrap, hpair] at hfold
    obtain ⟨handler, q, ts', htake⟩ := TrapWaitQueue.take_task_first htrap (hready htrap).1 (hready htrap).2
    simp only [pop_task, Vsched2.pop_task, hfold, Option.bind_some]
    simp [hsources, Source.vtable, htake]

/-- `pop_task` of a scheduler without one publishes a priority below the lowest for the CPU. -/
theorem WellFormed.pop_task_failed (hs : s.WellFormed) (h : ¬ s.HasWork cpu) (ts : Tasks cfg)
    (fresh : TaskPtr × Task cfg) (row : Row cfg) :
    ∃ prio o, cfg.lowest_priority < prio ∧ prio ≤ cfg.isize_max ∧ (o = none ∨ o = some cpu) ∧
      s.pop_task ts cpu fresh row = some ((none, prio), (s, ts), update_prio row prio o) := by
  have hmax := cfg.lowest_lt_max
  rcases hs.sources with hsources | hsources
  · exact ⟨cfg.isize_max, some cpu, by omega, le_refl _, Or.inr rfl, pop_task_nil hsources ts cpu fresh row⟩
  · have hempty : s.trap_wait_queue.queues cpu = [] ∧ ∀ l, s.ready_queue.queues l = [] := by
      simpa [HasWork, hsources] using h
    have hfold := two_least_sources hsources ts cpu fresh
    rw [trap_priority, if_pos hempty.1] at hfold
    have hb := ReadyQueue.best_eq_none.mpr hempty.2
    refine ⟨cfg.lowest_priority + 1, ?_⟩
    rcases lt_or_ge s.ready_queue.hightest_priority (cfg.lowest_priority + 1) with hlt | hge
    · obtain ⟨m, hm, hpair⟩ := fold_two_right hlt hmax
      rw [hpair] at hfold
      refine ⟨none, by omega, hmax, Or.inl rfl, ?_⟩
      simp only [pop_task, Vsched2.pop_task, hfold, Option.bind_some]
      simp [hsources, Source.vtable, ReadyQueue.take_task_none hb, hm]
      rw [← hsources]
    · refine ⟨some cpu, by omega, hmax, Or.inr rfl, ?_⟩
      rcases lt_or_eq_of_le hmax with hlt | htop
      · obtain ⟨m, hm, hpair⟩ := fold_two_left hlt hge
        rw [hpair] at hfold
        have hmin : (if cfg.lowest_priority + 1 < m.2 then cfg.lowest_priority + 1 else m.2) =
            cfg.lowest_priority + 1 := by split_ifs <;> omega
        simp only [pop_task, Vsched2.pop_task, hfold, Option.bind_some]
        simp [hsources, Source.vtable, TrapWaitQueue.take_task_nil hempty.1, Config.inactive_priority, hmin]
        rw [← hsources]
      · have hnone : two_least (s.sources.map (Source.vtable fresh)) (s, ts) cpu =
            ((none, cfg.isize_max), (none, cfg.isize_max)) := by
          have hnot : ¬ s.ready_queue.hightest_priority < cfg.isize_max := by omega
          rw [hfold]
          simp [fold_two, htop, hnot]
        simp only [pop_task, Vsched2.pop_task, hnone, Option.bind_none, htop]

end Scheduler

namespace Kernel

/-! ### The loop up to `wait_irqs` -/

/-- How `kschedule` ends: it returns, or it calls `wait_irqs`. -/
inductive Outcome where
  | returns (res : ℕ)
  | wait_irqs
  deriving DecidableEq, Repr

/-- `kschedule` up to its first call of `wait_irqs`, before which `wait_for_runnable_task` leaves
    IS_SLEEPING set. -/
def kschedule_until (user_data : Pid cfg → Pid cfg) (cpu : Cpu cfg) (fresh : TaskPtr × Task cfg) :
    ℕ → Kernel cfg → Option (Outcome × Kernel cfg)
  | 0, _ => none
  | fuel + 1, k =>
    (kround user_data k cpu fresh).bind fun r =>
      if r.1 ≠ 2 then some (.returns r.1, r.2)
      else (r.2.wait_for_runnable_task cpu).bind fun k' =>
        if k'.is_sleeping cpu then some (.wait_irqs, k') else kschedule_until user_data cpu fresh fuel k'

variable {user_data : Pid cfg → Pid cfg} {cpu : Cpu cfg} {fresh : TaskPtr × Task cfg} {k k' : Kernel cfg}

/-- What `kschedule` returns before it has waited is what it returns. -/
theorem kschedule_of_until {res : ℕ} : ∀ {fuel : ℕ} {k : Kernel cfg},
    kschedule_until user_data cpu fresh fuel k = some (.returns res, k') →
    kschedule user_data cpu fresh fuel k = some (res, k') := by
  intro fuel
  induction fuel with
  | zero =>
    intro k h
    cases h
  | succ fuel ih =>
    intro k h
    simp only [kschedule_until, Option.bind_eq_some_iff] at h
    obtain ⟨r, hround, h⟩ := h
    simp only [kschedule, hround, Option.bind_some]
    split at h
    · rename_i hres
      obtain ⟨hr, rfl⟩ := Prod.mk.inj (Option.some.inj h)
      rw [if_pos hres, ← Outcome.returns.inj hr]
    · rename_i hres
      rw [if_neg hres]
      simp only [Option.bind_eq_some_iff] at h ⊢
      obtain ⟨k₁, hwait, h⟩ := h
      refine ⟨k₁, hwait, ?_⟩
      split at h
      · cases h
      · exact ih h

/-- What the loop starts from, besides the priorities. -/
structure Booted (user_data : Pid cfg → Pid cfg) (cpu : Cpu cfg) (fresh : TaskPtr × Task cfg) (k : Kernel cfg) :
    Prop where
  some_valid : ∃ p, (k.process_info_table.table p).valid = true
  allocated : k.process_info_table.Allocated
  wait_context : k.scheduler_wait_context cpu ≠ 0
  user_data : ∀ p, (k.process_info_table.table p).valid = true → user_data p = p
  well_formed : ∀ p, (k.process_info_table.table p).valid = true → (k.schedulers p).WellFormed
  handler_ready : ∀ p, (k.process_info_table.table p).valid = true →
    (k.schedulers p).HandlerReady cpu k.tasks fresh

/-- No process with a task for the CPU is published below the lowest priority. -/
structure Published (cpu : Cpu cfg) (k : Kernel cfg) : Prop where
  visible : ∀ p, (k.process_info_table.table p).valid = true → (k.schedulers p).HasWork cpu →
    k.row p cpu ≤ cfg.lowest_priority
  le_max : ∀ p, (k.process_info_table.table p).valid = true → k.row p cpu ≤ cfg.isize_max

/-- A round has selected `p` and found no task there. -/
structure Missed (cpu : Cpu cfg) (k : Kernel cfg) (p : Pid cfg) (k' : Kernel cfg) : Prop where
  valid : (k.process_info_table.table p).valid = true
  least : ∀ q, (k.process_info_table.table q).valid = true → k.row p cpu ≤ k.row q cpu
  no_work : ¬ (k.schedulers p).HasWork cpu
  same_valid : ∀ q, (k'.process_info_table.table q).valid = (k.process_info_table.table q).valid
  next_i : k'.process_info_table.next_i = k.process_info_table.next_i
  schedulers : k'.schedulers = k.schedulers
  tasks : k'.tasks = k.tasks
  wait_context : k'.scheduler_wait_context = k.scheduler_wait_context
  repaired : cfg.lowest_priority < k'.row p cpu ∧ k'.row p cpu ≤ cfg.isize_max
  others : ∀ q, q ≠ p → k'.row q = k.row q

/-- The processes published with a priority a task may have. -/
def urgent (cpu : Cpu cfg) (k : Kernel cfg) : Finset (Pid cfg) :=
  Finset.univ.filter fun p => (k.process_info_table.table p).valid = true ∧ k.row p cpu ≤ cfg.lowest_priority

theorem mem_urgent {p : Pid cfg} : p ∈ urgent cpu k ↔
    (k.process_info_table.table p).valid = true ∧ k.row p cpu ≤ cfg.lowest_priority := by
  simp [urgent]

theorem Missed.booted {p : Pid cfg} (hm : Missed cpu k p k') (hb : Booted user_data cpu fresh k) :
    Booted user_data cpu fresh k' := by
  refine ⟨?_, fun q hq => ?_, ?_, fun q hq => ?_, fun q hq => ?_, fun q hq => ?_⟩
  · obtain ⟨q, hq⟩ := hb.some_valid
    exact ⟨q, by rw [hm.same_valid]; exact hq⟩
  · rw [hm.same_valid] at hq
    rw [hm.next_i]
    exact hb.allocated q hq
  · rw [hm.wait_context]
    exact hb.wait_context
  · rw [hm.same_valid] at hq
    exact hb.user_data q hq
  · rw [hm.same_valid] at hq
    rw [hm.schedulers]
    exact hb.well_formed q hq
  · rw [hm.same_valid] at hq
    rw [hm.schedulers, hm.tasks]
    exact hb.handler_ready q hq

theorem Missed.published {p : Pid cfg} (hm : Missed cpu k p k') (hp : Published cpu k) : Published cpu k' := by
  refine ⟨fun q hq hwork => ?_, fun q hq => ?_⟩
  · rw [hm.same_valid] at hq
    rw [hm.schedulers] at hwork
    have hne : q ≠ p := by
      rintro rfl
      exact hm.no_work hwork
    rw [hm.others q hne]
    exact hp.visible q hq hwork
  · rw [hm.same_valid] at hq
    rcases eq_or_ne q p with rfl | hne
    · exact hm.repaired.2
    · rw [hm.others q hne]
      exact hp.le_max q hq

/-- The process selected is published as urgent no more. -/
theorem Missed.urgent_eq {p : Pid cfg} (hm : Missed cpu k p k') : urgent cpu k' = (urgent cpu k).erase p := by
  ext q
  rw [Finset.mem_erase, mem_urgent, mem_urgent, hm.same_valid]
  rcases eq_or_ne q p with rfl | hne
  · have hrep := hm.repaired.1
    simp only [ne_eq, not_true_eq_false, false_and, iff_false, not_and]
    omega
  · simp [hm.others q hne, hne]

/-- If the process selected was not urgent, none is. -/
theorem Missed.mem_urgent {p : Pid cfg} (hm : Missed cpu k p k') (hne : urgent cpu k ≠ ∅) : p ∈ urgent cpu k := by
  obtain ⟨q, hq⟩ := Finset.nonempty_iff_ne_empty.mpr hne
  obtain ⟨hvalid, hlow⟩ := Kernel.mem_urgent.mp hq
  exact Kernel.mem_urgent.mpr ⟨hm.valid, le_trans (hm.least q hvalid) hlow⟩

/-- A failed pop publishes for the process selected and changes nothing else the loop reads; `k₁` is the
    state after `switch_vspace`. -/
theorem missed_put (k₁ : Kernel cfg) {p : Pid cfg} {prio : ℤ} {o : Option (Cpu cfg)}
    (hvalid : (k.process_info_table.table p).valid = true)
    (hleast : ∀ q, (k.process_info_table.table q).valid = true → k.row p cpu ≤ k.row q cpu)
    (hwork : ¬ (k.schedulers p).HasWork cpu)
    (htable : k₁.process_info_table = k.process_info_table) (hscheds : k₁.schedulers = k.schedulers)
    (hwait : k₁.scheduler_wait_context = k.scheduler_wait_context)
    (hprio : cfg.lowest_priority < prio ∧ prio ≤ cfg.isize_max) (ho : o = none ∨ o = some cpu) :
    Missed cpu k p (k₁.put p (k.schedulers p) k.tasks (update_prio (k.row p) prio o)) where
  valid := hvalid
  least := hleast
  no_work := hwork
  same_valid q := by rw [(table_put ..).1, htable]
  next_i := by rw [← htable]; rfl
  schedulers := by simp [put, hscheds]
  tasks := rfl
  wait_context := hwait
  repaired := by
    have hrow : update_prio (k.row p) prio o cpu = prio := by rcases ho with rfl | rfl <;> simp
    rw [row_put_self, hrow]
    exact hprio
  others q hq := by
    rw [row_put_of_ne _ hq, row, htable]
    rfl

/-- `pop_task` reads the scheduler, the tasks and the priorities only. -/
theorem pop_task_of (k₁ : Kernel cfg) {p : Pid cfg} {task : Option TaskPtr} {prio : ℤ}
    {st : Scheduler cfg × Tasks cfg} {row' : Row cfg} (htable : k₁.process_info_table = k.process_info_table)
    (hscheds : k₁.schedulers = k.schedulers) (htasks : k₁.tasks = k.tasks)
    (hpop : (k.schedulers p).pop_task k.tasks cpu fresh (k.row p) = some ((task, prio), st, row')) :
    k₁.pop_task cpu p fresh = some (task, k₁.put p st.1 st.2 row') := by
  have hrow : k₁.row p = k.row p := by rw [row, row, htable]
  rw [pop_task, hscheds, htasks, hrow, hpop]
  rfl

/-- The selection does not panic: it finds a valid process, published as the most urgent. -/
theorem process_schedule_spec (hb : Booted user_data cpu fresh k) (hp : Published cpu k) :
    ∃ p, k.process_schedule cpu .kernel = some p ∧ (k.process_info_table.table p).valid = true ∧
      ∀ q, (k.process_info_table.table q).valid = true → k.row p cpu ≤ k.row q cpu := by
  obtain ⟨p, hsel, hvalid, hleast, -⟩ :=
    ProcessInfoTable.highest_prio_process_spec hb.allocated hb.some_valid hp.le_max
  exact ⟨p, hsel, hvalid, hleast⟩

/-- A round returns a task, or it has selected a process without one. -/
theorem kround_spec (hb : Booted user_data cpu fresh k) (hp : Published cpu k) :
    (∃ res k', kround user_data k cpu fresh = some (res, k') ∧ (res = 0 ∨ res = 1)) ∨
    ∃ p k', kround user_data k cpu fresh = some (2, k') ∧ Missed cpu k p k' := by
  obtain ⟨p, hsel, hvalid, hleast⟩ := process_schedule_spec hb hp
  have hdata := hb.user_data p hvalid
  have hwell := hb.well_formed p hvalid
  simp only [kround, hsel, Option.bind_some, ktask_schedule, switch_vspace_current, hdata]
  by_cases hwork : (k.schedulers p).HasWork cpu
  · left
    obtain ⟨task, prio, st, row', hpop⟩ := hwell.pop_task_found hwork (hb.handler_ready p hvalid) (k.row p)
    have hswitched := pop_task_of (k.switch_vspace cpu p) (by simp) (by simp) (by simp) hpop
    have hplain := pop_task_of k rfl rfl rfl hpop
    split
    · rename_i hk
      rw [hk] at hplain
      rw [hplain]
      exact ⟨0, _, rfl, Or.inl rfl⟩
    · rw [hswitched]
      exact ⟨1, _, rfl, Or.inr rfl⟩
  · right
    obtain ⟨prio, o, hlow, hmax, ho, hpop⟩ := hwell.pop_task_failed hwork k.tasks fresh (k.row p)
    have hswitched := pop_task_of (k.switch_vspace cpu p) (by simp) (by simp) (by simp) hpop
    have hplain := pop_task_of k rfl rfl rfl hpop
    split
    · rename_i hk
      rw [hk] at hplain
      rw [hplain]
      refine ⟨p, _, rfl, ?_⟩
      rw [← hk]
      exact missed_put k hvalid hleast hwork rfl rfl rfl ⟨hlow, hmax⟩ ho
    · rw [hswitched]
      refine ⟨p, _, rfl, missed_put _ hvalid hleast hwork (by simp) (by simp) ?_ ⟨hlow, hmax⟩ ho⟩
      simp only [switch_vspace]
      split_ifs <;> rfl

/-- The second check waits exactly if no process is published as urgent. -/
theorem wait_spec (hb : Booted user_data cpu fresh k) (hp : Published cpu k) :
    ∃ k', k.wait_for_runnable_task cpu = some k' ∧ k'.process_info_table = k.process_info_table ∧
      k'.schedulers = k.schedulers ∧ k'.tasks = k.tasks ∧
      k'.scheduler_wait_context = k.scheduler_wait_context ∧
      (k'.is_sleeping cpu = true ↔ urgent cpu k = ∅) := by
  obtain ⟨p, hsel, hvalid, hleast⟩ := process_schedule_spec hb hp
  have hempty : urgent cpu k = ∅ ↔ ¬ k.row p cpu ≤ cfg.lowest_priority := by
    rw [Finset.eq_empty_iff_forall_notMem]
    constructor
    · intro h hlow
      exact h p (mem_urgent.mpr ⟨hvalid, hlow⟩)
    · intro h q hq
      obtain ⟨hqv, hlow⟩ := mem_urgent.mp hq
      exact h (le_trans (hleast q hqv) hlow)
  -- the table is the same when the second check reads it
  have hsel' : process_schedule { k.set_current_task cpu (k.scheduler_wait_context cpu) with
      is_sleeping := Function.update k.is_sleeping cpu true } cpu .kernel = some p := hsel
  simp only [wait_for_runnable_task, if_neg hb.wait_context, hsel', Option.map_some, Option.some.injEq,
    exists_eq_left']
  by_cases hlow : k.row p cpu ≤ cfg.lowest_priority
  · refine (if_pos hlow).symm ▸ ⟨rfl, rfl, rfl, rfl, ?_⟩
    simpa [hempty] using hlow
  · refine (if_neg hlow).symm ▸ ⟨rfl, rfl, rfl, rfl, ?_⟩
    simpa [hempty] using hlow

/-- Neither condition reads more than the table, the schedulers, the tasks and the wait context. -/
theorem Booted.congr (hb : Booted user_data cpu fresh k) (htable : k'.process_info_table = k.process_info_table)
    (hscheds : k'.schedulers = k.schedulers) (htasks : k'.tasks = k.tasks)
    (hwait : k'.scheduler_wait_context = k.scheduler_wait_context) : Booted user_data cpu fresh k' := by
  obtain ⟨h1, h2, h3, h4, h5, h6⟩ := hb
  exact ⟨by rwa [htable], by rwa [htable], by rwa [hwait], by rwa [htable], by rwa [htable, hscheds],
    by rwa [htable, hscheds, htasks]⟩

theorem Published.congr (hp : Published cpu k) (htable : k'.process_info_table = k.process_info_table)
    (hscheds : k'.schedulers = k.schedulers) : Published cpu k' := by
  obtain ⟨h1, h2⟩ := hp
  refine ⟨?_, ?_⟩ <;> simpa only [row, htable, hscheds]

/-- Without an urgent process there is no work. -/
theorem Published.no_work (hp : Published cpu k) (hnone : urgent cpu k = ∅) (p : Pid cfg)
    (hvalid : (k.process_info_table.table p).valid = true) : ¬ (k.schedulers p).HasWork cpu := by
  intro hwork
  have hmem := mem_urgent.mpr ⟨hvalid, hp.visible p hvalid hwork⟩
  rw [hnone] at hmem
  exact Finset.notMem_empty p hmem

/-- How the loop ends within `fuel` rounds. -/
def Ends (user_data : Pid cfg → Pid cfg) (cpu : Cpu cfg) (fresh : TaskPtr × Task cfg) (fuel : ℕ)
    (k : Kernel cfg) : Prop :=
  ∃ out k', kschedule_until user_data cpu fresh fuel k = some (out, k') ∧
    (out = .returns 0 ∨ out = .returns 1 ∨
      out = .wait_irqs ∧ ∀ p, (k'.process_info_table.table p).valid = true → ¬ (k'.schedulers p).HasWork cpu)

/-- The loop needs one round more than there are urgent processes, at most: a round that fails makes one
    of them urgent no more, and without any the CPU waits. -/
theorem until_ends : ∀ (n : ℕ) {k : Kernel cfg}, Booted user_data cpu fresh k → Published cpu k →
    (urgent cpu k).card ≤ n → Ends user_data cpu fresh (n + 1) k
  | n, k, hb, hp, hn => by
    rcases kround_spec hb hp with ⟨res, k₁, hround, hres⟩ | ⟨p, k₁, hround, hm⟩
    · refine ⟨.returns res, k₁, ?_, by rcases hres with rfl | rfl <;> simp⟩
      have hne : res ≠ 2 := by omega
      simp [kschedule_until, hround, hne]
    · have hb₁ := hm.booted hb
      have hp₁ := hm.published hp
      obtain ⟨k₂, hwait, htable, hscheds, htasks, hctx, hsleep⟩ := wait_spec hb₁ hp₁
      by_cases hnone : urgent cpu k₁ = ∅
      · refine ⟨.wait_irqs, k₂, ?_, Or.inr (Or.inr ⟨rfl, ?_⟩)⟩
        · simp [kschedule_until, hround, hwait, hsleep.mpr hnone]
        · rw [htable, hscheds]
          exact hp₁.no_work hnone
      · have herase := hm.urgent_eq
        have hmem : p ∈ urgent cpu k := by
          refine hm.mem_urgent ?_
          rintro hk
          rw [hk, Finset.erase_empty] at herase
          exact hnone herase
        have hcard := Finset.card_erase_of_mem hmem
        have hpos := Finset.card_pos.mpr ⟨p, hmem⟩
        rw [← herase] at hcard
        match n, hn with
        | 0, hn => omega
        | n + 1, hn =>
          have hsame : urgent cpu k₂ = urgent cpu k₁ := by
            ext q
            rw [mem_urgent, mem_urgent, row, row, htable]
          obtain ⟨out, k', hrest, hout⟩ := until_ends n (hb₁.congr htable hscheds htasks hctx)
            (hp₁.congr htable hscheds) (by rw [hsame]; omega)
          refine ⟨out, k', ?_, hout⟩
          have hawake : k₂.is_sleeping cpu = false := by
            rw [← Bool.not_eq_true, hsleep]
            exact hnone
          rw [kschedule_until, hround, Option.bind_some]
          simp only [ne_eq, not_true_eq_false, if_false, hwait, Option.bind_some, hawake, Bool.false_eq_true]
          exact hrest

/-- The number of valid processes. -/
def valid_count (k : Kernel cfg) : ℕ :=
  (Finset.univ.filter fun p => (k.process_info_table.table p).valid = true).card

/-- `kschedule` among stale priorities: if every valid process is published at least as urgent as its
    scheduler is, the loop returns 0 or 1 or calls `wait_irqs` within one round more than there are
    valid processes, and it waits only when no valid process has a task for the CPU. No level with a task
    may lack its bit, the sources are none or the two of `init`, the valid slots have been drawn by
    `register_process`, and the handler a pending trap calls for must not be one that another CPU is
    still saving. -/
theorem kschedule_progress (user_data : Pid cfg → Pid cfg) (cpu : Cpu cfg) (fresh : TaskPtr × Task cfg)
    (k : Kernel cfg) (hb : Booted user_data cpu fresh k)
    (hstale : ∀ p, (k.process_info_table.table p).valid = true →
      k.row p cpu ≤ (k.schedulers p).hightest_priority cpu) :
    Ends user_data cpu fresh (valid_count k + 1) k := by
  have hp : Published cpu k :=
    ⟨fun p hvalid hwork => le_trans (hstale p hvalid) ((hb.well_formed p hvalid).le_lowest hwork),
      fun p hvalid => le_trans (hstale p hvalid) (Scheduler.hightest_priority_le_max _ cpu)⟩
  refine until_ends _ hb hp (Finset.card_le_card fun p hmem => ?_)
  exact Finset.mem_filter.mpr ⟨Finset.mem_univ p, (mem_urgent.mp hmem).1⟩

/-- What `TrapInfo::new_handler` returns in the examples. -/
def new_kernel_task : TaskPtr × Task cfg := (9, ⟨.ready, cfg.highest_priority, false, true, .kernel⟩)

/-- A kernel whose schedulers all are `s`, with the kernel process published as most urgent. -/
def published_highest (cfg : Config) (s : Scheduler cfg) (state : TaskState) : Kernel cfg :=
  let k := boot (fun _ => ⟨state, cfg.highest_priority, false, true, .kernel⟩) (fun _ => 1) fun _ => 2
  { k with
    schedulers := fun _ => s
    process_info_table := k.process_info_table.set .kernel
      { k.process_info_table.table .kernel with highest_prio := fun _ => cfg.highest_priority } }

/-- Two CPUs: a trap is pending on both, and the only idle handler is task 5. -/
def trapped_scheduler : Scheduler duo where
  sources := [.trap_wait_queue, .ready_queue]
  ready_queue := .new
  trap_wait_queue := ⟨fun _ => [⟨0, none⟩], [5]⟩

theorem published_highest_valid {s : Scheduler cfg} {state : TaskState} (p : Pid cfg) :
    ((published_highest cfg s state).process_info_table.table p).valid = true ↔ p = .kernel := by
  rcases eq_or_ne p .kernel with rfl | hne
  · simp [published_highest, boot, ProcessInfoTable.default, ProcessInfoTable.set]
  · simp [published_highest, boot, ProcessInfoTable.default, ProcessInfoTable.set, ProcessInfoTable.unused, hne]

theorem published_highest_allocated {s : Scheduler cfg} {state : TaskState} :
    (published_highest cfg s state).process_info_table.Allocated := by
  intro p hp
  rw [published_highest_valid] at hp
  exact ProcessInfoTable.default_allocated p (by simp [hp, ProcessInfoTable.default])

theorem kschedule_progress_idle : Ends id solo_cpu new_kernel_task
    (valid_count (published_highest solo .new .ready) + 1) (published_highest solo .new .ready) := by
  refine kschedule_progress id solo_cpu new_kernel_task (published_highest solo .new .ready)
    ⟨⟨.kernel, (published_highest_valid _).mpr rfl⟩, published_highest_allocated, by decide, fun _ _ => rfl,
      fun _ _ => ⟨ReadyQueue.new_synced.covered, Or.inl rfl⟩, fun _ _ h => absurd rfl h⟩ fun p hp => ?_
  obtain rfl := (published_highest_valid p).mp hp
  decide

/-- A trap is pending, and the first idle handler is `Blocking`: the busy wait of `take_task` for the CPU
    that saves it does not end while no other CPU acts. -/
theorem kschedule_spins : ∃ k : Kernel duo,
    (∃ p, (k.process_info_table.table p).valid = true) ∧ k.process_info_table.Allocated ∧
    k.scheduler_wait_context duo_first ≠ 0 ∧
    (∀ p, (k.process_info_table.table p).valid = true → (k.schedulers p).WellFormed) ∧
    (∀ p, (k.process_info_table.table p).valid = true →
      k.row p duo_first ≤ (k.schedulers p).hightest_priority duo_first) ∧
    ∀ fuel, kschedule_until id duo_first new_kernel_task fuel k = none := by
  refine ⟨published_highest duo trapped_scheduler .blocking, ⟨.kernel, (published_highest_valid _).mpr rfl⟩,
    published_highest_allocated, by decide, fun _ _ => ⟨ReadyQueue.new_synced.covered, Or.inr rfl⟩,
    fun p hp => ?_, fun fuel => ?_⟩
  · obtain rfl := (published_highest_valid p).mp hp
    decide
  · have hround : kround id (published_highest duo trapped_scheduler .blocking) duo_first new_kernel_task = none :=
      rfl
    cases fuel with
    | zero => rfl
    | succ fuel => rw [kschedule_until, hround, Option.bind_none]

/-- A scheduler with a task in its most urgent level and the bits `bits` besides those of `new`. -/
def one_task (bits : BitVec 64) : Scheduler solo where
  sources := [.trap_wait_queue, .ready_queue]
  ready_queue :=
    { queues := fun l => if (l : ℕ) = 0 then [7] else []
      prio_bitmap := (ReadyQueue.new : ReadyQueue solo TaskPtr).prio_bitmap ||| bits }
  trap_wait_queue := .new

/-- The bit of the level is still to be set. -/
def hidden_task : Kernel solo := published_highest solo (one_task 0#64) .ready

/-- The slot of a process is valid, though `register_process` has not drawn it. -/
def undrawn_slot : Kernel solo :=
  let k := published_highest solo .new .ready
  { k with
    schedulers := Function.update k.schedulers solo_pid (one_task (1#64 <<< 63))
    process_info_table := k.process_info_table.set solo_pid
      { ProcessInfoTable.unused with valid := true, highest_prio := fun _ => solo.highest_priority } }

/-- The loop sees neither of these tasks, and waits. -/
theorem kschedule_sleeps : ∀ k ∈ [hidden_task, undrawn_slot],
    (∀ p, (k.process_info_table.table p).valid = true →
      k.row p solo_cpu ≤ (k.schedulers p).hightest_priority solo_cpu) ∧
    ∃ k', kschedule_until id solo_cpu new_kernel_task 2 k = some (.wait_irqs, k') ∧
      ∃ p, (k'.process_info_table.table p).valid = true ∧ (k'.schedulers p).HasWork solo_cpu := by
  intro k hk
  have hrun : ∃ p, ((kschedule_until id solo_cpu new_kernel_task 2 k).map fun r =>
      decide (r.1 = .wait_irqs ∧ (r.2.process_info_table.table p).valid = true ∧ (r.2.schedulers p).sources ≠ [] ∧
        (r.2.schedulers p).ready_queue.queues ⟨0, by decide⟩ ≠ [])) = some true := by
    rcases List.mem_pair.mp hk with rfl | rfl
    · exact ⟨.kernel, by decide +kernel⟩
    · exact ⟨solo_pid, by decide +kernel⟩
  refine ⟨?_, ?_⟩
  · rcases List.mem_pair.mp hk with rfl | rfl <;> decide +kernel
  · obtain ⟨p, hrun⟩ := hrun
    obtain ⟨⟨out, k'⟩, hrun, h⟩ := Option.map_eq_some_iff.mp hrun
    obtain ⟨rfl, hvalid, hsources, hqueue⟩ := of_decide_eq_true h
    exact ⟨k', hrun, p, hvalid, hsources, Or.inr ⟨_, hqueue⟩⟩

/-- Without a valid process the selection panics, and without a wait context the first pause does. -/
theorem kschedule_panics :
    (∃ k : Kernel solo, (∀ p, (k.process_info_table.table p).valid = false) ∧
      ∀ fuel, kschedule_until id solo_cpu new_kernel_task fuel k = none) ∧
    ∃ k : Kernel solo, (∃ p, (k.process_info_table.table p).valid = true) ∧ k.scheduler_wait_context solo_cpu = 0 ∧
      ∀ fuel, kschedule_until id solo_cpu new_kernel_task fuel k = none := by
  constructor
  · refine ⟨{ published_highest solo Scheduler.new .ready with
        process_info_table := ⟨fun _ => ProcessInfoTable.unused, 0⟩ },
      fun _ => rfl, fun fuel => ?_⟩
    cases fuel with
    | zero => rfl
    | succ fuel => rfl
  · refine ⟨{ published_highest solo Scheduler.new .ready with scheduler_wait_context := fun _ => 0 },
      ⟨.kernel, rfl⟩, rfl, fun fuel => ?_⟩
    cases fuel with
    | zero => rfl
    | succ fuel => rfl

end Kernel

end Vsched2
