import Vsched2.Ownership

/-! No task runs twice, and the pool of idle handlers hands every handler to one CPU.

    Both are read off the views of `Ownership`: a task in a ready queue, on a CPU or in the pool has
    a view of one shape, and two occurrences are not a legitimate view. -/

namespace Vsched2

namespace Exclusivity

open Machine

variable {cfg : Config} {m m' : Machine cfg} {c d : Cpu cfg} {t h : TaskPtr}

/-! ### Ready queues and CPUs -/

theorem ready_view (hI : Inv m) {p : Pid cfg} {l : Level cfg} (hmem : t ∈ m.ready p l) :
    m.view t = (View.off true .ready false).set_ready p l 1 := by
  refine (hI.legit t).of_ready (p := p) (l := l) ?_
  show (m.ready p l).count t ≠ 0
  exact (List.count_pos_iff.mpr hmem).ne'

theorem ready_nodup (hI : Inv m) (p : Pid cfg) (l : Level cfg) : (m.ready p l).Nodup := by
  refine List.nodup_iff_count_eq_one.mpr fun t hmem => ?_
  have h1 : (m.view t).ready p l = 1 := by
    rw [ready_view hI hmem]
    simp
  exact h1

theorem ready_place (hI : Inv m) {p q : Pid cfg} {l k : Level cfg} (hp : t ∈ m.ready p l)
    (hq : t ∈ m.ready q k) : p = q ∧ l = k := by
  have hone : ((View.off true .ready false : View cfg).set_ready p l 1).ready q k ≠ 0 := by
    rw [← ready_view hI hp]
    exact (List.count_pos_iff.mpr hq).ne'
  by_cases hpq : q = p
  · subst hpq
    by_cases hlk : k = l
    · exact ⟨rfl, hlk.symm⟩
    · simp [hlk] at hone
  · simp [hpq] at hone

theorem ready_not_owned (hI : Inv m) {p : Pid cfg} {l : Level cfg} (hmem : t ∈ m.ready p l) (c : Cpu cfg) :
    m.owner c ≠ some t := by
  intro ho
  have hcpu := view_cpu_self ho
  rw [ready_view hI hmem] at hcpu
  simp at hcpu

/-- The view of a task on a CPU shows no other CPU. -/
theorem owner_unique (hI : Inv m) (hc : m.owner c = some t) (hd : m.owner d = some t) : c = d := by
  have hcpu := view_cpu_self hc
  have hcpu' := view_cpu_self hd
  by_contra hne
  by_cases hpc : m.pc c = .idle_resched
  · rw [hpc] at hcpu
    rcases (hI.legit t).of_resched hcpu with hv | ⟨e, hv⟩ <;>
      simp [hv, Ne.symm hne] at hcpu'
  · rw [(hI.owner_view hc hpc).2] at hcpu'
    simp [Ne.symm hne] at hcpu'

/-- Every task is at most once in all ready queues together; a task in one is `Ready` and on no
    CPU; and no task is on two CPUs. -/
theorem no_task_runs_twice (b : Boot cfg) (acts : List (Act cfg)) (m : Machine cfg)
    (hrun : Runs.run step b.machine acts = some m) :
    (∀ p l, (m.ready p l).Nodup) ∧
    (∀ t p l q k, t ∈ m.ready p l → t ∈ m.ready q k → p = q ∧ l = k) ∧
    (∀ t p l, t ∈ m.ready p l → (m.tasks t).state = .ready ∧ ∀ c, m.owner c ≠ some t) ∧
    (∀ t c d, m.owner c = some t → m.owner d = some t → c = d) := by
  have hI : Inv m := b.run_inv hrun
  refine ⟨ready_nodup hI, ?_, ?_, ?_⟩
  · intro t p l q k hp hq
    exact ready_place hI hp hq
  · intro t p l hmem
    exact ⟨congrArg View.state (ready_view hI hmem), ready_not_owned hI hmem⟩
  · intro t c d hc hd
    exact owner_unique hI hc hd

/-- The init task of the first CPU is interrupted and put into the ready queue of the kernel. -/
def preempt : List (Act duo) := [.irq duo_first, .next duo_first, .next duo_first, .next duo_first]

theorem no_task_runs_twice_preempt : ∃ m : Machine duo,
    Runs.run step (Boot.plain duo).machine preempt = some m ∧ 0 ∈ m.ready .kernel .top ∧
    (m.tasks 0).state = .ready ∧ ∀ c, m.owner c ≠ some 0 := by
  have hrun : ((Runs.run step (Boot.plain duo).machine preempt).map fun m =>
      decide (0 ∈ m.ready .kernel .top)) = some true := by decide +kernel
  obtain ⟨m, hm, hready⟩ := Option.map_eq_some_iff.mp hrun
  have hmem : 0 ∈ m.ready .kernel .top := of_decide_eq_true hready
  obtain ⟨-, -, hstate, -⟩ := no_task_runs_twice (Boot.plain duo) preempt m hm
  exact ⟨m, hm, hmem, hstate 0 _ _ hmem⟩

/-! ### The pool of idle handlers -/

theorem idle_nodup (hI : Inv m) : m.idle_handlers.Nodup := by
  refine List.nodup_iff_count_eq_one.mpr fun h hmem => ?_
  rcases (hI.legit h).of_idle (List.count_pos_iff.mpr hmem).ne' with hv | ⟨c, hv⟩
  · exact congrArg View.idle hv
  · exact congrArg View.idle hv

theorem idle_state (hI : Inv m) (hmem : h ∈ m.idle_handlers) :
    (m.tasks h).state = .blocking ∨ (m.tasks h).state = .blocked := by
  rcases (hI.legit h).of_idle (List.count_pos_iff.mpr hmem).ne' with hv | ⟨c, hv⟩
  · exact Or.inr (congrArg View.state hv)
  · exact Or.inl (congrArg View.state hv)

theorem get_idle_handler_isSome (hI : Inv m) : get_idle_handler m.idle_handlers m.tasks ≠ none := by
  cases hidle : m.idle_handlers with
  | nil => simp [get_idle_handler]
  | cons h rest =>
    rcases idle_state hI (h := h) (by simp [hidle]) with hst | hst <;> simp [get_idle_handler, hst]

theorem not_idle_state (b : Boot cfg) {acts : List (Act cfg)} (hrun : Runs.run step b.machine acts = some m)
    (c : Cpu cfg) : m.pc c ≠ .panicked .idle_state := by
  have hstep : ∀ (s : Machine cfg) (a : Act cfg) (s' : Machine cfg),
      (Inv s ∧ ∀ c, s.pc c ≠ .panicked .idle_state) → s.step a = some s' →
      Inv s' ∧ ∀ c, s'.pc c ≠ .panicked .idle_state := by
    rintro s a s' ⟨hI, hno⟩ hs
    refine ⟨step_inv hI hs, fun c hc => ?_⟩
    rcases panic_cause hs hc with hc | hcause
    · exact hno c hc
    · cases hcause with
      | idle_state _ hnone => exact get_idle_handler_isSome hI hnone
  exact (Runs.run_invariant hstep acts ⟨b.inv, fun c hc => by simp [Boot.machine] at hc⟩ hrun).2 c

/-- The view of a handler `take_task` is about to return, or has returned. -/
theorem taken_view (hI : Inv m) {pid : Pid cfg} (hpc : m.pc c = .set_pid h pid ∨ m.pc c = .popped h .kernel) :
    m.owner c = some h ∧ m.view h = (View.off true .ready false).set_cpu c (some (m.pc c)) := by
  have ho : m.owner c = some h := by rcases hpc with hpc | hpc <;> simp [owner, hpc, Pc.owner]
  have hne : m.pc c ≠ .idle_resched := by rcases hpc with hpc | hpc <;> simp [hpc]
  obtain ⟨hst, hv⟩ := hI.owner_view ho hne
  have hst' : (m.tasks h).state = .ready ∧ m.waits h = false := by
    rcases hpc with hpc | hpc <;> rw [hpc] at hst <;> exact hst
  rw [hst'.1, hst'.2] at hv
  exact ⟨ho, hv⟩

/-- `h` is in no queue: no ready queue, no trap queue, not in the pool, and with no waker. -/
def InNoQueue (m : Machine cfg) (h : TaskPtr) : Prop :=
  (∀ p l, h ∉ m.ready p l) ∧ (∀ d, ∀ item ∈ m.traps d, item.task ≠ some h) ∧ h ∉ m.idle_handlers ∧ h ∉ m.waking

theorem in_no_queue_of_view {x : Cpu cfg → Option (Pc cfg)}
    (hv : m.view h = { View.off true .ready false with cpu := x }) : InNoQueue m h := by
  refine ⟨fun p l hmem => ?_, fun d item hitem htask => ?_, fun hmem => ?_, fun hmem => ?_⟩
  · have h0 : (m.ready p l).count h = 0 := congrFun (congrFun (congrArg View.ready hv) p) l
    exact List.count_eq_zero.mp h0 hmem
  · have h0 : ((m.traps d).filterMap TrapItem.task).count h = 0 := congrFun (congrArg View.trapped hv) d
    exact List.count_eq_zero.mp h0 (List.mem_filterMap.mpr ⟨item, hitem, htask⟩)
  · exact List.count_eq_zero.mp (congrArg View.idle hv) hmem
  · exact List.count_eq_zero.mp (congrArg View.waking hv) hmem

/-- A handler leaves the pool for `set_pid` only in the state `Blocked`. -/
theorem pick_up_blocked {a : Act cfg} (hs : m.step a = some m') {pid : Pid cfg}
    (hpc : m.pc c = .idle_handler pid ∨ m.pc c = .busy_wait h pid) (hpc' : m'.pc c = .set_pid h pid) :
    (m.tasks h).state = .blocked ∧ (h ∈ m.idle_handlers ∨ m.pc c = .busy_wait h pid) := by
  have hne : m'.pc c ≠ m.pc c := by rcases hpc with hpc | hpc <;> simp [hpc, hpc']
  obtain rfl : a = .next c := by
    refine eq_next hs (cpu_of_pc_ne hs hne) ?_ ?_ <;> rcases hpc with hpc | hpc <;> simp [in_code, hpc, Pc.in_function]
  rcases hpc with hpc | hpc
  · simp only [step, next, hpc, get_idle_handler] at hs
    cases hidle : m.idle_handlers with
    | nil =>
      simp only [hidle] at hs
      rw [← Option.some.inj hs] at hpc'
      simp [set_pc] at hpc'
    | cons g rest =>
      simp only [hidle] at hs
      cases hst : (m.tasks g).state <;> simp only [hst] at hs <;> rw [← Option.some.inj hs] at hpc' <;>
        simp [set_pc] at hpc'
      obtain rfl := hpc'
      exact ⟨hst, Or.inl (by simp)⟩
  · refine ⟨?_, Or.inr hpc⟩
    simp only [step, next, hpc] at hs
    rw [← Option.some.inj hs] at hpc'
    by_contra hst
    simp [set_pc, set_state, hst] at hpc'

/-- A handler in the pool, or waited for, that is `Blocked` is on no CPU. -/
theorem blocked_not_owned (hI : Inv m) {pid : Pid cfg} (hst : (m.tasks h).state = .blocked)
    (hin : h ∈ m.idle_handlers ∨ m.pc c = .busy_wait h pid) (d : Cpu cfg) : m.owner d ≠ some h := by
  intro ho
  have hcpu := view_cpu_self ho
  have hst' : (m.view h).state = .blocked := hst
  rcases hin with hmem | hpc
  · rcases (hI.legit h).of_idle (List.count_pos_iff.mpr hmem).ne' with hv | ⟨e, hv⟩
    · simp [hv] at hcpu
    · simp [hv] at hst'
  · rcases (hI.legit h).of_spin (d := c) (by simp [view, hpc, Pc.waits_for]) with hv | ⟨e, hv⟩
    · simp [hv] at hcpu
    · simp [hv] at hst'

/-- Every handler is in the pool at most once and `Blocking` or `Blocked` there, so that
    `get_idle_handler` never panics. A handler `take_task` returns is `Ready`, in no queue and on no
    other CPU; one from the pool was `Blocked`, its CPU had given it up. -/
theorem idle_handler_exclusive (b : Boot cfg) (acts : List (Act cfg)) (m : Machine cfg)
    (hrun : Runs.run step b.machine acts = some m) :
    m.idle_handlers.Nodup ∧
    (∀ h ∈ m.idle_handlers, (m.tasks h).state = .blocking ∨ (m.tasks h).state = .blocked) ∧
    (∀ c, m.pc c ≠ .panicked .idle_state) ∧
    (∀ c h pid, m.pc c = .set_pid h pid ∨ m.pc c = .popped h .kernel →
      (m.tasks h).state = .ready ∧ InNoQueue m h ∧ ∀ d, m.owner d = some h → d = c) ∧
    (∀ a m' c h pid, m.step a = some m' →
      m.pc c = .idle_handler pid ∨ m.pc c = .busy_wait h pid →
      m'.pc c = .set_pid h pid → (m.tasks h).state = .blocked ∧ ∀ d, m.owner d ≠ some h) := by
  have hI : Inv m := b.run_inv hrun
  refine ⟨idle_nodup hI, fun h hmem => idle_state hI hmem, not_idle_state b hrun, ?_, ?_⟩
  · intro c h pid hpc
    obtain ⟨ho, hv⟩ := taken_view hI hpc
    exact ⟨congrArg View.state hv, in_no_queue_of_view hv, fun d hd => owner_unique hI hd ho⟩
  · intro a m' c h pid hs hpc hpc'
    obtain ⟨hst, hin⟩ := pick_up_blocked hs hpc hpc'
    exact ⟨hst, blocked_not_owned hI hst hin⟩

/-- The init task of the first CPU is interrupted; its handler is taken out of the pool. -/
def take_handler : List (Act duo) := preempt ++ [.take_trap duo_first, .next duo_first]

theorem idle_handler_exclusive_take : ∃ m : Machine duo,
    Runs.run step (Boot.plain duo).machine take_handler = some m ∧ m.idle_handlers = [5] ∧
    m.pc duo_first = .set_pid 4 .kernel ∧ (m.tasks 4).state = .ready ∧ InNoQueue m 4 := by
  have hrun : ((Runs.run step (Boot.plain duo).machine take_handler).map fun m =>
      decide (m.idle_handlers = [5] ∧ m.pc duo_first = .set_pid 4 .kernel)) = some true := by decide +kernel
  obtain ⟨m, hm, hpool⟩ := Option.map_eq_some_iff.mp hrun
  obtain ⟨hidle, hpc⟩ := of_decide_eq_true hpool
  obtain ⟨-, -, -, htaken, -⟩ := idle_handler_exclusive (Boot.plain duo) take_handler m hm
  obtain ⟨hst, hno, -⟩ := htaken duo_first 4 .kernel (Or.inl hpc)
  exact ⟨m, hm, hidle, hpc, hst, hno⟩

end Exclusivity

end Vsched2
