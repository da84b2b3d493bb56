import Vsched2.Machine

/-! The control flow of one CPU.

    `Local` is what only the CPU itself changes. `Move` lists what one of its steps can do to it, and
    `Cause` when it ends in a panic. The steps of other CPUs and of wakers leave it alone. -/

namespace Vsched2

variable {cfg : Config}

/-- The variables of one CPU. -/
@[ext] structure Local (cfg : Config) where
  pc : Pc cfg
  current_task : TaskPtr
  is_sleeping : Bool
  in_kernel : Bool

namespace Machine

/-- The variables of CPU `c`. -/
def loc (m : Machine cfg) (c : Cpu cfg) : Local cfg where
  pc := m.pc c
  current_task := m.current_task c
  is_sleeping := m.is_sleeping c
  in_kernel := m.in_kernel c

/-- The CPU that takes a step. -/
def Act.cpu : Act cfg → Option (Cpu cfg)
  | .irq c | .trap c | .set_self c _ | .leave c _ | .poll_ready c | .pop_ready c _ _ | .take_trap c | .fail c _
  | .into_kernel c _ | .new_handler c _ _ | .check c _ | .wait_return c | .handle_exits c | .next c => some c
  | .arrive _ _ | .wake _ | .wake_push _ => none

end Machine

/-- The steps that change the place of a CPU and none of its other variables. -/
inductive Flow : Pc cfg → Pc cfg → Prop where
  | own : Flow .run .own
  | leave {pc pc'} (h : pc = .run ∨ pc = .own ∨ pc = .idle_resched)
      (h' : pc' = .push_prev ∨ pc' = .dealloc_prev ∨ pc' = .sched false) : Flow pc pc'
  | stay : Flow .run .run
  | idle_resched : Flow .idle_push .idle_resched
  | pushed {pc} (h : pc = .sync_push ∨ pc = .irq_push true ∨ pc = .push_prev ∨ pc = .dealloc_prev) :
      Flow pc (.sched false)
  | irq_state : Flow (.irq_push false) .irq_state
  | irq_push_prev : Flow .irq_state .push_prev
  | pop_ready (b t target) : Flow (.sched b) (.popped t target)
  | take_trap (b pid) : Flow (.sched b) (.idle_handler pid)
  | empty (pid) : Flow (.idle_handler pid) (.no_handler pid)
  | spin (h pid) : Flow (.busy_wait h pid) (.busy_wait h pid)
  | spun (h pid) : Flow (.busy_wait h pid) (.set_pid h pid)
  | new_handler (h pid) : Flow (.no_handler pid) (.set_pid h pid)
  | set_pid (h pid) : Flow (.set_pid h pid) (.popped h .kernel)
  | run {pc} (h : pc = .run_task ∨ pc = .user_run_task) : Flow pc .run
  | found : Flow .wait_check .wait_clear
  | not_found : Flow .wait_check .wait_irqs
  | returned : Flow .wait_irqs (.sched true)

theorem Flow.not_to_wait_check {pc : Pc cfg} (h : Flow pc .wait_check) : False := by
  cases h with
  | leave _ h' => simp at h'

theorem Flow.to_wait_irqs {pc : Pc cfg} (h : Flow pc .wait_irqs) : pc = .wait_check := by
  cases h with
  | leave _ h' => simp at h'
  | not_found => rfl

theorem Flow.not_to_panicked {pc : Pc cfg} {why : Panic} (h : Flow pc (.panicked why)) : False := by
  cases h with
  | leave _ h' => simp at h'

/-- Inside a function of the scheduler, where a CPU has one next access; in task code that is so for
    a trap handler. -/
def Pc.in_function : Pc cfg → Bool
  | .own | .sched _ | .no_handler _ | .wait_check | .wait_irqs | .panicked _ => false
  | _ => true

namespace Machine

/-- Why a step of CPU `c` ends in a panic. -/
inductive Cause (m : Machine cfg) (c : Cpu cfg) : Panic → Prop where
  | sleeping (hc : m.in_code c = true) (h : m.is_sleeping c = true) : Cause m c .sleeping
  | trap_state (hc : m.in_code c = true) (h : (m.tasks (m.current_task c)).state ≠ .running) : Cause m c .task_state
  | irq_state (hpc : m.pc c = .irq_state) (h : (m.tasks (m.current_task c)).state ≠ .running) :
      Cause m c .task_state
  | run_state (hpc : m.pc c = .run_task ∨ m.pc c = .user_run_task)
      (h : (m.tasks (m.current_task c)).state ≠ .ready) : Cause m c .task_state
  | blocked (hpc : m.pc c = .run ∨ m.pc c = .own ∨ m.pc c = .idle_resched)
      (h : (m.tasks (m.current_task c)).state = .blocked) : Cause m c .task_blocked
  | push_prev (hpc : m.pc c = .push_prev) (h : m.push_task (m.current_task c) = none) : Cause m c .ready_full
  | wake (item t) (hpc : m.pc c = .run) (hst : m.stage (m.current_task c) = some (.wake item t))
      (h : m.push_task t = none) : Cause m c .ready_full
  | trap_full (hpc : m.pc c = .sync_push ∨ ∃ b, m.pc c = .irq_push b)
      (h : (m.traps c).length ≥ cfg.trap_wait_queue_size) : Cause m c .trap_full
  | pool_full (hpc : m.pc c = .idle_push) (h : m.idle_handlers.length ≥ cfg.trap_wait_queue_size) :
      Cause m c .pool_full
  | idle_state {pid} (hpc : m.pc c = .idle_handler pid) (h : get_idle_handler m.idle_handlers m.tasks = none) :
      Cause m c .idle_state
  | new_state {pid} (hpc : m.pc c = .no_handler pid) : Cause m c .new_state
  | trapped_state (item t) (hpc : m.pc c = .run) (hst : m.stage (m.current_task c) = some (.handled item))
      (hitem : item.task = some t)
      (h : (m.tasks t).state ≠ .blocked) (h' : (m.tasks t).state ≠ .exited) : Cause m c .trapped_state

/-- What a step of CPU `c` makes of its variables. -/
inductive Move (m : Machine cfg) (c : Cpu cfg) : Local cfg → Prop where
  | flow {pc'} (h : Flow (m.pc c) pc') : Move m c { m.loc c with pc := pc' }
  | irq (h : m.in_code c = true ∨ m.pc c = .wait_irqs) :
      Move m c { m.loc c with pc := .irq_push (m.is_sleeping c), is_sleeping := false, in_kernel := true }
  | trap (h : m.in_code c = true) (hs : m.is_sleeping c = false) :
      Move m c { m.loc c with pc := .sync_push, in_kernel := true }
  | stop {why} (k) (h : Cause m c why) : Move m c { m.loc c with pc := .panicked why, in_kernel := k }
  | idle_push (hpc : m.pc c = .run) (h₀ : m.stage (m.current_task c) = some .top) :
      Move m c { m.loc c with pc := .idle_push }
  | take_idle (g pid pc') (hpc : m.pc c = .idle_handler pid) (hg : g ∈ m.idle_handlers)
      (h : pc' = .set_pid g pid ∨ pc' = .busy_wait g pid) : Move m c { m.loc c with pc := pc' }
  | into_kernel (b) (hpc : m.pc c = .sched b) (hk : m.in_kernel c = false) :
      Move m c { m.loc c with pc := .sched false, in_kernel := true }
  | fail (b) (hpc : m.pc c = .sched b) (hk : m.in_kernel c = true) :
      Move m c { m.loc c with pc := .wait_context }
  | set_current (t target pc') (hpc : m.pc c = .popped t target) (h : pc' = .run_task ∨ pc' = .krun_utask) :
      Move m c { m.loc c with pc := pc', current_task := t }
  | krun_utask (hpc : m.pc c = .krun_utask) :
      Move m c { m.loc c with
        pc := if (m.tasks (m.current_task c)).is_coroutine then .user_run_task else .run, in_kernel := false }
  | wait_context (hpc : m.pc c = .wait_context) :
      Move m c { m.loc c with pc := .wait_sleeping, current_task := m.scheduler_wait_context c }
  | wait_sleeping (hpc : m.pc c = .wait_sleeping) :
      Move m c { m.loc c with pc := .wait_check, is_sleeping := true }
  | wait_clear (hpc : m.pc c = .wait_clear) :
      Move m c { m.loc c with pc := .sched false, is_sleeping := false }

variable {m m₁ m' : Machine cfg} {a : Act cfg} {c d : Cpu cfg} {pc' : Pc cfg}

/-- A step of CPU `c` as the CPUs see it. -/
def Moves (m : Machine cfg) (c : Cpu cfg) (m' : Machine cfg) : Prop :=
  Move m c (m'.loc c) ∧ ∀ d, d ≠ c → m'.loc d = m.loc d

theorem loc_set_pc (pc' : Pc cfg) : (m.set_pc c pc').loc c = { m.loc c with pc := pc' } := by
  simp [loc, set_pc]

theorem loc_set_pc_of_ne (pc' : Pc cfg) (h : d ≠ c) : (m.set_pc c pc').loc d = m.loc d := by
  simp [loc, set_pc, h]

theorem Moves.of_move (h : ∀ d, d ≠ c → m₁.loc d = m.loc d) (hm : Move m c { m₁.loc c with pc := pc' }) :
    Moves m c (m₁.set_pc c pc') := by
  refine ⟨by rwa [loc_set_pc], fun d hd => ?_⟩
  rw [loc_set_pc_of_ne _ hd, h d hd]

theorem Moves.flow (h : ∀ d, m₁.loc d = m.loc d) (hf : Flow (m.pc c) pc') : Moves m c (m₁.set_pc c pc') :=
  Moves.of_move (fun d _ => h d) (by rw [h c]; exact Move.flow hf)

theorem Moves.stop {why : Panic} (h : ∀ d, m₁.loc d = m.loc d) (hc : Cause m c why) :
    Moves m c (m₁.set_pc c (.panicked why)) :=
  Moves.of_move (fun d _ => h d) (by rw [h c]; exact Move.stop _ hc)

/-- Accesses of a handler leave the variables of its CPU alone. -/
theorem Moves.stay (h : ∀ d, m₁.loc d = m.loc d) (hpc : m.pc c = .run) : Moves m c m₁ := by
  refine ⟨?_, fun d _ => h d⟩
  have hloc : m.loc c = { m.loc c with pc := .run } := by rw [← hpc]; rfl
  rw [h c, hloc]
  exact Move.flow (hpc ▸ Flow.stay)

theorem run_of_in_code (h : m.in_code c = true) : m.pc c = .run := by
  simp only [in_code, Bool.and_eq_true, decide_eq_true_eq] at h
  exact h.1

/-! ### Task code -/

theorem irq_moves (hs : m.irq c = some m') : Moves m c m' := by
  simp only [irq] at hs
  split at hs
  · rename_i hc
    rw [← Option.some.inj hs]
    refine Moves.of_move (fun d hd => ?_) ?_
    · simp [loc, set_sleeping, set_in_kernel, save_context, hd]
    · have hm := Move.irq (m := m) (c := c) (Or.inl hc)
      simpa [loc, set_sleeping, set_in_kernel, save_context] using hm
  · split at hs
    · rename_i hpc
      rw [← Option.some.inj hs]
      refine Moves.of_move (fun d hd => ?_) ?_
      · simp [loc, set_sleeping, set_in_kernel, hd]
      · have hm := Move.irq (m := m) (c := c) (Or.inr hpc)
        simpa [loc, set_sleeping, set_in_kernel] using hm
    · cases hs

theorem trap_moves (hs : m.trap c = some m') : Moves m c m' := by
  simp only [trap] at hs
  split at hs
  · rename_i hc
    split at hs
    · rename_i hsl
      rw [← Option.some.inj hs]
      refine Moves.of_move (fun d hd => ?_) ?_
      · simp [loc, set_in_kernel, save_context, hd]
      · have hm := Move.stop (m := m) (c := c) true (.sleeping hc hsl)
        simpa [loc, set_in_kernel, save_context] using hm
    · rename_i hsl
      rw [← Option.some.inj hs]
      refine Moves.of_move (fun d hd => ?_) ?_
      · simp [loc, set_in_kernel, save_context, set_state, hd]
      · split
        · have hm := Move.trap (m := m) (c := c) hc (by simpa using hsl)
          simpa [loc, set_in_kernel, save_context, set_state] using hm
        · rename_i hst
          have hm := Move.stop (m := m) (c := c) true (.trap_state hc hst)
          simpa [loc, set_in_kernel, save_context, set_state] using hm
  · cases hs

theorem set_self_moves {st : TaskState} (hs : m.set_self c st = some m') : Moves m c m' := by
  simp only [set_self] at hs
  split at hs
  · rename_i hc
    rw [← Option.some.inj hs]
    exact Moves.flow (fun _ => rfl) (by rw [run_of_in_code hc.1]; exact Flow.own)
  · cases hs

/-- `phase2` after the save of a context. -/
theorem phase2_moves (b : Bool) (hpc : m.pc c = .run ∨ m.pc c = .own ∨ m.pc c = .idle_resched) :
    Moves m c ((m.save_context (m.current_task c) b).phase2 c) := by
  have hkeep : ((m.save_context (m.current_task c) b).tasks (m.current_task c)).state =
      (m.tasks (m.current_task c)).state := by simp [save_context]
  have hcur : (m.save_context (m.current_task c) b).current_task c = m.current_task c := rfl
  simp only [phase2, hcur]
  split
  · exact Moves.flow (fun _ => rfl) (Flow.leave hpc (Or.inl rfl))
  · exact Moves.flow (fun _ => rfl) (Flow.leave hpc (Or.inr (Or.inr rfl)))
  · rename_i hst
    exact Moves.stop (fun _ => rfl) (.blocked hpc (by rw [← hkeep, hst]))
  · exact Moves.flow (fun _ => rfl) (Flow.leave hpc (Or.inr (Or.inl rfl)))
  · exact Moves.flow (fun _ => rfl) (Flow.leave hpc (Or.inr (Or.inr rfl)))

theorem leave_moves {b : Bool} (hs : m.leave c b = some m') : Moves m c m' := by
  simp only [leave] at hs
  split at hs
  · rename_i hc
    rw [← Option.some.inj hs]
    exact phase2_moves b (hc.elim (fun h => Or.inl (run_of_in_code h)) fun h => Or.inr (Or.inl h))
  · cases hs

theorem poll_ready_moves (hs : m.poll_ready c = some m') : Moves m c m' := by
  simp only [poll_ready] at hs
  split at hs
  · rename_i hc
    rw [← Option.some.inj hs]
    have hpc : m.pc c = .run ∨ m.pc c = .own ∨ m.pc c = .idle_resched :=
      hc.elim (fun h => Or.inl (run_of_in_code h)) fun h => Or.inr (Or.inl h)
    exact Moves.flow (fun _ => rfl) (Flow.leave hpc (Or.inr (Or.inl rfl)))
  · cases hs

/-! ### The schedule loop -/

theorem pop_ready_moves {p : Pid cfg} {l : Level cfg} (hs : m.pop_ready c p l = some m') : Moves m c m' := by
  simp only [pop_ready] at hs
  split at hs
  · rename_i hpc _
    split at hs
    · split at hs
      all_goals
        rw [← Option.some.inj hs]
        exact Moves.flow (fun _ => rfl) (by rw [hpc]; exact Flow.pop_ready _ _ _)
    · split at hs
      · rw [← Option.some.inj hs]
        exact Moves.flow (fun _ => rfl) (by rw [hpc]; exact Flow.pop_ready _ _ _)
      · cases hs
  · cases hs

theorem take_trap_moves (hs : m.take_trap c = some m') : Moves m c m' := by
  simp only [take_trap] at hs
  split at hs
  · rename_i hpc _
    split at hs
    · rw [← Option.some.inj hs]
      exact Moves.flow (fun _ => rfl) (by rw [hpc]; exact Flow.take_trap _ _)
    · cases hs
  · cases hs

theorem fail_moves {p : Pid cfg} (hs : m.fail c p = some m') : Moves m c m' := by
  simp only [fail] at hs
  split at hs
  · rename_i hpc
    split at hs
    · rename_i hk
      rw [← Option.some.inj hs]
      exact Moves.of_move (fun _ _ => rfl) (Move.fail _ hpc hk)
    · cases hs
  · cases hs

theorem into_kernel_moves {p : Pid cfg} (hs : m.into_kernel c p = some m') : Moves m c m' := by
  simp only [into_kernel] at hs
  split at hs
  · rename_i hpc
    split at hs
    · cases hs
    · rename_i hk
      rw [← Option.some.inj hs]
      refine Moves.of_move (fun d hd => by simp [loc, set_vspace, set_in_kernel, hd]) ?_
      have hm := Move.into_kernel (m := m) (c := c) _ hpc (by simpa using hk)
      simpa [loc, set_vspace, set_in_kernel] using hm
  · cases hs

theorem new_handler_moves {h : TaskPtr} {task : Task cfg} (hs : m.new_handler c h task = some m') :
    Moves m c m' := by
  simp only [new_handler] at hs
  split at hs
  · rename_i pid hpc
    split at hs
    · split at hs
      · rw [← Option.some.inj hs]
        exact Moves.stop (fun _ => rfl) (.new_state hpc)
      · rw [← Option.some.inj hs]
        exact Moves.flow (fun _ => rfl) (by rw [hpc]; exact Flow.new_handler _ _)
    · cases hs
  · cases hs

theorem check_moves {b : Bool} (hs : m.check c b = some m') : Moves m c m' := by
  simp only [check] at hs
  split at hs
  · rename_i hpc
    rw [← Option.some.inj hs]
    refine Moves.flow (fun _ => rfl) ?_
    rw [hpc]
    cases b
    · exact Flow.not_found
    · exact Flow.found
  · cases hs

theorem wait_return_moves (hs : m.wait_return c = some m') : Moves m c m' := by
  simp only [wait_return] at hs
  split at hs
  · rename_i hpc
    rw [← Option.some.inj hs]
    exact Moves.flow (fun _ => rfl) (by rw [hpc]; exact Flow.returned)
  · cases hs

theorem handle_exits_moves (hs : m.handle_exits c = some m') : Moves m c m' := by
  simp only [handle_exits] at hs
  split at hs
  · rename_i hpc _
    rw [← Option.some.inj hs]
    exact Moves.stay (fun _ => rfl) hpc
  · cases hs

/-! ### The other accesses -/

theorem push_task_loc {t : TaskPtr} (hp : m.push_task t = some m₁) (d : Cpu cfg) : m₁.loc d = m.loc d := by
  simp only [push_task, Option.bind_eq_some_iff] at hp
  obtain ⟨l, -, hp⟩ := hp
  split at hp
  · rw [← Option.some.inj hp]
    rfl
  · cases hp

theorem push_trap_loc {task : Option TaskPtr} (hp : m.push_trap c task = some m₁) (d : Cpu cfg) :
    m₁.loc d = m.loc d := by
  simp only [push_trap] at hp
  split at hp
  · rw [← Option.some.inj hp]
    rfl
  · cases hp

theorem push_trap_eq_none {task : Option TaskPtr} (hp : m.push_trap c task = none) :
    (m.traps c).length ≥ cfg.trap_wait_queue_size := by
  simp only [push_trap] at hp
  split at hp
  · cases hp
  · omega

theorem handler_next_moves {st : Stage} (hpc : m.pc c = .run) (h₀ : m.stage (m.current_task c) = some st) :
    Moves m c (m.handler_next c st) := by
  cases st with
  | top =>
    simp only [handler_next]
    split
    · exact Moves.stay (fun _ => rfl) hpc
    · exact Moves.of_move (fun _ _ => rfl) (Move.idle_push hpc h₀)
  | taken item => exact Moves.stay (fun _ => rfl) hpc
  | handle item => exact Moves.stay (fun _ => rfl) hpc
  | handled item =>
    simp only [handler_next]
    split
    · exact Moves.stay (fun _ => rfl) hpc
    · rename_i t hitem
      split
      · exact Moves.stay (fun _ => rfl) hpc
      · exact Moves.stay (fun _ => rfl) hpc
      · rename_i h h'
        exact Moves.stop (fun _ => rfl) (.trapped_state item t hpc h₀ hitem h h')
  | wake item t =>
    simp only [handler_next]
    split
    · rename_i hp
      exact Moves.stop (fun _ => rfl) (.wake item t hpc h₀ hp)
    · rename_i m₁ hp
      exact Moves.stay (fun d => push_task_loc hp d) hpc
  | exited item t => exact Moves.stay (fun _ => rfl) hpc
  | dealloc item => exact Moves.stay (fun _ => rfl) hpc

theorem get_idle_handler_moves {pid : Pid cfg} (hpc : m.pc c = .idle_handler pid) (hs : m.next c = some m') :
    Moves m c m' := by
  simp only [next, hpc] at hs
  cases hidle : m.idle_handlers with
  | nil =>
    simp only [hidle, get_idle_handler] at hs
    rw [← Option.some.inj hs]
    exact Moves.flow (fun _ => rfl) (by rw [hpc]; exact Flow.empty _)
  | cons g rest =>
    have hg : g ∈ m.idle_handlers := by simp [hidle]
    split at hs
    · rename_i hnone
      rw [← Option.some.inj hs]
      exact Moves.stop (fun _ => rfl) (.idle_state hpc hnone)
    all_goals
      rename_i heq
      simp only [hidle, get_idle_handler] at heq
      cases hst : (m.tasks g).state <;> simp only [hst, Option.some.injEq, Prod.mk.injEq, reduceCtorEq,
        false_and, IdleHandler.runnable.injEq, IdleHandler.blocking.injEq] at heq
    · obtain ⟨rfl, -⟩ := heq
      rw [← Option.some.inj hs]
      exact Moves.of_move (fun _ _ => rfl) (Move.take_idle g pid _ hpc hg (Or.inl rfl))
    · obtain ⟨rfl, -⟩ := heq
      rw [← Option.some.inj hs]
      exact Moves.of_move (fun _ _ => rfl) (Move.take_idle g pid _ hpc hg (Or.inr rfl))

theorem run_current_moves (hpc : m.pc c = .run_task ∨ m.pc c = .user_run_task) : Moves m c (m.run_current c) := by
  simp only [run_current]
  split
  · exact Moves.flow (fun _ => rfl) (Flow.run hpc)
  · rename_i h
    exact Moves.stop (fun _ => rfl) (.run_state hpc fun hr => h (Or.inl hr))

theorem sync_push_moves (hpc : m.pc c = .sync_push) (hs : m.next c = some m') : Moves m c m' := by
  simp only [next, hpc] at hs
  split at hs
  · rename_i hp
    rw [← Option.some.inj hs]
    exact Moves.stop (fun _ => rfl) (.trap_full (Or.inl hpc) (push_trap_eq_none hp))
  · rename_i m₁ hp
    rw [← Option.some.inj hs]
    exact Moves.flow (fun d => push_trap_loc hp d) (Flow.pushed (Or.inl hpc))

theorem irq_push_moves {b : Bool} (hpc : m.pc c = .irq_push b) (hs : m.next c = some m') : Moves m c m' := by
  simp only [next, hpc] at hs
  split at hs
  · rename_i hp
    rw [← Option.some.inj hs]
    exact Moves.stop (fun _ => rfl) (.trap_full (Or.inr ⟨b, hpc⟩) (push_trap_eq_none hp))
  · rename_i m₁ hp
    rw [← Option.some.inj hs]
    refine Moves.flow (fun d => push_trap_loc hp d) ?_
    cases b
    · rw [hpc]; exact Flow.irq_state
    · exact Flow.pushed (Or.inr (Or.inl hpc))

theorem push_prev_moves (hpc : m.pc c = .push_prev) (hs : m.next c = some m') : Moves m c m' := by
  simp only [next, hpc] at hs
  split at hs
  · rename_i hp
    rw [← Option.some.inj hs]
    exact Moves.stop (fun _ => rfl) (.push_prev hpc hp)
  · rename_i m₁ hp
    rw [← Option.some.inj hs]
    exact Moves.flow (fun d => push_task_loc hp d) (Flow.pushed (Or.inr (Or.inr (Or.inl hpc))))

/-- The task that a pop returned becomes the current one. -/
theorem popped_moves {t : TaskPtr} {target : Target} (hpc : m.pc c = .popped t target) (hs : m.next c = some m') :
    Moves m c m' := by
  cases target <;> simp only [next, hpc] at hs <;> rw [← Option.some.inj hs]
  · refine Moves.of_move (fun d hd => by simp [loc, set_current, set_vspace, hd]) ?_
    simpa [loc, set_current, set_vspace] using Move.set_current (m := m) t .kernel .run_task hpc (Or.inl rfl)
  · refine Moves.of_move (fun d hd => by simp [loc, set_current, hd]) ?_
    simpa [loc, set_current] using Move.set_current (m := m) t .krun .krun_utask hpc (Or.inr rfl)
  · refine Moves.of_move (fun d hd => by simp [loc, set_current, hd]) ?_
    simpa [loc, set_current] using Move.set_current (m := m) t .user .run_task hpc (Or.inl rfl)

/-- The stores of `wait_for_runnable_task`. -/
theorem wait_moves (hpc : m.pc c = .wait_context ∨ m.pc c = .wait_sleeping ∨ m.pc c = .wait_clear)
    (hs : m.next c = some m') : Moves m c m' := by
  rcases hpc with hpc | hpc | hpc <;> simp only [next, hpc] at hs <;> rw [← Option.some.inj hs]
  · refine Moves.of_move (fun d hd => by simp [loc, set_current, hd]) ?_
    simpa [loc, set_current] using Move.wait_context hpc
  · refine Moves.of_move (fun d hd => by simp [loc, set_sleeping, hd]) ?_
    simpa [loc, set_sleeping] using Move.wait_sleeping hpc
  · refine Moves.of_move (fun d hd => by simp [loc, set_sleeping, hd]) ?_
    simpa [loc, set_sleeping] using Move.wait_clear hpc

theorem idle_push_moves (hpc : m.pc c = .idle_push) (hs : m.next c = some m') : Moves m c m' := by
  simp only [next, hpc] at hs
  split at hs
  · rw [← Option.some.inj hs]
    exact Moves.flow (fun _ => rfl) (by rw [hpc]; exact Flow.idle_resched)
  · rename_i h
    rw [← Option.some.inj hs]
    exact Moves.stop (fun _ => rfl) (.pool_full hpc (by omega))

theorem next_moves (hs : m.next c = some m') : Moves m c m' := by
  cases hpc : m.pc c with
  | run =>
    simp only [next, hpc, Option.map_eq_some_iff] at hs
    obtain ⟨st, h₀, rfl⟩ := hs
    exact handler_next_moves hpc h₀
  | sync_push => exact sync_push_moves hpc hs
  | irq_push b => exact irq_push_moves hpc hs
  | irq_state =>
    simp only [next, hpc] at hs
    rw [← Option.some.inj hs]
    split
    · exact Moves.flow (fun _ => rfl) (by rw [hpc]; exact Flow.irq_push_prev)
    · rename_i h
      exact Moves.stop (fun _ => rfl) (.irq_state hpc h)
  | push_prev => exact push_prev_moves hpc hs
  | dealloc_prev =>
    simp only [next, hpc] at hs
    rw [← Option.some.inj hs]
    exact Moves.flow (fun _ => rfl) (Flow.pushed (Or.inr (Or.inr (Or.inr hpc))))
  | idle_handler pid => exact get_idle_handler_moves hpc hs
  | busy_wait h pid =>
    simp only [next, hpc] at hs
    rw [← Option.some.inj hs]
    refine Moves.flow (fun _ => rfl) ?_
    rw [hpc]
    split
    · exact Flow.spun h pid
    · exact Flow.spin h pid
  | set_pid h pid =>
    simp only [next, hpc] at hs
    rw [← Option.some.inj hs]
    exact Moves.flow (fun _ => rfl) (by rw [hpc]; exact Flow.set_pid h pid)
  | popped t target => exact popped_moves hpc hs
  | run_task =>
    simp only [next, hpc] at hs
    rw [← Option.some.inj hs]
    exact run_current_moves (Or.inl hpc)
  | krun_utask =>
    simp only [next, hpc] at hs
    rw [← Option.some.inj hs]
    refine Moves.of_move (fun d hd => by simp [loc, set_in_kernel, set_state, hd]) ?_
    simpa [loc, set_in_kernel, set_state] using Move.krun_utask hpc
  | user_run_task =>
    simp only [next, hpc] at hs
    rw [← Option.some.inj hs]
    exact run_current_moves (Or.inr hpc)
  | wait_context => exact wait_moves (Or.inl hpc) hs
  | wait_sleeping => exact wait_moves (Or.inr (Or.inl hpc)) hs
  | wait_clear => exact wait_moves (Or.inr (Or.inr hpc)) hs
  | idle_push => exact idle_push_moves hpc hs
  | idle_resched =>
    simp only [next, hpc] at hs
    rw [← Option.some.inj hs]
    exact phase2_moves false (Or.inr (Or.inr hpc))
  | own | sched _ | no_handler _ | wait_check | wait_irqs | panicked _ => simp [next, hpc] at hs

/-! ### All steps -/

theorem arrive_loc {t : TaskPtr} {task : Task cfg} (hs : m.arrive t task = some m') (d : Cpu cfg) :
    m'.loc d = m.loc d := by
  simp only [arrive] at hs
  split at hs
  · obtain ⟨m₁, hp, rfl⟩ := Option.map_eq_some_iff.mp hs
    exact push_task_loc hp d
  · cases hs

theorem wake_loc (t : TaskPtr) (d : Cpu cfg) : (m.wake t).loc d = m.loc d := by
  simp only [wake]
  split
  · split <;> rfl
  · rfl

theorem wake_push_loc {t : TaskPtr} (hs : m.wake_push t = some m') (d : Cpu cfg) : m'.loc d = m.loc d := by
  simp only [wake_push] at hs
  split at hs
  · obtain ⟨m₁, hp, rfl⟩ := Option.map_eq_some_iff.mp hs
    exact push_task_loc hp d
  · cases hs

/-- A step is a move of its CPU; a step of nobody changes no variable of a CPU. -/
theorem step_moves (hs : m.step a = some m') :
    (∃ c, a.cpu = some c ∧ Moves m c m') ∨ (a.cpu = none ∧ ∀ d, m'.loc d = m.loc d) := by
  cases a with
  | irq c => exact Or.inl ⟨c, rfl, irq_moves hs⟩
  | trap c => exact Or.inl ⟨c, rfl, trap_moves hs⟩
  | set_self c st => exact Or.inl ⟨c, rfl, set_self_moves hs⟩
  | leave c b => exact Or.inl ⟨c, rfl, leave_moves hs⟩
  | poll_ready c => exact Or.inl ⟨c, rfl, poll_ready_moves hs⟩
  | arrive t task => exact Or.inr ⟨rfl, arrive_loc hs⟩
  | wake t => exact Or.inr ⟨rfl, fun d => by rw [← Option.some.inj hs]; exact wake_loc t d⟩
  | wake_push t => exact Or.inr ⟨rfl, wake_push_loc hs⟩
  | pop_ready c p l => exact Or.inl ⟨c, rfl, pop_ready_moves hs⟩
  | take_trap c => exact Or.inl ⟨c, rfl, take_trap_moves hs⟩
  | fail c p => exact Or.inl ⟨c, rfl, fail_moves hs⟩
  | into_kernel c p => exact Or.inl ⟨c, rfl, into_kernel_moves hs⟩
  | new_handler c h task => exact Or.inl ⟨c, rfl, new_handler_moves hs⟩
  | check c b => exact Or.inl ⟨c, rfl, check_moves hs⟩
  | wait_return c => exact Or.inl ⟨c, rfl, wait_return_moves hs⟩
  | handle_exits c => exact Or.inl ⟨c, rfl, handle_exits_moves hs⟩
  | next c => exact Or.inl ⟨c, rfl, next_moves hs⟩

/-- What a step does to the variables of one CPU. -/
theorem step_loc (hs : m.step a = some m') (d : Cpu cfg) :
    m'.loc d = m.loc d ∨ a.cpu = some d ∧ Move m d (m'.loc d) := by
  rcases step_moves hs with ⟨c, ha, hmove, hother⟩ | ⟨-, hother⟩
  · rcases eq_or_ne d c with rfl | hdc
    · exact Or.inr ⟨ha, hmove⟩
    · exact Or.inl (hother d hdc)
  · exact Or.inl (hother d)

/-- A CPU moves by its own steps. -/
theorem cpu_of_pc_ne (hs : m.step a = some m') (hne : m'.pc c ≠ m.pc c) : a.cpu = some c := by
  rcases step_loc hs c with heq | ⟨ha, -⟩
  · exact absurd (congrArg Local.pc heq) hne
  · exact ha

/-- Inside the functions of the scheduler a CPU has no other step than the next access. -/
theorem eq_next (hs : m.step a = some m') (ha : a.cpu = some c) (hcode : m.in_code c = false)
    (hpc : (m.pc c).in_function = true) : a = .next c := by
  generalize hat : m.pc c = pc at hpc
  cases a <;> simp only [Act.cpu, Option.some.injEq, reduceCtorEq] at ha <;> subst ha
  case next => rfl
  case handle_exits =>
    simp only [step, handle_exits] at hs
    split at hs
    · rename_i hrun h₀
      simp [in_code, hrun, h₀] at hcode
    · cases hs
  all_goals
    cases pc <;> simp only [Pc.in_function, Bool.false_eq_true] at hpc <;>
      simp [step, irq, trap, set_self, leave, poll_ready, pop_ready, take_trap, fail, into_kernel, new_handler,
        check, wait_return, hcode, hat] at hs

/-- A CPU that has stopped had a cause. -/
theorem panic_cause {why : Panic} (hs : m.step a = some m') (hd : m'.pc d = .panicked why) :
    m.pc d = .panicked why ∨ Cause m d why := by
  change (m'.loc d).pc = _ at hd
  rcases step_loc hs d with heq | ⟨-, hmove⟩
  · rw [heq] at hd
    exact Or.inl hd
  · generalize m'.loc d = l at hmove hd
    cases hmove with
    | flow hf =>
      obtain rfl := hd
      exact hf.not_to_panicked.elim
    | stop k h =>
      simp only [Pc.panicked.injEq] at hd
      exact Or.inr (hd ▸ h)
    | set_current t target pc' _ h => rcases h with rfl | rfl <;> simp at hd
    | take_idle g pid pc' _ _ h => rcases h with rfl | rfl <;> simp at hd
    | krun_utask => split at hd <;> simp at hd
    | _ => simp at hd

end Machine

end Vsched2
