import Vsched2.Machine

/-! What a step does to the queues, the traps and their handlers, the admitted tasks, and to what a
    task keeps from its creation on.

    Most steps at most take a task out of a ready queue (`Quiet`); `Effect` lists the others. -/

namespace Vsched2

variable {cfg : Config}

@[simp] theorem Tasks.set_state_data (ts : Tasks cfg) (t u : TaskPtr) (st : TaskState) :
    (ts.set_state t st u).priority = (ts u).priority ∧ (ts.set_state t st u).is_kernel = (ts u).is_kernel ∧
    (ts.set_state t st u).pid = (ts u).pid := by
  rcases eq_or_ne u t with rfl | h
  · simp [Tasks.set_state]
  · rw [Tasks.set_state_of_ne _ _ h]
    exact ⟨rfl, rfl, rfl⟩

namespace Machine

/-- Nothing has entered a queue; traps, handlers, admitted tasks and the lasting data of tasks are
    unchanged. -/
structure Quiet (m m' : Machine cfg) : Prop where
  known : m'.known = m.known
  stage : m'.stage = m.stage
  traps : m'.traps = m.traps
  next_info : m'.next_info = m.next_info
  log : m'.log = m.log
  entered : m'.entered = m.entered
  admitted : m'.admitted = m.admitted
  scheduler_wait_context : m'.scheduler_wait_context = m.scheduler_wait_context
  idle_handlers : m'.idle_handlers = m.idle_handlers
  ready : ∀ p l, (m'.ready p l).Sublist (m.ready p l)
  data : ∀ t, (m'.tasks t).priority = (m.tasks t).priority ∧ (m'.tasks t).is_kernel = (m.tasks t).is_kernel ∧
    (m'.tasks t).pid = (m.tasks t).pid

namespace Quiet

variable {m m₁ m' : Machine cfg} {c : Cpu cfg} {t : TaskPtr}

theorem refl (m : Machine cfg) : Quiet m m where
  known := rfl
  stage := rfl
  traps := rfl
  next_info := rfl
  log := rfl
  entered := rfl
  admitted := rfl
  scheduler_wait_context := rfl
  idle_handlers := rfl
  ready := fun _ _ => List.Sublist.refl _
  data := fun _ => ⟨rfl, rfl, rfl⟩

/-- The other variables do not matter. -/
theorem congr {m₂ : Machine cfg} (h : Quiet m m₁)
    (he : m₂ = { m₁ with
      tasks := m₂.tasks, waits := m₂.waits, waking := m₂.waking, pc := m₂.pc, current_task := m₂.current_task,
      is_sleeping := m₂.is_sleeping, in_kernel := m₂.in_kernel, current_vspace := m₂.current_vspace })
    (ht : ∀ t, (m₂.tasks t).priority = (m₁.tasks t).priority ∧ (m₂.tasks t).is_kernel = (m₁.tasks t).is_kernel ∧
      (m₂.tasks t).pid = (m₁.tasks t).pid) : Quiet m m₂ where
  known := by rw [he]; exact h.known
  stage := by rw [he]; exact h.stage
  traps := by rw [he]; exact h.traps
  next_info := by rw [he]; exact h.next_info
  log := by rw [he]; exact h.log
  entered := by rw [he]; exact h.entered
  admitted := by rw [he]; exact h.admitted
  scheduler_wait_context := by rw [he]; exact h.scheduler_wait_context
  idle_handlers := by rw [he]; exact h.idle_handlers
  ready := by rw [he]; exact h.ready
  data := fun t => ⟨(ht t).1.trans (h.data t).1, (ht t).2.1.trans (h.data t).2.1, (ht t).2.2.trans (h.data t).2.2⟩

theorem set_pc (h : Quiet m m₁) (pc : Pc cfg) : Quiet m (m₁.set_pc c pc) :=
  h.congr rfl fun _ => ⟨rfl, rfl, rfl⟩

theorem set_current (h : Quiet m m₁) : Quiet m (m₁.set_current c t) := h.congr rfl fun _ => ⟨rfl, rfl, rfl⟩

theorem set_sleeping (h : Quiet m m₁) (b : Bool) : Quiet m (m₁.set_sleeping c b) :=
  h.congr rfl fun _ => ⟨rfl, rfl, rfl⟩

theorem set_in_kernel (h : Quiet m m₁) (b : Bool) : Quiet m (m₁.set_in_kernel c b) :=
  h.congr rfl fun _ => ⟨rfl, rfl, rfl⟩

theorem set_vspace (h : Quiet m m₁) (p : Pid cfg) : Quiet m (m₁.set_vspace c p) :=
  h.congr rfl fun _ => ⟨rfl, rfl, rfl⟩

theorem set_waking (h : Quiet m m₁) (q : List TaskPtr) : Quiet m { m₁ with waking := q } :=
  h.congr rfl fun _ => ⟨rfl, rfl, rfl⟩

theorem set_state (h : Quiet m m₁) (st : TaskState) : Quiet m (m₁.set_state t st) :=
  h.congr rfl fun u => m₁.tasks.set_state_data t u st

theorem set_wait (h : Quiet m m₁) (st : TaskState) (w : Bool) : Quiet m (m₁.set_wait t st w) :=
  h.congr rfl fun u => m₁.tasks.set_state_data t u st

theorem save_context (h : Quiet m m₁) (b : Bool) : Quiet m (m₁.save_context t b) :=
  h.congr rfl fun u => by rcases eq_or_ne u t with rfl | hu <;> simp [Machine.save_context, *]

theorem set_ready {p : Pid cfg} {l : Level cfg} {q : List TaskPtr} (h : Quiet m m₁)
    (hq : q.Sublist (m₁.ready p l)) : Quiet m (m₁.set_ready p l q) where
  known := h.known
  stage := h.stage
  traps := h.traps
  next_info := h.next_info
  log := h.log
  entered := h.entered
  admitted := h.admitted
  scheduler_wait_context := h.scheduler_wait_context
  idle_handlers := h.idle_handlers
  ready := by
    intro p' l'
    refine List.Sublist.trans ?_ (h.ready p' l')
    rcases eq_or_ne p' p with rfl | hp
    · rcases eq_or_ne l' l with rfl | hl
      · simpa [Machine.set_ready] using hq
      · simp [Machine.set_ready, hl]
    · simp [Machine.set_ready, hp]
  data := h.data

end Quiet

/-! ### The two kinds of enqueue -/

variable {m m₁ m' : Machine cfg} {a : Act cfg} {c : Cpu cfg}

theorem push_task_eq_some {t : TaskPtr} (hp : m.push_task t = some m') :
    ∃ l, cfg.level (m.tasks t).priority = some l ∧ (m.ready (m.home t) l).length < cfg.ready_queue_size ∧
      m' = m.set_ready (m.home t) l (m.ready (m.home t) l ++ [t]) := by
  simp only [push_task, Option.bind_eq_some_iff] at hp
  obtain ⟨l, hl, hp⟩ := hp
  split at hp
  · exact ⟨l, hl, ‹_›, (Option.some.inj hp).symm⟩
  · cases hp

theorem push_trap_eq_some {task : Option TaskPtr} (hp : m.push_trap c task = some m₁) :
    m₁ = { m with
      traps := Function.update m.traps c (m.traps c ++ [⟨m.next_info, task⟩])
      next_info := m.next_info + 1
      log := m.log ++ [.push_trap c ⟨m.next_info, task⟩] } := by
  simp only [Machine.push_trap] at hp
  split at hp
  · exact (Option.some.inj hp).symm
  · cases hp

/-! ### Steps -/

/-- Who puts the task `t` into a ready queue by `m.push_task t`, besides a handler: the CPU it leaves,
    or a waker. -/
inductive Enqueuer (m : Machine cfg) (a : Act cfg) (t : TaskPtr) : Prop where
  | push_prev (c : Cpu cfg) (ha : a = .next c) (hpc : m.pc c = .push_prev) (ht : t = m.current_task c)
  | waker (ha : a = .wake_push t) (ht : t ∈ m.waking)

/-- What a step does beyond that. -/
inductive Effect (m : Machine cfg) (a : Act cfg) (m' : Machine cfg) : Prop where
  | quiet (h : Quiet m m')
  | enqueue (t) (m₁ : Machine cfg) (who : Enqueuer m a t) (hp : m.push_task t = some m₁) (h : Quiet m₁ m')
  | push_trap (c : Cpu cfg) (task) (m₁ : Machine cfg) (hp : m.push_trap c task = some m₁) (h : Quiet m₁ m')
      (who : ∀ t, task = some t → m.pc c = .sync_push ∧ t = m.current_task c)
  | take_idle (c : Cpu cfg) (pid g rest) (hpc : m.pc c = .idle_handler pid) (hidle : m.idle_handlers = g :: rest)
      (h : Quiet { m with idle_handlers := rest } m')
  | push_idle (c : Cpu cfg) (hpc : m.pc c = .idle_push)
      (h : Quiet { m with idle_handlers := m.idle_handlers ++ [m.current_task c] } m')
  | set_pid (c : Cpu cfg) (g pid) (hpc : m.pc c = .set_pid g pid)
      (h : Quiet { m with tasks := m.tasks.set_pid g pid } m')
  | dealloc (c : Cpu cfg) (hpc : m.pc c = .dealloc_prev)
      (h : m' = { m with admitted := m.admitted.erase (m.current_task c) }.set_pc c (.sched false))
  | arrive (t task) (m₁ : Machine cfg) (ha : a = .arrive t task) (hk : m.known t = false) (hst : task.state = .ready)
      (hp : (m.create t task none).push_task t = some m₁) 
      (h : m' = { m₁ with admitted := m₁.admitted ++ [t], entered := Function.update m₁.entered t true })
  | new_handler (g task) (hk : m.known g = false) (hker : task.is_kernel = true)
      (h : Quiet (m.create g task (some .top)) m') (who : ∃ c, a = .new_handler c g task)
  | handler (c : Cpu cfg) (st) (ha : a = .next c) (hpc : m.pc c = .run) (h₀ : m.stage (m.current_task c) = some st)
      (h : m' = m.handler_next c st)

theorem irq_quiet (hs : m.irq c = some m') : Quiet m m' := by
  simp only [irq] at hs
  split at hs
  · rw [← Option.some.inj hs]
    exact ((((Quiet.refl m).save_context _).set_in_kernel _).set_sleeping _).set_pc _
  · split at hs
    · rw [← Option.some.inj hs]
      exact (((Quiet.refl m).set_in_kernel _).set_sleeping _).set_pc _
    · cases hs

theorem trap_quiet (hs : m.trap c = some m') : Quiet m m' := by
  simp only [trap] at hs
  split at hs
  · split at hs
    · rw [← Option.some.inj hs]
      exact (((Quiet.refl m).save_context _).set_in_kernel _).set_pc _
    · rw [← Option.some.inj hs]
      exact ((((Quiet.refl m).save_context _).set_in_kernel _).set_state _).set_pc _
  · cases hs

theorem Quiet.phase2 (h : Quiet m m₁) : Quiet m (m₁.phase2 c) := by
  simp only [Machine.phase2]
  split
  · exact (h.set_state _).set_pc _
  · exact (h.set_wait _ _).set_pc _
  · exact (h.set_state _).set_pc _
  · exact (h.set_state _).set_pc _
  · exact (h.set_state _).set_pc _

theorem pop_ready_quiet {p : Pid cfg} {l : Level cfg} (hs : m.pop_ready c p l = some m') : Quiet m m' := by
  simp only [pop_ready] at hs
  split at hs
  · rename_i t rest hpc hr
    have hsub : rest.Sublist (m.ready p l) := by rw [hr]; exact List.sublist_cons_self t rest
    split at hs
    · split at hs
      · rw [← Option.some.inj hs]
        exact ((Quiet.refl m).set_ready hsub).set_pc _
      · rw [← Option.some.inj hs]
        exact (((Quiet.refl m).set_vspace _).set_ready hsub).set_pc _
    · split at hs
      · rw [← Option.some.inj hs]
        exact ((Quiet.refl m).set_ready hsub).set_pc _
      · cases hs
  · cases hs

theorem wake_quiet (m : Machine cfg) (t : TaskPtr) : Quiet m (m.wake t) := by
  simp only [wake]
  split
  · split
    · exact ((Quiet.refl m).set_wait _ _).set_waking _
    · exact (Quiet.refl m).set_wait _ _
    · exact Quiet.refl m
  · exact Quiet.refl m

theorem wake_push_effect {t : TaskPtr} (hs : m.wake_push t = some m') : Effect m (.wake_push t) m' := by
  simp only [wake_push] at hs
  split at hs
  · rename_i hmem
    obtain ⟨m₁, hp, rfl⟩ := Option.map_eq_some_iff.mp hs
    exact .enqueue t m₁ (.waker rfl hmem) hp ((Quiet.refl m₁).set_waking _)
  · cases hs

theorem create_new_handler_eq {h : TaskPtr} {ts ts' : Tasks cfg} (hc : create_new_handler h ts = some ts') :
    ts' = ts.set_state h .ready := by
  simp only [create_new_handler] at hc
  split at hc
  · rename_i hst
    rw [← Option.some.inj hc, hst]
    rfl
  · rename_i hst
    rw [← Option.some.inj hc, hst]
    rfl
  · cases hc

theorem new_handler_effect {g : TaskPtr} {task : Task cfg} (hs : m.new_handler c g task = some m') :
    Effect m (.new_handler c g task) m' := by
  simp only [new_handler] at hs
  split at hs
  · split at hs
    · rename_i hnew
      split at hs
      · rw [← Option.some.inj hs]
        exact .new_handler g task hnew.1 hnew.2 ((Quiet.refl _).set_pc _) ⟨c, rfl⟩
      · rename_i ts hc
        rw [create_new_handler_eq hc] at hs
        rw [← Option.some.inj hs]
        exact .new_handler g task hnew.1 hnew.2 (((Quiet.refl _).set_state .ready).set_pc _) ⟨c, rfl⟩
    · cases hs
  · cases hs

theorem get_idle_handler_effect {pid : Pid cfg} (hpc : m.pc c = .idle_handler pid) (hs : m.next c = some m') :
    Effect m a m' := by
  simp only [next, hpc, get_idle_handler] at hs
  cases hidle : m.idle_handlers with
  | nil =>
    simp only [hidle] at hs
    rw [← Option.some.inj hs]
    refine .quiet (Quiet.set_pc ?_ _)
    exact { Quiet.refl m with idle_handlers := hidle.symm }
  | cons h rest =>
    simp only [hidle] at hs
    cases hst : (m.tasks h).state <;> simp only [hst] at hs <;> rw [← Option.some.inj hs]
    · exact .quiet ((Quiet.refl m).set_pc _)
    · exact .quiet ((Quiet.refl m).set_pc _)
    · exact .take_idle c pid h rest hpc hidle (((Quiet.refl _).set_state _).set_pc _)
    · exact .quiet ((Quiet.refl m).set_pc _)
    · exact .take_idle c pid h rest hpc hidle (((Quiet.refl _).set_state _).set_pc _)

theorem push_trap_effect {task : Option TaskPtr} {pc : Pc cfg} {why : Panic}
    (who : ∀ t, task = some t → m.pc c = .sync_push ∧ t = m.current_task c)
    (hs : (match m.push_trap c task with
      | none => some (m.set_pc c (.panicked why))
      | some m' => some (m'.set_pc c pc)) = some m') : Effect m a m' := by
  split at hs
  · rw [← Option.some.inj hs]
    exact .quiet ((Quiet.refl m).set_pc _)
  · rename_i m₁ hp
    rw [← Option.some.inj hs]
    exact .push_trap c task m₁ hp ((Quiet.refl m₁).set_pc _) who

theorem next_effect (hs : m.next c = some m') : Effect m (.next c) m' := by
  cases hpc : m.pc c with
  | run =>
    simp only [next, hpc, Option.map_eq_some_iff] at hs
    obtain ⟨st, h₀, rfl⟩ := hs
    exact .handler c st rfl hpc h₀ rfl
  | idle_handler pid => exact get_idle_handler_effect hpc hs
  | own | sched _ | no_handler _ | wait_check | wait_irqs | panicked _ => simp [next, hpc] at hs
  | sync_push =>
    simp only [next, hpc] at hs
    exact push_trap_effect (fun t ht => ⟨hpc, (Option.some.inj ht).symm⟩) hs
  | irq_push b =>
    simp only [next, hpc] at hs
    exact push_trap_effect (fun t ht => by simp at ht) hs
  | set_pid g pid =>
    simp only [next, hpc] at hs
    rw [← Option.some.inj hs]
    exact .set_pid c g pid hpc ((Quiet.refl _).set_pc _)
  | dealloc_prev =>
    simp only [next, hpc] at hs
    rw [← Option.some.inj hs]
    exact .dealloc c hpc rfl
  | push_prev =>
    simp only [next, hpc] at hs
    split at hs
    · rw [← Option.some.inj hs]
      exact .quiet ((Quiet.refl m).set_pc _)
    · rename_i m₁ hp
      rw [← Option.some.inj hs]
      exact .enqueue _ m₁ (.push_prev c rfl hpc rfl) hp ((Quiet.refl m₁).set_pc _)
  | popped t target =>
    cases target <;> simp only [next, hpc] at hs <;> rw [← Option.some.inj hs]
    · exact .quiet ((((Quiet.refl m).set_vspace _).set_current).set_pc _)
    · exact .quiet (((Quiet.refl m).set_current).set_pc _)
    · exact .quiet (((Quiet.refl m).set_current).set_pc _)
  | idle_push =>
    simp only [next, hpc] at hs
    split at hs <;> rw [← Option.some.inj hs]
    · exact .push_idle c hpc ((Quiet.refl _).set_pc _)
    · exact .quiet ((Quiet.refl m).set_pc _)
  | krun_utask =>
    simp only [next, hpc] at hs
    rw [← Option.some.inj hs]
    exact .quiet ((((Quiet.refl m).set_state _).set_in_kernel _).set_pc _)
  | idle_resched =>
    simp only [next, hpc] at hs
    rw [← Option.some.inj hs]
    exact .quiet ((Quiet.refl m).save_context _).phase2
  | irq_state | busy_wait _ _ | run_task | user_run_task =>
    simp only [next, hpc] at hs
    rw [← Option.some.inj hs]
    exact .quiet (((Quiet.refl m).set_state _).set_pc _)
  | wait_context =>
    simp only [next, hpc] at hs
    rw [← Option.some.inj hs]
    exact .quiet ((Quiet.refl m).set_current.set_pc _)
  | wait_sleeping | wait_clear =>
    simp only [next, hpc] at hs
    rw [← Option.some.inj hs]
    exact .quiet (((Quiet.refl m).set_sleeping _).set_pc _)

theorem step_effect (hs : m.step a = some m') : Effect m a m' := by
  cases a with
  | irq c => exact .quiet (irq_quiet hs)
  | trap c => exact .quiet (trap_quiet hs)
  | set_self c st =>
    simp only [step, set_self] at hs
    split at hs
    · rw [← Option.some.inj hs]
      exact .quiet (((Quiet.refl m).set_wait _ _).set_pc _)
    · cases hs
  | leave c b =>
    simp only [step, leave] at hs
    split at hs
    · rw [← Option.some.inj hs]
      exact .quiet ((Quiet.refl m).save_context _).phase2
    · cases hs
  | poll_ready c =>
    simp only [step, poll_ready] at hs
    split at hs
    · rw [← Option.some.inj hs]
      exact .quiet (((Quiet.refl m).set_wait _ _).set_pc _)
    · cases hs
  | arrive t task =>
    simp only [step, arrive] at hs
    split at hs
    · rename_i hnew
      obtain ⟨m₁, hp, rfl⟩ := Option.map_eq_some_iff.mp hs
      exact .arrive t task m₁ rfl hnew.1 hnew.2 hp rfl
    · cases hs
  | wake t =>
    rw [← Option.some.inj hs]
    exact .quiet (wake_quiet m t)
  | wake_push t => exact wake_push_effect hs
  | pop_ready c p l => exact .quiet (pop_ready_quiet hs)
  | take_trap c =>
    simp only [step, take_trap] at hs
    split at hs
    · split at hs
      · rw [← Option.some.inj hs]
        exact .quiet ((Quiet.refl m).set_pc _)
      · cases hs
    · cases hs
  | fail c p =>
    simp only [step, fail] at hs
    split at hs
    · split at hs
      · rw [← Option.some.inj hs]
        exact .quiet (((Quiet.refl m).set_vspace _).set_pc _)
      · cases hs
    · cases hs
  | into_kernel c p =>
    simp only [step, into_kernel] at hs
    split at hs
    · split at hs
      · cases hs
      · rw [← Option.some.inj hs]
        exact .quiet ((((Quiet.refl m).set_vspace _).set_in_kernel _).set_pc _)
    · cases hs
  | new_handler c g task => exact new_handler_effect hs
  | check c b =>
    simp only [step, check] at hs
    split at hs
    · rw [← Option.some.inj hs]
      exact .quiet ((Quiet.refl m).set_pc _)
    · cases hs
  | wait_return c =>
    simp only [step, wait_return] at hs
    split at hs
    · rw [← Option.some.inj hs]
      exact .quiet ((Quiet.refl m).set_pc _)
    · cases hs
  | handle_exits c =>
    simp only [step, handle_exits] at hs
    split at hs
    · rw [← Option.some.inj hs]
      exact .quiet ((Quiet.refl m).set_state _)
    · cases hs
  | next c => exact next_effect hs

/-! ### What the handlers leave alone -/

theorem handler_next_kept (m : Machine cfg) (c : Cpu cfg) (st : Stage) :
    (m.handler_next c st).known = m.known ∧
    (m.handler_next c st).scheduler_wait_context = m.scheduler_wait_context := by
  cases st with
  | top => simp only [handler_next]; split <;> exact ⟨rfl, rfl⟩
  | handled item =>
    simp only [handler_next]
    split
    · exact ⟨rfl, rfl⟩
    · split <;> exact ⟨rfl, rfl⟩
  | wake item t =>
    simp only [handler_next]
    split
    · exact ⟨rfl, rfl⟩
    · rename_i m₁ hp
      obtain ⟨l, -, -, rfl⟩ := push_task_eq_some hp
      exact ⟨rfl, rfl⟩
  | _ => exact ⟨rfl, rfl⟩

/-- A handler changes no stage but its own. -/
theorem handler_next_stage_of_ne {h : TaskPtr} (st : Stage) (hh : h ≠ m.current_task c) :
    (m.handler_next c st).stage h = m.stage h := by
  cases st with
  | top => simp only [handler_next]; split <;> simp [set_stage, set_pc, emit, hh]
  | handled item =>
    simp only [handler_next]
    split
    · simp [set_stage, hh]
    · split <;> simp [set_stage, set_pc, set_state, hh]
  | wake item t =>
    simp only [handler_next]
    split
    · rfl
    · rename_i m₁ hp
      obtain ⟨l, -, -, rfl⟩ := push_task_eq_some hp
      simp [set_stage, emit, set_ready, hh]
  | _ => simp [handler_next, set_stage, emit, set_vspace, hh]

/-- A handler changes no priority, no `is_kernel`, and no process but its own. -/
theorem handler_next_data (m : Machine cfg) (c : Cpu cfg) (st : Stage) (t : TaskPtr) :
    ((m.handler_next c st).tasks t).priority = (m.tasks t).priority ∧
    ((m.handler_next c st).tasks t).is_kernel = (m.tasks t).is_kernel ∧
    (t ≠ m.current_task c → ((m.handler_next c st).tasks t).pid = (m.tasks t).pid) := by
  have hpid : ∀ pid, ((m.tasks.set_pid (m.current_task c) pid) t).priority = (m.tasks t).priority ∧
      ((m.tasks.set_pid (m.current_task c) pid) t).is_kernel = (m.tasks t).is_kernel ∧
      (t ≠ m.current_task c → ((m.tasks.set_pid (m.current_task c) pid) t).pid = (m.tasks t).pid) := by
    intro pid
    rcases eq_or_ne t (m.current_task c) with rfl | h
    · simp [Tasks.set_pid]
    · simp [Tasks.set_pid_of_ne _ _ h]
  have hstate : ∀ u st', ((m.tasks.set_state u st') t).priority = (m.tasks t).priority ∧
      ((m.tasks.set_state u st') t).is_kernel = (m.tasks t).is_kernel ∧
      (t ≠ m.current_task c → ((m.tasks.set_state u st') t).pid = (m.tasks t).pid) := by
    intro u st'
    obtain ⟨h₁, h₂, h₃⟩ := m.tasks.set_state_data u t st'
    exact ⟨h₁, h₂, fun _ => h₃⟩
  cases st with
  | top =>
    simp only [handler_next]
    split
    · exact ⟨rfl, rfl, fun _ => rfl⟩
    · obtain ⟨h₁, h₂, h₃⟩ := (m.tasks.set_pid (m.current_task c) .kernel).set_state_data (m.current_task c) t .blocking
      obtain ⟨k₁, k₂, k₃⟩ := hpid .kernel
      exact ⟨h₁.trans k₁, h₂.trans k₂, fun h => h₃.trans (k₃ h)⟩
  | taken item => exact hpid _
  | handled item =>
    simp only [handler_next]
    split
    · exact ⟨rfl, rfl, fun _ => rfl⟩
    · split <;> exact hstate _ _
  | wake item u =>
    simp only [handler_next]
    split
    · exact ⟨rfl, rfl, fun _ => rfl⟩
    · rename_i m₁ hp
      obtain ⟨l, -, -, rfl⟩ := push_task_eq_some hp
      exact ⟨rfl, rfl, fun _ => rfl⟩
  | _ => exact ⟨rfl, rfl, fun _ => rfl⟩

theorem handler_next_idle (m : Machine cfg) (c : Cpu cfg) (st : Stage) :
    (m.handler_next c st).idle_handlers = m.idle_handlers := by
  cases st with
  | top => simp only [handler_next]; split <;> rfl
  | handled item =>
    simp only [handler_next]
    split
    · rfl
    · split <;> rfl
  | wake item t =>
    simp only [handler_next]
    split
    · rfl
    · rename_i m₁ hp
      obtain ⟨l, -, -, rfl⟩ := push_task_eq_some hp
      rfl
  | _ => rfl

/-- A handler puts only the task it wakes into a ready queue. -/
theorem handler_next_ready (m : Machine cfg) (c : Cpu cfg) (st : Stage) :
    (m.handler_next c st).ready = m.ready ∨ ∃ item t l, st = .wake item t ∧
      cfg.level (m.tasks t).priority = some l ∧
      (m.handler_next c st).ready = (m.set_ready (m.home t) l (m.ready (m.home t) l ++ [t])).ready := by
  cases st with
  | top => simp only [handler_next]; split <;> exact Or.inl rfl
  | handled item =>
    simp only [handler_next]
    split
    · exact Or.inl rfl
    · split <;> exact Or.inl rfl
  | wake item t =>
    simp only [handler_next]
    split
    · exact Or.inl rfl
    · rename_i m₁ hp
      obtain ⟨l, hl, -, rfl⟩ := push_task_eq_some hp
      exact Or.inr ⟨item, t, l, rfl, hl, rfl⟩
  | _ => exact Or.inl rfl

/-- A handler deallocates only the task that has exited. -/
theorem handler_next_admitted (m : Machine cfg) (c : Cpu cfg) (st : Stage) :
    (m.handler_next c st).entered = m.entered ∧
    ((m.handler_next c st).admitted = m.admitted ∨
      ∃ item t, st = .exited item t ∧ (m.handler_next c st).admitted = m.admitted.erase t) := by
  cases st with
  | top => simp only [handler_next]; split <;> exact ⟨rfl, Or.inl rfl⟩
  | handled item =>
    simp only [handler_next]
    split
    · exact ⟨rfl, Or.inl rfl⟩
    · split <;> exact ⟨rfl, Or.inl rfl⟩
  | wake item t =>
    simp only [handler_next]
    split
    · exact ⟨rfl, Or.inl rfl⟩
    · rename_i m₁ hp
      obtain ⟨l, hl, -, rfl⟩ := push_task_eq_some hp
      exact ⟨rfl, Or.inl rfl⟩
  | exited item t => exact ⟨rfl, Or.inr ⟨item, t, rfl, rfl⟩⟩
  | _ => exact ⟨rfl, Or.inl rfl⟩

/-- The stage of the acting handler is never taken away. -/
theorem handler_next_stage_isSome (st : Stage) {h : TaskPtr} (hst : m.stage h ≠ none) :
    (m.handler_next c st).stage h ≠ none := by
  rcases eq_or_ne h (m.current_task c) with rfl | hh
  · cases st with
    | top => simp only [handler_next]; split <;> simp [set_stage, set_pc, hst]
    | handled item =>
      simp only [handler_next]
      split
      · simp [set_stage]
      · split <;> simp [set_stage, set_pc, set_state, hst]
    | wake item t =>
      simp only [handler_next]
      split
      · simpa [set_pc] using hst
      · simp [set_stage]
    | _ => simp [handler_next, set_stage]
  · rwa [handler_next_stage_of_ne st hh]

/-! ### The tasks that exist and the stages of the handlers -/

/-- What a step does to them: a task arrives or a handler is created, or a handler makes an access. -/
inductive Staging (m : Machine cfg) (a : Act cfg) (m' : Machine cfg) : Prop where
  | same (hk : m'.known = m.known) (hst : m'.stage = m.stage)
  | arrive (t task) (ha : a = .arrive t task) (hnew : m.known t = false)
      (hk : m'.known = Function.update m.known t true) (hst : m'.stage = Function.update m.stage t none)
  | new_handler (c g task) (ha : a = .new_handler c g task) (hnew : m.known g = false)
      (hker : (m'.tasks g).is_kernel = true) (hk : m'.known = Function.update m.known g true)
      (hst : m'.stage = Function.update m.stage g (some .top))
  | advance (c st) (ha : a = .next c) (hpc : m.pc c = .run) (h₀ : m.stage (m.current_task c) = some st)
      (hm : m' = m.handler_next c st)

theorem step_staging (hs : m.step a = some m') : Staging m a m' := by
  cases step_effect hs with
  | enqueue t m₁ _ hp hq =>
    obtain ⟨l, -, -, rfl⟩ := push_task_eq_some hp
    exact .same hq.known hq.stage
  | push_trap c task m₁ hp hq =>
    obtain rfl := push_trap_eq_some hp
    exact .same hq.known hq.stage
  | arrive t task m₁ ha hnew _ hp hm =>
    obtain ⟨l, -, -, rfl⟩ := push_task_eq_some hp
    exact .arrive t task ha hnew (by rw [hm]; rfl) (by rw [hm]; rfl)
  | new_handler g task hnew hker hq who =>
    obtain ⟨c, ha⟩ := who
    have hker' : (m'.tasks g).is_kernel = true := by
      rw [(hq.data g).2.1]
      simpa [create] using hker
    exact .new_handler c g task ha hnew hker' hq.known hq.stage
  | handler c st ha hpc h₀ hm => exact .advance c st ha hpc h₀ hm
  | dealloc c _ hm => exact .same (by rw [hm]; rfl) (by rw [hm]; rfl)
  | quiet hq | take_idle c pid g rest _ _ hq | push_idle c _ hq | set_pid c g pid _ hq =>
    exact .same hq.known hq.stage

/-- The lasting data of a task that exists changes in one respect: a handler gets a pid on its way out
    of the pool, or by its own access. -/
theorem step_task_data {t : TaskPtr} (hs : m.step a = some m') (hk : m.known t = true) :
    (m'.tasks t).priority = (m.tasks t).priority ∧ (m'.tasks t).is_kernel = (m.tasks t).is_kernel ∧
    ((m'.tasks t).pid = (m.tasks t).pid ∨ (∃ c pid, m.pc c = .set_pid t pid) ∨
      ∃ c st, t = m.current_task c ∧ m.stage t = some st ∧ m' = m.handler_next c st) := by
  have hquiet : ∀ {m₁ : Machine cfg}, Quiet m₁ m' → m₁.tasks t = m.tasks t →
      (m'.tasks t).priority = (m.tasks t).priority ∧ (m'.tasks t).is_kernel = (m.tasks t).is_kernel ∧
      (m'.tasks t).pid = (m.tasks t).pid := fun hq heq => heq ▸ hq.data t
  have hcreate : ∀ u task stage, m.known u = false → (m.create u task stage).tasks t = m.tasks t := by
    intro u task stage hu
    have hne : t ≠ u := by
      rintro rfl
      simp [hk] at hu
    simp [create, hne]
  cases step_effect hs with
  | enqueue u m₁ _ hp hq =>
    obtain ⟨l, -, -, rfl⟩ := push_task_eq_some hp
    exact (hquiet hq rfl).imp_right fun h => h.imp_right Or.inl
  | push_trap c task m₁ hp hq =>
    obtain rfl := push_trap_eq_some hp
    exact (hquiet hq rfl).imp_right fun h => h.imp_right Or.inl
  | set_pid c g pid hpc hq =>
    rcases eq_or_ne t g with rfl | hne
    · exact ⟨(hq.data t).1.trans (by simp [Tasks.set_pid]), (hq.data t).2.1.trans (by simp [Tasks.set_pid]),
        Or.inr (Or.inl ⟨c, pid, hpc⟩)⟩
    · exact (hquiet hq (Tasks.set_pid_of_ne _ _ hne)).imp_right fun h => h.imp_right Or.inl
  | arrive u task m₁ _ hu _ hp hm =>
    obtain ⟨l, -, -, rfl⟩ := push_task_eq_some hp
    have hsame : m'.tasks t = m.tasks t := hm ▸ hcreate u task none hu
    rw [hsame]
    exact ⟨rfl, rfl, Or.inl rfl⟩
  | new_handler g task hg _ hq =>
    exact (hquiet hq (hcreate g task (some .top) hg)).imp_right fun h => h.imp_right Or.inl
  | handler c st _ hpc h₀ hm =>
    obtain ⟨h₁, h₂, h₃⟩ := handler_next_data m c st t
    subst hm
    by_cases ht : t = m.current_task c
    · exact ⟨h₁, h₂, Or.inr (Or.inr ⟨c, st, ht, ht ▸ h₀, rfl⟩)⟩
    · exact ⟨h₁, h₂, Or.inl (h₃ ht)⟩
  | dealloc c _ hm =>
    rw [hm]
    exact ⟨rfl, rfl, Or.inl rfl⟩
  | quiet hq | take_idle c pid g rest _ _ hq | push_idle c _ hq =>
    exact (hquiet hq rfl).imp_right fun h => h.imp_right Or.inl

theorem step_wait_context (hs : m.step a = some m') : m'.scheduler_wait_context = m.scheduler_wait_context := by
  cases step_effect hs with
  | enqueue t m₁ _ hp h =>
    obtain ⟨l, -, -, rfl⟩ := push_task_eq_some hp
    exact h.scheduler_wait_context
  | push_trap c task m₁ hp h =>
    obtain rfl := push_trap_eq_some hp
    exact h.scheduler_wait_context
  | arrive t task m₁ _ _ _ hp h =>
    obtain ⟨l, -, -, rfl⟩ := push_task_eq_some hp
    rw [h]
    rfl
  | handler c st _ _ _ h =>
    rw [h]
    exact (handler_next_kept m c st).2
  | dealloc c _ h =>
    rw [h]
    rfl
  | quiet h | take_idle c pid g rest _ _ h | push_idle c _ h | set_pid c g pid _ h | new_handler g task _ _ h =>
    exact h.scheduler_wait_context

end Machine

end Vsched2
