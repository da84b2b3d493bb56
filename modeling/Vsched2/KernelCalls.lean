import Vsched2.KernelRuns

/-! The functions around the schedule loop as runs of one CPU of the machine. -/

namespace Vsched2

variable {cfg : Config}

namespace Kernel

variable {k k' : Kernel cfg} {c : Cpu cfg} {t : TaskPtr}

theorem with_tasks_kept (k : Kernel cfg) (ts : Tasks cfg) : Kept k { k with tasks := ts } := .of_eq rfl rfl rfl

theorem set_state_kept (k : Kernel cfg) (t : TaskPtr) (st : TaskState) : Kept k (k.set_state t st) :=
  .of_eq rfl rfl rfl

theorem set_sleeping_kept (k : Kernel cfg) (c : Cpu cfg) (b : Bool) : Kept k (k.set_sleeping c b) :=
  .of_eq rfl rfl rfl

theorem save_context_kept (k : Kernel cfg) (t : TaskPtr) (b : Bool) : Kept k (k.save_context t b) :=
  .of_eq rfl rfl rfl

theorem put_prev_kept (h : k.put_prev c = some k') : Kept k k' := by
  simp only [put_prev] at h
  split at h
  · exact (set_state_kept k _ _).trans (push_prev_task_kept h)
  · exact (set_state_kept k _ _).trans (push_prev_task_kept h)
  · cases h
  · exact (set_state_kept k _ _).trans (push_prev_task_kept h)
  · exact (set_state_kept k _ _).trans (push_prev_task_kept h)

theorem trap_entry_sync_eq_some {info r : ℕ} (h : k.trap_entry_sync c info = some (r, k')) :
    r = 1 ∧ k.is_sleeping c = false ∧ (k.tasks (k.current_task c)).state = .running ∧
      (k.set_state (k.current_task c) .blocked).push_trap c ⟨info, some (k.current_task c)⟩ = some k' := by
  simp only [trap_entry_sync, push_prev_task, Option.bind_some] at h
  split at h
  · cases h
  · rename_i hs
    split at h
    · obtain ⟨k₁, hp, heq⟩ := Option.map_eq_some_iff.mp h
      obtain ⟨rfl, rfl⟩ := Prod.mk.inj heq
      exact ⟨rfl, by simpa using hs, ‹_›, hp⟩
    · cases h

theorem trap_entry_irq_eq_some {info r : ℕ} (h : k.trap_entry_irq c info = some (r, k')) :
    r = 1 ∧ ∃ k₁, (k.set_sleeping c false).push_trap c ⟨info, none⟩ = some k₁ ∧
      (k.is_sleeping c = true ∧ k' = k₁ ∨ k.is_sleeping c = false ∧
        (k₁.tasks (k.current_task c)).state = .running ∧
        (k₁.set_state (k.current_task c) .ready).push_prev_task c .ready = some k') := by
  simp only [trap_entry_irq] at h
  obtain ⟨k₁, hp, h⟩ := Option.bind_eq_some_iff.mp h
  split at h
  · obtain ⟨rfl, rfl⟩ := Prod.mk.inj (Option.some.inj h)
    exact ⟨rfl, k₁, hp, Or.inl ⟨‹_›, rfl⟩⟩
  · rename_i hs
    split at h
    · obtain ⟨k₂, hq, heq⟩ := Option.map_eq_some_iff.mp h
      obtain ⟨rfl, rfl⟩ := Prod.mk.inj heq
      exact ⟨rfl, k₁, hp, Or.inr ⟨by simpa using hs, ‹_›, hq⟩⟩
    · cases h

theorem trap_entry_sync_kept {info r : ℕ} (h : k.trap_entry_sync c info = some (r, k')) : Kept k k' := by
  obtain ⟨-, -, -, hp⟩ := trap_entry_sync_eq_some h
  exact (set_state_kept k _ _).trans (push_trap_kept hp)

theorem trap_entry_irq_kept {info r : ℕ} (h : k.trap_entry_irq c info = some (r, k')) : Kept k k' := by
  obtain ⟨-, k₁, hp, h⟩ := trap_entry_irq_eq_some h
  have hk₁ := (set_sleeping_kept k c false).trans (push_trap_kept hp)
  rcases h with ⟨-, rfl⟩ | ⟨-, -, hq⟩
  · exact hk₁
  · exact (hk₁.trans (set_state_kept _ _ _)).trans (push_prev_task_kept hq)

theorem run_task_kept (h : k.run_task c = some k') : Kept k k' := by
  simp only [run_task] at h
  split at h
  · obtain rfl := Option.some.inj h
    exact set_state_kept k _ _
  · cases h

/-- The trap that the handler takes was the first one. -/
theorem trap_handler_take_some {item : TrapItem} (h : k.trap_handler_take c = (some item, k')) :
    ∃ rest row, (k.schedulers .kernel).trap_wait_queue.queues c = item :: rest ∧
      k' = ({ k.put .kernel { k.schedulers .kernel with
        trap_wait_queue := { (k.schedulers .kernel).trap_wait_queue with
          queues := Function.update (k.schedulers .kernel).trap_wait_queue.queues c rest } } k.tasks row with
        tasks := k.tasks.set_pid (k.current_task c) (item.pid k.tasks) } : Kernel cfg).switch_vspace c
          (item.pid k.tasks) := by
  cases hq : (k.schedulers .kernel).trap_wait_queue.queues c with
  | nil => simp [trap_handler_take, Scheduler.trap_handler_pop, TrapWaitQueue.pop_trap, hq] at h
  | cons item' rest =>
    simp only [trap_handler_take, Scheduler.trap_handler_pop, TrapWaitQueue.pop_trap, hq, Prod.mk.injEq,
      Option.some.injEq] at h
    obtain ⟨rfl, rfl⟩ := h
    exact ⟨rest, _, rfl, rfl⟩

/-- Without a trap nothing happens. -/
theorem trap_handler_take_none (h : k.trap_handler_take c = (none, k')) :
    (k.schedulers .kernel).trap_wait_queue.queues c = [] ∧
      ∃ row, k' = k.put .kernel (k.schedulers .kernel) k.tasks row := by
  cases hq : (k.schedulers .kernel).trap_wait_queue.queues c with
  | nil =>
    simp only [trap_handler_take, Scheduler.trap_handler_pop, TrapWaitQueue.pop_trap, hq, Prod.mk.injEq,
      true_and] at h
    exact ⟨rfl, _, h.symm⟩
  | cons item' rest => simp [trap_handler_take, Scheduler.trap_handler_pop, TrapWaitQueue.pop_trap, hq] at h

theorem trap_handler_take_kept {item : Option TrapItem} (h : k.trap_handler_take c = (item, k')) : Kept k k' := by
  have hs : PriorityOrder.sched_step k .kernel (.trap_handler c) =
      some (k.put .kernel ((k.schedulers .kernel).trap_handler_pop c (k.row .kernel)).2.1 k.tasks
        ((k.schedulers .kernel).trap_handler_pop c (k.row .kernel)).2.2) := rfl
  refine (sched_step_kept (fun hp => absurd rfl hp) hs).trans ?_
  simp only [trap_handler_take] at h
  split at h
  · exact (Prod.mk.inj h).2 ▸ .refl _
  · rw [← (Prod.mk.inj h).2]
    exact (with_tasks_kept _ _).trans (switch_vspace_kept _ _ _)

theorem reschedule_handler_eq_some (h : k.reschedule_handler c = some k') :
    (k.schedulers .kernel).trap_wait_queue.idle_handlers.length < cfg.trap_wait_queue_size ∧
      k' = k.put .kernel { k.schedulers .kernel with
        trap_wait_queue := { (k.schedulers .kernel).trap_wait_queue with
          idle_handlers := (k.schedulers .kernel).trap_wait_queue.idle_handlers ++ [k.current_task c] } }
        ((k.tasks.set_pid (k.current_task c) .kernel).set_state (k.current_task c) .blocking) (k.row .kernel) := by
  simp only [reschedule_handler, TrapWaitQueue.reschedule_handler] at h
  split at h
  · exact ⟨‹_›, (Option.some.inj h).symm⟩
  · cases h

theorem reschedule_handler_kept (h : k.reschedule_handler c = some k') : Kept k k' := by
  obtain ⟨-, rfl⟩ := reschedule_handler_eq_some h
  exact put_idle_kept k _ _

theorem trap_handler_finish_kept {item : TrapItem} (h : k.trap_handler_finish c item = some k') : Kept k k' := by
  simp only [trap_handler_finish] at h
  split at h
  · obtain rfl := Option.some.inj h
    exact .refl k
  · split at h
    · split at h
      · exact (set_state_kept k _ _).trans (push_task_kept (put_back_eq_some h))
      · obtain ⟨p, -, h⟩ := Option.bind_eq_some_iff.mp h
        exact (set_state_kept k _ _).trans (push_task_kept (put_back_eq_some h))
    · obtain rfl := Option.some.inj h
      exact set_state_kept k _ _
    · cases h

end Kernel

namespace Machine

variable {k k' : Kernel cfg} {m m' m₁ : Machine cfg} {c : Cpu cfg} {t : TaskPtr} {ptr : Pid cfg → Option (Pid cfg)}

/-- The user tasks that exist belong to processes whose slots point to their schedulers. -/
def Homes (ptr : Pid cfg → Option (Pid cfg)) (m : Machine cfg) : Prop :=
  ∀ t, m.known t = true → (m.tasks t).is_kernel = false → ptr (m.tasks t).pid = some (m.tasks t).pid

theorem Homes.congr {n : Machine cfg} (h : m.Homes ptr) (hk : n.known = m.known)
    (heq : ∀ t, (n.tasks t).is_kernel = (m.tasks t).is_kernel ∧
      ((m.tasks t).is_kernel = false → (n.tasks t).pid = (m.tasks t).pid)) : n.Homes ptr := by
  intro t ht hu
  rw [hk] at ht
  rw [(heq t).1] at hu
  rw [(heq t).2 hu]
  exact h t ht hu

theorem Homes.set_state (h : m.Homes ptr) (t : TaskPtr) (st : TaskState) : (m.set_state t st).Homes ptr := by
  refine h.congr rfl fun u => ?_
  rcases eq_or_ne u t with rfl | hne
  · simp [Machine.set_state, Tasks.set_state]
  · simp [Machine.set_state, Tasks.set_state, hne]

theorem Homes.save_context (h : m.Homes ptr) (t : TaskPtr) (b : Bool) : (m.save_context t b).Homes ptr := by
  refine h.congr rfl fun u => ?_
  rcases eq_or_ne u t with rfl | hne
  · simp [Machine.save_context]
  · simp [Machine.save_context, hne]

theorem Homes.create (h : m.Homes ptr) {t : TaskPtr} {task : Task cfg}
    (hptr : task.is_kernel = false → ptr task.pid = some task.pid) (stage : Option Stage) :
    (m.create t task stage).Homes ptr := by
  intro u hu hker
  rcases eq_or_ne u t with rfl | hne
  · simp only [Machine.create, Function.update_self] at hker ⊢
    exact hptr hker
  · simp only [Machine.create, Function.update_of_ne hne] at hu hker ⊢
    exact h u hu hker

/-- The scheduler the kernel finds for a task is the one of its home. -/
theorem Homes.target (h : m.Homes k.pointer) (hA : Agrees k m) (hk : m.known t = true) :
    (if (k.tasks t).is_kernel then .kernel else (k.scheduler_ptr t).getD .kernel) = m.home t := by
  rw [← hA.tasks t hk, home]
  cases hker : (m.tasks t).is_kernel with
  | true => rfl
  | false =>
    have hptr : k.scheduler_ptr t = some (m.tasks t).pid := by
      rw [Kernel.scheduler_ptr, ← hA.tasks t hk]
      exact h t hk hker
    simp [hptr]

/-! ### Leaving a CPU -/

/-- `push_prev_task` in the state Ready. -/
theorem leads_push_prev (hA : Agrees k m) (hpc : m.pc c = .push_prev) (hk : m.known (m.current_task c) = true)
    (hH : m.Homes k.pointer) (h : k.push_prev_task c .ready = some k') :
    ∃ m', Leads c m m' ∧ m'.pc c = .sched false ∧ SameGhost m m' ∧ Agrees k' m' := by
  simp only [Kernel.push_prev_task, ← hA.current_task, hH.target hA hk] at h
  obtain ⟨l, q, hp, hA'⟩ := hA.push_task hk (Kernel.put_back_eq_some h)
  have h1 : m.step (.next c) = some ((m.set_ready (m.home (m.current_task c)) l q).set_pc c (.sched false)) := by
    simp only [step, next, hpc, hp]
  exact ⟨_, .of_step h1 rfl, by simp [set_pc], ((SameGhost.refl m).set_ready _ _ _).set_pc _, hA'.set_pc _⟩

/-- A task that leaves without having set its state waits for a waker. -/
def waits_after (m : Machine cfg) (c : Cpu cfg) : TaskPtr → Bool :=
  if (m.tasks (m.current_task c)).state = .running then Function.update m.waits (m.current_task c) true else m.waits

/-- The state map of `thread_entry_phase2` and what follows it. -/
theorem leads_phase2 (hA : Agrees k m) (hk : m.known (m.current_task c) = true) (hH : m.Homes k.pointer)
    (h : k.put_prev c = some k') :
    ∃ m', Leads c (m.phase2 c) m' ∧ m'.pc c = .sched false ∧ SameGhost { m with waits := m.waits_after c } m' ∧
      Agrees k' m' := by
  simp only [Kernel.put_prev, ← hA.current_task, ← hA.tasks _ hk] at h
  have hA₁ := hA.set_state hk (m.tasks (m.current_task c)).state.leave
  cases hst : (m.tasks (m.current_task c)).state with
  | ready =>
    simp only [hst] at h hA₁
    have hw : m.waits_after c = m.waits := by simp [waits_after, hst]
    have hphase : m.phase2 c = (m.set_state (m.current_task c) TaskState.ready.leave).set_pc c .push_prev := by
      simp [phase2, hst]
    rw [hphase, hw]
    obtain ⟨m', hl, hpc, hg, hA'⟩ := leads_push_prev (hA₁.set_pc (c := c) .push_prev) (by simp [set_pc]) hk
      ((hH.set_state _ _).congr rfl fun _ => ⟨rfl, fun _ => rfl⟩) h
    exact ⟨m', hl, hpc, (((SameGhost.refl m).set_state _).set_pc _).trans hg, hA'⟩
  | running =>
    simp only [hst] at h hA₁
    obtain rfl : _ = k' := Option.some.inj h
    have hw : m.waits_after c = Function.update m.waits (m.current_task c) true := by simp [waits_after, hst]
    have hphase : m.phase2 c =
        (m.set_wait (m.current_task c) TaskState.running.leave true).set_pc c (.sched false) := by
      simp [phase2, hst]
    rw [hphase, hw]
    exact ⟨_, .refl _, by simp [set_pc], ⟨rfl, rfl, rfl, rfl, rfl⟩, (hA.set_wait hk _ true).set_pc _⟩
  | blocked =>
    simp only [hst, reduceCtorEq] at h
  | exited =>
    simp only [hst] at h hA₁
    obtain rfl : _ = k' := Option.some.inj h
    have hw : m.waits_after c = m.waits := by simp [waits_after, hst]
    have hphase : m.phase2 c = (m.set_state (m.current_task c) TaskState.exited.leave).set_pc c .dealloc_prev := by
      simp [phase2, hst]
    rw [hphase, hw]
    obtain ⟨m₁, hm₁⟩ : ∃ m₁, m₁ = (m.set_state (m.current_task c) TaskState.exited.leave).set_pc c .dealloc_prev :=
      ⟨_, rfl⟩
    have hpc₁ : m₁.pc c = .dealloc_prev := by simp [hm₁, set_pc]
    have h1 : m₁.step (.next c) =
        some ({ m₁ with admitted := m₁.admitted.erase (m₁.current_task c) }.set_pc c (.sched false)) := by
      simp only [step, next, hpc₁]
    have hA₂ : Agrees (k.set_state (m.current_task c) TaskState.exited.leave) m₁ := hm₁ ▸ hA₁.set_pc _
    rw [← hm₁]
    refine ⟨_, .of_step h1 rfl, by simp [set_pc], ?_, (hA₂.congr ⟨rfl, rfl, rfl, rfl, rfl, rfl, rfl, rfl, rfl, rfl⟩)⟩
    rw [hm₁]
    exact ⟨rfl, rfl, rfl, rfl, rfl⟩
  | blocking =>
    simp only [hst] at h hA₁
    obtain rfl : _ = k' := Option.some.inj h
    have hw : m.waits_after c = m.waits := by simp [waits_after, hst]
    have hphase : m.phase2 c = (m.set_state (m.current_task c) TaskState.blocking.leave).set_pc c (.sched false) := by
      simp [phase2, hst]
    rw [hphase, hw]
    exact ⟨_, .refl _, by simp [set_pc], ((SameGhost.refl m).set_state _).set_pc _, hA₁.set_pc _⟩

/-! ### `trap_entry` -/

/-- `trap_entry(0, 0)` in task code. -/
theorem leads_trap_entry_sync (hA : Agrees k m) (hcode : m.in_code c = true) (hk : m.known (m.current_task c) = true)
    {r : ℕ} (h : ((k.save_context (m.current_task c) false).set_in_kernel c true).trap_entry_sync c m.next_info =
      some (r, k')) :
    r = 1 ∧ ∃ m', Leads c m m' ∧ m'.pc c = .sched false ∧ SameGhost { m with next_info := m.next_info + 1 } m' ∧
      Agrees k' m' := by
  obtain ⟨m₀, hm₀⟩ : ∃ m₀, m₀ = (m.save_context (m.current_task c) false).set_in_kernel c true := ⟨_, rfl⟩
  have hA₀ : Agrees ((k.save_context (m.current_task c) false).set_in_kernel c true) m₀ :=
    hm₀ ▸ (hA.save_context hk false).set_in_kernel true
  have hcur₀ : m₀.current_task = m.current_task := by rw [hm₀]; rfl
  have hk₀ : m₀.known (m.current_task c) = true := by rw [hm₀]; exact hk
  obtain ⟨rfl, hs, hst, hp⟩ := Kernel.trap_entry_sync_eq_some h
  rw [← hA₀.is_sleeping] at hs
  rw [← hA₀.current_task, hcur₀] at hst hp
  rw [← hA₀.tasks _ hk₀] at hst
  have hs' : m.is_sleeping c = false := by rwa [hm₀] at hs
  have hst' : (m.tasks (m.current_task c)).state = .running := by
    rw [hm₀] at hst
    simpa [set_in_kernel, save_context] using hst
  obtain ⟨m₁, hm₁⟩ : ∃ m₁, m₁ = (m₀.set_state (m.current_task c) .blocked).set_pc c .sync_push := ⟨_, rfl⟩
  have h1 : m.step (.trap c) = some m₁ := by
    simp only [step, trap, hcode, if_true, hs', Bool.false_eq_true, if_false, hst', ← hm₀, hm₁]
  have hA₁ : Agrees (((k.save_context (m.current_task c) false).set_in_kernel c true).set_state
      (m.current_task c) .blocked) m₁ := hm₁ ▸ (hA₀.set_state hk₀ .blocked).set_pc _
  have hinfo : m₁.next_info = m.next_info := by rw [hm₁, hm₀]; rfl
  have hcur₁ : m₁.current_task c = m.current_task c := by rw [hm₁, hm₀]; rfl
  have hpc₁ : m₁.pc c = .sync_push := by simp [hm₁, set_pc]
  rw [← hinfo] at hp
  obtain ⟨m₂, hp₂, hA₂⟩ := hA₁.push_trap hp
  have h2 : m₁.step (.next c) = some (m₂.set_pc c (.sched false)) := by
    simp only [step, next, hpc₁, hcur₁, hp₂]
  refine ⟨rfl, _, (Leads.of_step h1 rfl).step h2 rfl, by simp [set_pc], ?_, hA₂.set_pc _⟩
  obtain rfl := push_trap_eq_some hp₂
  rw [hm₁, hm₀]
  exact ⟨rfl, rfl, rfl, rfl, rfl⟩

/-- `trap_entry(1, 0)` from the swap of IS_SLEEPING on. -/
theorem leads_trap_entry_irq (hA : Agrees (k.set_sleeping c false) m) (hpc : m.pc c = .irq_push (k.is_sleeping c))
    (hk : k.is_sleeping c = false → m.known (m.current_task c) = true) (hH : m.Homes k.pointer) {r : ℕ}
    (h : k.trap_entry_irq c m.next_info = some (r, k')) :
    r = 1 ∧ ∃ m', Leads c m m' ∧ m'.pc c = .sched false ∧ SameGhost { m with next_info := m.next_info + 1 } m' ∧
      Agrees k' m' := by
  obtain ⟨rfl, k₁, hp, h⟩ := Kernel.trap_entry_irq_eq_some h
  obtain ⟨m₁, hp₁, hA₁⟩ := hA.push_trap hp
  have hptr : k₁.pointer = k.pointer := (Kernel.push_trap_kept hp).pointer
  have h1 : m.step (.next c) = some (m₁.set_pc c (if k.is_sleeping c then .sched false else .irq_state)) := by
    simp only [step, next, hpc, hp₁]
  obtain rfl := push_trap_eq_some hp₁
  rcases h with ⟨hs, rfl⟩ | ⟨hs, hst, hq⟩
  · rw [hs, if_pos rfl] at h1
    exact ⟨rfl, _, .of_step h1 rfl, by simp [set_pc], ⟨rfl, rfl, rfl, rfl, rfl⟩, hA₁.set_pc _⟩
  · rw [hs, if_neg Bool.false_ne_true] at h1
    have hcur : k.current_task = m.current_task := hA.current_task.symm
    rw [hcur] at hst hq
    have hA₂ := hA₁.set_pc (c := c) .irq_state
    obtain ⟨m₂, hm₂⟩ : ∃ m₂, m₂ = set_pc { m with
        traps := Function.update m.traps c (m.traps c ++ [⟨m.next_info, none⟩])
        next_info := m.next_info + 1
        log := m.log ++ [.push_trap c ⟨m.next_info, none⟩] } c .irq_state := ⟨_, rfl⟩
    rw [← hm₂] at h1 hA₂
    have hpc₂ : m₂.pc c = .irq_state := by simp [hm₂, set_pc]
    have hcur₂ : m₂.current_task c = m.current_task c := by rw [hm₂]; rfl
    have hk₂ : m₂.known (m.current_task c) = true := by
      rw [hm₂]
      exact hk hs
    have hst₂ : (m₂.tasks (m.current_task c)).state = .running := by rw [hA₂.tasks _ hk₂, hst]
    have h2 : m₂.step (.next c) = some ((m₂.set_state (m.current_task c) .ready).set_pc c .push_prev) := by
      simp only [step, next, hpc₂, hcur₂, hst₂, if_true]
    have hH₂ : m₂.Homes k.pointer := hm₂ ▸ hH.congr rfl fun _ => ⟨rfl, fun _ => rfl⟩
    rw [← hptr] at hH₂
    obtain ⟨m', hl, hpc', hg, hA'⟩ := leads_push_prev ((hA₂.set_state hk₂ .ready).set_pc (c := c) .push_prev)
      (by simp [set_pc]) (by rw [← hcur₂] at hk₂; exact hk₂)
      ((hH₂.set_state (m.current_task c) .ready).congr (n := set_pc _ c .push_prev) rfl fun _ => ⟨rfl, fun _ => rfl⟩) hq
    refine ⟨rfl, m', ((Leads.of_step h1 rfl).step h2 rfl).trans hl, hpc', .trans ?_ hg, hA'⟩
    rw [hm₂]
    exact ⟨rfl, rfl, rfl, rfl, rfl⟩

/-! ### `run_task` and `krun_utask` -/

theorem leads_run (hA : Agrees k m) (hpc : m.pc c = .run_task ∨ m.pc c = .user_run_task)
    (hk : m.known (m.current_task c) = true) (h : k.run_task c = some k') :
    ∃ m', Leads c m m' ∧ m'.pc c = .run ∧ SameGhost m m' ∧ Agrees k' m' := by
  simp only [Kernel.run_task, ← hA.current_task, ← hA.tasks _ hk] at h
  split at h
  · rename_i hst
    obtain rfl := Option.some.inj h
    have h1 : m.step (.next c) = some ((m.set_state (m.current_task c) .running).set_pc c .run) := by
      have hcur : m.run_current c = (m.set_state (m.current_task c) .running).set_pc c .run := by
        simp only [run_current, hst, if_true]
      rcases hpc with hpc | hpc <;> simp only [step, next, hpc, hcur]
    exact ⟨_, .of_step h1 rfl, by simp [set_pc], ((SameGhost.refl m).set_state _).set_pc _,
      (hA.set_state hk .running).set_pc _⟩
  · cases h

theorem leads_krun (hA : Agrees k m) (hpc : m.pc c = .krun_utask) (hk : m.known (m.current_task c) = true) :
    ∃ m', Leads c m m' ∧ m'.pc c = (if (k.krun_utask c).1 then .user_run_task else .run) ∧ SameGhost m m' ∧
      Agrees (k.krun_utask c).2 m' := by
  have h1 : m.step (.next c) = some (((m.set_state (m.current_task c) .running).set_in_kernel c false).set_pc c
      (if (m.tasks (m.current_task c)).is_coroutine then .user_run_task else .run)) := by
    simp only [step, next, hpc]
  simp only [Kernel.krun_utask, ← hA.current_task, ← hA.tasks _ hk]
  exact ⟨_, .of_step h1 rfl, by simp [set_pc], (((SameGhost.refl m).set_state _).set_in_kernel _).set_pc _,
    ((hA.set_state hk .running).set_in_kernel false).set_pc _⟩

/-! ### `trap_handler` -/

/-- The CPU `c` runs the handler `h`, and its steps have brought it to a stage. -/
structure Handling (c : Cpu cfg) (h : TaskPtr) (st : Stage) (m m' : Machine cfg) : Prop where
  leads : Leads c m m'
  pc : m'.pc c = .run
  current : m'.current_task c = h
  ghost : SameGhost { m with stage := Function.update m.stage h (some st) } m'

variable {h : TaskPtr} {st : Stage}

theorem Handling.start (hpc : m.pc c = .run) (hst : m.stage (m.current_task c) = some st) :
    Handling c (m.current_task c) st m m :=
  ⟨.refl m, hpc, rfl, ⟨rfl, rfl, rfl, by simp [← hst], rfl⟩⟩

theorem Handling.leads_next (H : Handling c h st m m₁) : m₁.step (.next c) = some (m₁.handler_next c st) := by
  have hst : m₁.stage h = some st := by simp [H.ghost.stage]
  simp [step, next, H.pc, H.current, hst]

/-- The handler advances by an access that leaves the ghost state alone. -/
theorem Handling.next {n : Machine cfg} {r : Stage} (H : Handling c h st m m₁)
    (heq : m₁.handler_next c st = n.set_stage h r) (hpc : n.pc c = m₁.pc c)
    (hcur : n.current_task c = m₁.current_task c) (hg : SameGhost m₁ n) :
    Handling c h r m (n.set_stage h r) := by
  have hg' := H.ghost.trans hg
  refine ⟨H.leads.step (H.leads_next.trans (congrArg some heq)) rfl, hpc.trans H.pc, hcur.trans H.current,
    hg'.known, hg'.waits, hg'.waking, ?_, hg'.next_info⟩
  simp [set_stage, hg'.stage]

/-- The removal of a trap, and the accesses before `handle`. -/
theorem leads_trap_handler_take (hI : Inv m) (hA : Agrees k m) (hpc : m.pc c = .run)
    (hst : m.stage (m.current_task c) = some .top) (hk : m.known (m.current_task c) = true) {item : TrapItem}
    (htake : k.trap_handler_take c = (some item, k')) :
    ∃ m', Handling c (m.current_task c) (.handle item) m m' ∧ Agrees k' m' := by
  obtain ⟨rest, row, hq, rfl⟩ := Kernel.trap_handler_take_some htake
  have hqm : m.traps c = item :: rest := by rw [hA.traps, hq]
  have H₁ := (Handling.start hpc hst).next (n := { m with traps := Function.update m.traps c rest }.emit
    (.pop_trap c (m.current_task c) item.info)) (r := .taken item) (by simp only [handler_next, hqm]) rfl rfl
    ⟨rfl, rfl, rfl, rfl, rfl⟩
  obtain ⟨m₁, hm₁⟩ : ∃ m₁, m₁ = ({ m with traps := Function.update m.traps c rest }.emit
    (.pop_trap c (m.current_task c) item.info)).set_stage (m.current_task c) (.taken item) := ⟨_, rfl⟩
  rw [← hm₁] at H₁
  have htasks₁ : m₁.tasks = m.tasks := by rw [hm₁]; rfl
  have hcur₁ : m₁.current_task c = m.current_task c := H₁.current
  have H₂ := H₁.next (n := (({ m₁ with tasks := m₁.tasks.set_pid (m.current_task c) (item.pid m.tasks) }.set_vspace
    c (item.pid m.tasks)).emit (.handle (m.current_task c) item.info))) (r := .handle item)
    (by simp only [handler_next, hcur₁, htasks₁]) rfl rfl ⟨rfl, rfl, rfl, rfl, rfl⟩
  refine ⟨_, H₂, ?_⟩
  have hA₁ := (hA.put_traps { (k.schedulers .kernel).trap_wait_queue with
    queues := Function.update (k.schedulers .kernel).trap_wait_queue.queues c rest } hA.tasks row).congr
    (n := m₁) (by
      rw [hm₁]
      exact ⟨rfl, rfl, rfl, by simp [emit, set_stage, hA.traps], hA.idle_handlers, rfl, rfl, rfl, rfl, rfl⟩)
  have hk₁ : m₁.known (m.current_task c) = true := by rw [hm₁]; exact hk
  rw [← hA.current_task, ← hI.item_pid hA (hqm ▸ List.mem_cons_self : item ∈ m.traps c)]
  exact (((hA₁.set_pid hk₁ (item.pid m.tasks)).switch_vspace _).emit _).set_stage _

/-- The accesses of `reschedule_handler` up to its `resched`: the handler is `Blocking` and back in the pool. -/
theorem leads_idle_push {k₁ k₂ : Kernel cfg} (hA : Agrees k m) (hpc : m.pc c = .run)
    (hst : m.stage (m.current_task c) = some .top) (hH : m.Homes k.pointer)
    (hker : (m.tasks (m.current_task c)).is_kernel = true) (htake : k.trap_handler_take c = (none, k₁))
    (hresched : k₁.reschedule_handler c = some k₂) :
    ∃ m₂, Leads c m m₂ ∧ m₂.pc c = .idle_resched ∧ m₂.current_task c = m.current_task c ∧
      (m₂.tasks (m.current_task c)).state = .blocking ∧ SameGhost m m₂ ∧ m₂.Homes k.pointer ∧ Agrees k₂ m₂ := by
  obtain ⟨hq, row, rfl⟩ := Kernel.trap_handler_take_none htake
  obtain ⟨hroom, rfl⟩ := Kernel.reschedule_handler_eq_some hresched
  rw [Kernel.schedulers_put_self] at hroom
  obtain ⟨t, ht⟩ : ∃ t, t = m.current_task c := ⟨_, rfl⟩
  have hkcur : (k.put .kernel (k.schedulers .kernel) k.tasks row).current_task c = t := by
    rw [ht, hA.current_task]
    rfl
  rw [hkcur, Kernel.schedulers_put_self, Kernel.row_put_self, ← ht]
  obtain ⟨m₁, hm₁⟩ : ∃ m₁, m₁ =
      { m with tasks := (m.tasks.set_pid t .kernel).set_state t .blocking }.set_pc c .idle_push :=
    ⟨_, rfl⟩
  have hpc₁ : m₁.pc c = .idle_push := by simp [hm₁, set_pc]
  have hcur₁ : m₁.current_task c = t := by rw [hm₁, ht]; rfl
  have h1 : m.step (.next c) = some m₁ := by
    have hqm : m.traps c = [] := by rw [hA.traps, hq]
    simp only [step, next, hpc, hst, Option.map_some, handler_next, hqm, hm₁, ht]
  obtain ⟨m₂, hm₂⟩ : ∃ m₂, m₂ = { m₁ with idle_handlers := m₁.idle_handlers ++ [t] }.set_pc c .idle_resched := ⟨_, rfl⟩
  have h2 : m₁.step (.next c) = some m₂ := by
    have hroom₁ : m₁.idle_handlers.length < cfg.trap_wait_queue_size := by
      rw [hm₁]
      exact hA.idle_handlers ▸ hroom
    simp only [step, next, hpc₁, hroom₁, if_true, hcur₁, hm₂]
  have hts : ∀ u, m.known u = true → (m.tasks.set_pid t .kernel).set_state t .blocking u =
      (k.tasks.set_pid t .kernel).set_state t .blocking u := by
    intro u hu
    rcases eq_or_ne u t with rfl | hne
    · simp [Tasks.set_pid, Tasks.set_state, hA.tasks u hu]
    · simp [Tasks.set_pid, Tasks.set_state, hne, hA.tasks u hu]
  have hA₂ := ((hA.put_same .kernel row).put_traps { (k.schedulers .kernel).trap_wait_queue with
    idle_handlers := (k.schedulers .kernel).trap_wait_queue.idle_handlers ++ [t] } hts row).congr (n := m₂) (by
      rw [hm₂, hm₁]
      refine ⟨rfl, rfl, rfl, hA.traps, ?_, rfl, rfl, rfl, rfl, rfl⟩
      simp [set_pc, hA.idle_handlers])
  rw [Kernel.schedulers_put_self] at hA₂
  refine ⟨m₂, (Leads.of_step h1 rfl).step h2 rfl, by simp [hm₂, set_pc], by rw [hm₂]; exact hcur₁, ?_, ?_, ?_, hA₂⟩
  · rw [hm₂, hm₁]
    simp [set_pc]
  · rw [hm₂, hm₁]
    exact ⟨rfl, rfl, rfl, rfl, rfl⟩
  · refine hH.congr (by rw [hm₂, hm₁]; rfl) fun u => ?_
    rw [hm₂, hm₁]
    rcases eq_or_ne u t with rfl | hne
    · rw [← ht] at hker
      simp [set_pc, Tasks.set_pid, Tasks.set_state, hker]
    · simp [set_pc, Tasks.set_pid, Tasks.set_state, hne]

/-- `reschedule_handler` when there is no trap. -/
theorem leads_reschedule_handler {k₁ k₂ : Kernel cfg} (hA : Agrees k m) (hpc : m.pc c = .run)
    (hst : m.stage (m.current_task c) = some .top) (hk : m.known (m.current_task c) = true) (hH : m.Homes k.pointer)
    (hker : (m.tasks (m.current_task c)).is_kernel = true) (htake : k.trap_handler_take c = (none, k₁))
    (hresched : k₁.reschedule_handler c = some k₂)
    (hput : (k₂.save_context (m.current_task c) false).put_prev c = some k') :
    ∃ m', Leads c m m' ∧ m'.pc c = .sched false ∧ SameGhost m m' ∧ Agrees k' m' := by
  have hptr := (Kernel.trap_handler_take_kept htake).pointer
  have hptr₂ := (Kernel.reschedule_handler_kept hresched).pointer
  obtain ⟨m₂, hl₂, hpc₂, hcur₂, hblocking, hg₂, hH₂, hA₂⟩ := leads_idle_push hA hpc hst hH hker htake hresched
  obtain ⟨t, ht⟩ : ∃ t, t = m.current_task c := ⟨_, rfl⟩
  rw [← ht] at hput hk hcur₂ hblocking
  rw [← hptr, ← hptr₂] at hH₂
  have hk₂ : m₂.known t = true := by
    rw [hg₂.known]
    exact hk
  have h3 : m₂.step (.next c) = some ((m₂.save_context t false).phase2 c) := by
    simp only [step, next, hpc₂, hcur₂]
  -- it blocks itself, so it waits for no waker
  have hw : (m₂.save_context t false).waits_after c = m.waits := by
    have hst₂ : ((m₂.save_context t false).tasks t).state = .blocking := by simp [save_context, hblocking]
    have hcur₃ : (m₂.save_context t false).current_task c = t := hcur₂
    rw [waits_after, hcur₃, hst₂, if_neg (by decide)]
    exact hg₂.waits
  obtain ⟨m', hl, hpc', hg, hA'⟩ := leads_phase2 (hA₂.save_context hk₂ false)
    (by rw [← hcur₂] at hk₂; exact hk₂) (hH₂.save_context t false) hput
  rw [hw] at hg
  refine ⟨m', (hl₂.step h3 rfl).trans hl, hpc', .trans ?_ hg, hA'⟩
  exact ⟨hg₂.known, rfl, hg₂.waking, hg₂.stage, hg₂.next_info⟩

/-- The end of a round of the handler's loop. -/
theorem Handling.dealloc {item : TrapItem} (H : Handling c h (.dealloc item) m m₁) (hA : Agrees k m₁) :
    ∃ m', Handling c h .top m m' ∧ Agrees k m' := by
  have hcur := H.current
  exact ⟨_, H.next (n := m₁.emit (.dealloc h item.info)) (r := .top) (by simp only [handler_next, hcur]) rfl rfl
    ⟨rfl, rfl, rfl, rfl, rfl⟩, (hA.emit _).set_stage _⟩

/-- The wake-up of the trapped task. -/
theorem Handling.wake {item : TrapItem} (H : Handling c h (.wake item t) m m₁) (hA : Agrees k m₁)
    (hk : m₁.known t = true) (hH : m₁.Homes k.pointer)
    (hput : (if (k.tasks t).is_kernel then k.put_back c .kernel t
      else (k.scheduler_ptr t).bind fun p => k.put_back c p t) = some k') :
    ∃ m', Handling c h (.dealloc item) m m' ∧ Agrees k' m' := by
  have hback : k.put_back c (m₁.home t) t = some k' := by
    rw [← hH.target hA hk]
    cases hker : (k.tasks t).is_kernel with
    | true => simpa [hker] using hput
    | false =>
      simp only [hker, Bool.false_eq_true, if_false] at hput ⊢
      obtain ⟨p, hp, hput⟩ := Option.bind_eq_some_iff.mp hput
      simpa [hp] using hput
  obtain ⟨l, q, hp, hA'⟩ := hA.push_task hk (Kernel.put_back_eq_some hback)
  have hcur := H.current
  exact ⟨_, H.next (n := (m₁.set_ready (m₁.home t) l q).emit (.push_task h item.info t)) (r := .dealloc item)
    (by simp only [handler_next, hp, hcur]) rfl rfl ⟨rfl, rfl, rfl, rfl, rfl⟩, (hA'.emit _).set_stage _⟩

/-- The end of a trapped task that has exited. -/
theorem Handling.exited {item : TrapItem} (H : Handling c h (.exited item t) m m₁) (hA : Agrees k m₁) :
    ∃ m', Handling c h (.dealloc item) m m' ∧ Agrees k m' := by
  have hcur := H.current
  have hA' : Agrees k ({ m₁ with admitted := m₁.admitted.erase t }.emit (.dealloc_task h item.info t)) :=
    hA.congr ⟨rfl, rfl, rfl, rfl, rfl, rfl, rfl, rfl, rfl, rfl⟩
  exact ⟨_, H.next (n := { m₁ with admitted := m₁.admitted.erase t }.emit (.dealloc_task h item.info t))
    (r := .dealloc item) (by simp only [handler_next, hcur]) rfl rfl ⟨rfl, rfl, rfl, rfl, rfl⟩, hA'.set_stage _⟩

/-- From the return of `handle` to the top of the loop. -/
theorem leads_handle_returns (hI : Inv m) (hA : Agrees k m) (hpc : m.pc c = .run) {item : TrapItem}
    (hst : m.stage (m.current_task c) = some (.handle item)) (hH : m.Homes k.pointer)
    (hfinish : k.trap_handler_finish c item = some k') :
    ∃ m', Handling c (m.current_task c) .top m m' ∧ Agrees k' m' := by
  obtain ⟨m₁, hm₁⟩ : ∃ m₁, m₁ = (m.emit (.returned (m.current_task c) item.info
    (item.task.map fun t => (m.tasks t).state))).set_stage (m.current_task c) (.handled item) := ⟨_, rfl⟩
  have H₁ : Handling c (m.current_task c) (.handled item) m m₁ := by
    rw [hm₁]
    exact (Handling.start hpc hst).next rfl rfl rfl ⟨rfl, rfl, rfl, rfl, rfl⟩
  have hA₁ : Agrees k m₁ := hm₁ ▸ (hA.emit _).set_stage _
  have hcur₁ := H₁.current
  simp only [Kernel.trap_handler_finish] at hfinish
  cases htask : item.task with
  | none =>
    simp only [htask, Option.some.injEq] at hfinish
    subst hfinish
    exact (H₁.next (n := m₁) (r := .dealloc item) (by simp only [handler_next, htask, hcur₁]) rfl rfl
      (.refl m₁)).dealloc (hA₁.set_stage _)
  | some t =>
    have hk : m.known t = true := hI.known_of_at (P := .hand (m.current_task c)) ⟨_, hst, htask⟩
    have hk₁ : m₁.known t = true := by rw [hm₁]; exact hk
    have hH₁ : m₁.Homes k.pointer := hm₁ ▸ hH.congr rfl fun _ => ⟨rfl, fun _ => rfl⟩
    simp only [htask, ← hA₁.tasks t hk₁] at hfinish
    have hA₂ := hA₁.set_state hk₁ (m₁.tasks t).state.wake_blocked
    cases hstate : (m₁.tasks t).state with
    | blocked =>
      simp only [hstate] at hfinish hA₂
      have H₂ := H₁.next (n := m₁.set_state t TaskState.blocked.wake_blocked) (r := .wake item t)
        (by simp only [handler_next, htask, hstate, hcur₁]) rfl rfl ((SameGhost.refl m₁).set_state _)
      obtain ⟨m₃, H₃, hA₃⟩ := H₂.wake (hA₂.set_stage _) hk₁
        ((hH₁.set_state t _).congr rfl fun _ => ⟨rfl, fun _ => rfl⟩) hfinish
      exact H₃.dealloc hA₃
    | exited =>
      simp only [hstate, Option.some.injEq] at hfinish hA₂
      subst hfinish
      have H₂ := H₁.next (n := m₁.set_state t TaskState.exited.wake_blocked) (r := .exited item t)
        (by simp only [handler_next, htask, hstate, hcur₁]) rfl rfl ((SameGhost.refl m₁).set_state _)
      obtain ⟨m₃, H₃, hA₃⟩ := H₂.exited (hA₂.set_stage _)
      exact H₃.dealloc hA₃
    | _ => simp only [hstate, reduceCtorEq] at hfinish

end Machine

end Vsched2
