import Vsched2.HiddenWork
import Vsched2.Kernel

/-! The order in which `kschedule` dispatches tasks on a single CPU.

    `kschedule` compares published priorities only. They hide nothing (`HiddenWork`), so a pending
    trap always comes first. But `take_task` of the ready queue reports the priority of the level it
    took the task from also when that level became empty, so a process may be published with a
    priority more urgent than its tasks and win against a process with a more urgent task. -/

namespace Vsched2.PriorityOrder

open HiddenWork (step_effect step_ok step_sees)

variable {cfg : Config}

/-- The single-CPU system: operations on the scheduler of a process (`user_init` is
    `init_sources`), the steps of `trap_handler` besides the removal of a trap, `process_init`, and
    calls of `kschedule`. A round that finds no task is a step of its own, as the call is given up
    when the CPU is interrupted while it waits. -/
inductive Op (cfg : Config) where
  | sched (p : Pid cfg) (op : HiddenWork.Op cfg)
  | switch_vspace (p : Pid cfg)
  | reschedule_handler (handler : TaskPtr)
  | process_init (vspace : ℕ)
  | failed_round (fresh : TaskPtr × Task cfg)
  | kschedule (fuel : ℕ) (fresh : TaskPtr × Task cfg)

/-- The pool of idle handlers of the kernel scheduler. -/
def idle (k : Kernel cfg) : List TaskPtr := (k.schedulers .kernel).trap_wait_queue.idle_handlers

/-- Traps are pushed to the kernel scheduler only; the OS does not touch an idle handler. -/
def allowed (k : Kernel cfg) (p : Pid cfg) : HiddenWork.Op cfg → Bool
  | .push_trap _ _ _ => decide (p = .kernel)
  | .os task _ => decide (task ∉ idle k)
  | _ => true

/-- An operation on the scheduler of `p`. -/
def sched_step (k : Kernel cfg) (p : Pid cfg) (op : HiddenWork.Op cfg) : Option (Kernel cfg) :=
  (HiddenWork.step ⟨k.schedulers p, k.tasks, k.row p⟩ op).map fun s =>
    k.put p s.sched s.tasks s.highest_prio

/-- `reschedule_handler` with the `thread_entry_phase2` its `resched` leads to. A handler that runs
    is not in the pool. -/
def reschedule_step (k : Kernel cfg) (handler : TaskPtr) : Option (Kernel cfg) :=
  if handler ∉ idle k then
    ((k.schedulers .kernel).trap_wait_queue.reschedule_handler k.tasks handler).map fun r =>
      k.put .kernel { k.schedulers .kernel with trap_wait_queue := r.1 }
        (r.2.set_state handler (r.2 handler).state.leave) (k.row .kernel)
  else none

def step (user_data : Pid cfg → Pid cfg) (cpu : Cpu cfg) (k : Kernel cfg) : Op cfg → Option (Kernel cfg)
  | .sched p op =>
    if (k.process_info_table.table p).valid ∧ allowed k p op then sched_step k p op else none
  | .switch_vspace p => some (k.switch_vspace cpu p)
  | .reschedule_handler handler => reschedule_step k handler
  | .process_init vspace => (k.process_init vspace).map Prod.snd
  | .failed_round fresh =>
    (k.kround user_data cpu fresh).bind fun r =>
      if r.1 = 2 then r.2.wait_for_runnable_task cpu else none
  | .kschedule fuel fresh => (k.kschedule user_data cpu fresh fuel).map Prod.snd

/-! ### The invariant -/

/-- The handlers of the pool differ and are `Blocked`. -/
def IdleOk (idle : List TaskPtr) (ts : Tasks cfg) : Prop :=
  idle.Nodup ∧ ∀ h ∈ idle, (ts h).state = .blocked

/-- What every run keeps: the schedulers are in order, no work is hidden, traps are pending in the
    kernel only, and the idle handlers can be taken. -/
structure Sound (k : Kernel cfg) : Prop where
  ok : ∀ p, (k.schedulers p).Ok
  visible : ∀ p c, k.row p c ≤ (k.schedulers p).hightest_priority c
  highest : ∀ p c, cfg.highest_priority ≤ k.row p c
  allocated : k.process_info_table.Allocated
  kernel_valid : (k.process_info_table.table .kernel).valid = true
  kernel_sources : (k.schedulers .kernel).sources = [.trap_wait_queue, .ready_queue]
  user_traps : ∀ p, p ≠ .kernel → ∀ c, (k.schedulers p).trap_wait_queue.queues c = []
  idle_ok : IdleOk (idle k) k.tasks

/-- On a single CPU every operation sees all traps. -/
theorem sees_single (hcpu : cfg.cpu_num = 1) (s : HiddenWork.State cfg) (op : HiddenWork.Op cfg) :
    HiddenWork.Sees s op := by
  have heq : ∀ c d : Cpu cfg, c = d := fun c d => Fin.ext (by omega)
  have hseen : ∀ (cpu : Cpu cfg) (urgent : Prop), HiddenWork.TrapsSeen s.sched cpu urgent :=
    fun cpu urgent ⟨c, hc⟩ => Or.inl (heq c cpu ▸ hc)
  cases op with
  | init_sources cpu handlers => exact hseen cpu _
  | push_task cpu task => exact Or.inr (Or.inr (hseen cpu _))
  | push_trap cpu item cpuid => exact Or.inr (Or.inl (heq cpuid cpu))
  | pop_task cpu fresh => exact Or.inr (Or.inr (hseen cpu _))
  | trap_handler cpu => trivial
  | os task value => trivial

/-! ### What an operation on one scheduler keeps -/

theorem update_prio_ge {row : Row cfg} {b prio : ℤ} (hrow : ∀ c, b ≤ row c) (hp : b ≤ prio)
    (o : Option (Cpu cfg)) (c : Cpu cfg) : b ≤ update_prio row prio o c := by
  cases o with
  | none => simpa using hp
  | some d =>
    rcases eq_or_ne c d with rfl | hcd
    · simpa using hp
    · rw [update_prio_of_ne _ _ hcd]; exact hrow c

/-- No operation publishes a priority above the highest. -/
theorem step_highest {s s' : HiddenWork.State cfg} {op : HiddenWork.Op cfg} (ho : s.sched.Ok)
    (hrow : ∀ c, cfg.highest_priority ≤ s.highest_prio c) (h : HiddenWork.step s op = some s') (c : Cpu cfg) :
    cfg.highest_priority ≤ s'.highest_prio c := by
  have ho' := step_ok ho h
  have hmax := cfg.lowest_lt_max
  have hhl := cfg.highest_le_lowest
  have hge := fun cpu => Scheduler.hightest_priority_ge ho' cpu
  have hpub : ∀ prio o, cfg.highest_priority ≤ prio →
      cfg.highest_priority ≤ update_prio s.highest_prio prio o c :=
    fun prio o hp => update_prio_ge hrow hp o c
  cases step_effect ho h with
  | init_sources => exact hpub _ none (hge _)
  | push_task => exact hpub _ none (hge _)
  | push_trap => exact hpub _ (some _) (hge _)
  | pop_nil => exact hpub cfg.isize_max (some _) (by omega)
  | pop_trap => exact hpub cfg.highest_priority (some _) (le_refl _)
  | @pop_ready _ _ l => exact hpub l.prio none l.highest_le
  | pop_empty => exact hpub (cfg.lowest_priority + 1) (some _) (by omega)
  | trap_handler =>
    show cfg.highest_priority ≤ (if _ then _ else _ : Row cfg) c
    split
    · exact hpub _ (some _) (hge _)
    · exact hrow c
  | push_refused => exact hrow c
  | trap_refused => exact hrow c
  | no_trap => exact hrow c
  | os => exact hrow c

/-- A queue of traps grows by `push_trap` only. -/
theorem step_traps {s s' : HiddenWork.State cfg} {op : HiddenWork.Op cfg} (ho : s.sched.Ok)
    (hop : ∀ cpu item cpuid, op ≠ .push_trap cpu item cpuid)
    (hq : ∀ c, s.sched.trap_wait_queue.queues c = []) (h : HiddenWork.step s op = some s') (c : Cpu cfg) :
    s'.sched.trap_wait_queue.queues c = [] := by
  cases step_effect ho h with
  | init_sources _ hinit hsched =>
    subst hsched
    simp only [TrapWaitQueue.init] at hinit
    split at hinit
    · obtain ⟨rfl, -⟩ := Prod.mk.inj (Option.some.inj hinit)
      exact hq c
    · simp at hinit
  | push_task _ _ _ hsched => subst hsched; exact hq c
  | push_trap => exact absurd rfl (hop _ _ _)
  | pop_trap _ _ _ hqs => exact (congrFun hqs c).trans (hq c)
  | trap_handler hitem => rw [hq] at hitem; simp at hitem
  | pop_nil => exact hq c
  | pop_ready => exact hq c
  | pop_empty => exact hq c
  | push_refused => exact hq c
  | trap_refused => exact hq c
  | no_trap => exact hq c
  | os => exact hq c

/-- Initialised sources stay. -/
theorem step_sources {s s' : HiddenWork.State cfg} {op : HiddenWork.Op cfg} (ho : s.sched.Ok)
    (hs : s.sched.sources = [.trap_wait_queue, .ready_queue]) (h : HiddenWork.step s op = some s') :
    s'.sched.sources = [.trap_wait_queue, .ready_queue] := by
  cases step_effect ho h with
  | init_sources _ _ hsched => subst hsched; rfl
  | push_task _ _ _ hsched => subst hsched; exact hs
  | push_trap _ hsched => subst hsched; exact hs
  | trap_handler _ hsched => subst hsched; exact hs
  | _ => exact hs

theorem IdleOk.tail {h : TaskPtr} {rest : List TaskPtr} {ts ts' : Tasks cfg} (hi : IdleOk (h :: rest) ts)
    (hts : ∀ t, t ≠ h → ts' t = ts t) : IdleOk rest ts' := by
  obtain ⟨hnd, hblocked⟩ := hi
  rw [List.nodup_cons] at hnd
  refine ⟨hnd.2, fun t ht => ?_⟩
  rw [hts t fun heq => hnd.1 (heq ▸ ht)]
  exact hblocked t (List.mem_cons_of_mem _ ht)

/-- An operation on the kernel scheduler that leaves the idle handlers alone keeps them ready to be
    taken. -/
theorem step_idle {s s' : HiddenWork.State cfg} {op : HiddenWork.Op cfg} (ho : s.sched.Ok)
    (hs : s.sched.sources = [.trap_wait_queue, .ready_queue])
    (hop : ∀ t v, op = .os t v → t ∉ s.sched.trap_wait_queue.idle_handlers)
    (hi : IdleOk s.sched.trap_wait_queue.idle_handlers s.tasks) (h : HiddenWork.step s op = some s') :
    IdleOk s'.sched.trap_wait_queue.idle_handlers s'.tasks := by
  cases step_effect ho h with
  | init_sources hnil => rw [hnil] at hs; simp at hs
  | push_task _ _ _ hsched => subst hsched; exact hi
  | push_trap _ hsched => subst hsched; exact hi
  | trap_handler _ hsched => subst hsched; exact hi
  | @pop_trap _ _ _ q _ _ _ ht _ =>
    show IdleOk q.idle_handlers _
    rcases TrapWaitQueue.take_task_idle ht with ⟨hpool, rfl⟩ | ⟨-, hpool⟩ | ⟨handler, hpool, hts⟩
    · rw [hpool]; exact hi
    · rw [hpool]; exact ⟨List.nodup_nil, by simp⟩
    · rw [hpool] at hi
      exact hi.tail hts
  | @os t v =>
    refine ⟨hi.1, fun u hu => ?_⟩
    show (Function.update s.tasks t v u).state = .blocked
    rw [Function.update_of_ne fun heq : u = t => hop t v rfl (heq ▸ hu)]
    exact hi.2 u hu
  | _ => exact hi

theorem set_blocked_foldl (handlers : Cpu cfg → TaskPtr) {t : TaskPtr} : ∀ (cs : List (Cpu cfg))
    {ts : Tasks cfg}, (ts t).state = .blocked →
    (cs.foldl (fun ts c => ts.set_state (handlers c) .blocked) ts t).state = .blocked := by
  intro cs
  induction cs with
  | nil =>
    intro ts h
    exact h
  | cons c cs ih =>
    intro ts h
    refine ih ?_
    show (ts.set_state (handlers c) .blocked t).state = .blocked
    rcases eq_or_ne t (handlers c) with heq | hne
    · rw [heq]; simp
    · rw [Tasks.set_state_of_ne _ _ hne]; exact h

/-- An operation on a user scheduler, whose trap queue is empty, changes tasks only through the OS
    or by initialising handlers, which become `Blocked`. -/
theorem step_user_tasks {s s' : HiddenWork.State cfg} {op : HiddenWork.Op cfg} (ho : s.sched.Ok)
    (hq : ∀ c, s.sched.trap_wait_queue.queues c = []) {t : TaskPtr} (hop : ∀ v, op ≠ .os t v)
    (h : HiddenWork.step s op = some s') (ht : (s.tasks t).state = .blocked) :
    (s'.tasks t).state = .blocked := by
  cases step_effect ho h with
  | init_sources _ hinit =>
    simp only [TrapWaitQueue.init] at hinit
    split at hinit
    · obtain ⟨-, rfl⟩ := Prod.mk.inj (Option.some.inj hinit)
      exact set_blocked_foldl _ _ ht
    · simp at hinit
  | pop_trap _ hne => exact absurd (hq _) hne
  | @os u v =>
    show (Function.update s.tasks u v t).state = .blocked
    rw [Function.update_of_ne fun heq : t = u => hop v (heq ▸ rfl)]
    exact ht
  | _ => exact ht

/-! ### Runs keep the invariant -/

variable {k k' : Kernel cfg}

/-- The invariant reads the table, the schedulers and the tasks only. -/
theorem Sound.congr (hk : Sound k) (ht : k'.process_info_table = k.process_info_table)
    (hs : k'.schedulers = k.schedulers) (hts : k'.tasks = k.tasks) : Sound k' := by
  obtain ⟨h1, h2, h3, h4, h5, h6, h7, h8⟩ := hk
  refine ⟨?_, ?_, ?_, ?_, ?_, ?_, ?_, ?_⟩ <;>
    simp only [Kernel.row, idle, ht, hs, hts] <;> assumption

/-- What the new scheduler and row of one process have to meet. -/
theorem Sound.put (hk : Sound k) {p : Pid cfg} {s : Scheduler cfg} {ts : Tasks cfg} {row : Row cfg}
    (ho : s.Ok) (hv : ∀ c, row c ≤ s.hightest_priority c) (hh : ∀ c, cfg.highest_priority ≤ row c)
    (hs : p = .kernel → s.sources = [.trap_wait_queue, .ready_queue])
    (hq : p ≠ .kernel → ∀ c, s.trap_wait_queue.queues c = [])
    (hi : IdleOk (idle (k.put p s ts row)) ts) : Sound (k.put p s ts row) := by
  refine ⟨fun q => ?_, fun q c => ?_, fun q c => ?_, fun q hqv => ?_, ?_, ?_, fun q hqk c => ?_, hi⟩
  · rcases eq_or_ne q p with rfl | hqp
    · rw [Kernel.schedulers_put_self]; exact ho
    · rw [Kernel.schedulers_put_of_ne _ hqp]; exact hk.ok q
  · rcases eq_or_ne q p with rfl | hqp
    · rw [Kernel.schedulers_put_self, Kernel.row_put_self]; exact hv c
    · rw [Kernel.schedulers_put_of_ne _ hqp, Kernel.row_put_of_ne _ hqp]; exact hk.visible q c
  · rcases eq_or_ne q p with rfl | hqp
    · rw [Kernel.row_put_self]; exact hh c
    · rw [Kernel.row_put_of_ne _ hqp]; exact hk.highest q c
  · rw [(Kernel.table_put ..).1] at hqv
    exact hk.allocated q hqv
  · rw [(Kernel.table_put ..).1]; exact hk.kernel_valid
  · rcases eq_or_ne (Pid.kernel : Pid cfg) p with rfl | hqp
    · rw [Kernel.schedulers_put_self]; exact hs rfl
    · rw [Kernel.schedulers_put_of_ne _ hqp]; exact hk.kernel_sources
  · rcases eq_or_ne q p with rfl | hqp
    · rw [Kernel.schedulers_put_self]; exact hq hqk c
    · rw [Kernel.schedulers_put_of_ne _ hqp]; exact hk.user_traps q hqk c

theorem sound_sched_step (hcpu : cfg.cpu_num = 1) (hk : Sound k) {p : Pid cfg}
    {op : HiddenWork.Op cfg} (hop : allowed k p op = true) (h : sched_step k p op = some k') : Sound k' := by
  simp only [sched_step, Option.map_eq_some_iff] at h
  obtain ⟨s', h, rfl⟩ := h
  have ho := hk.ok p
  have hv0 : HiddenWork.NoHiddenWork ⟨k.schedulers p, k.tasks, k.row p⟩ := hk.visible p
  have hv : HiddenWork.NoHiddenWork s' := (step_sees ho hv0 h).mpr (sees_single hcpu _ _)
  refine hk.put (step_ok ho h) hv (step_highest ho (hk.highest p) h) ?_ ?_ ?_
  · rintro rfl
    exact step_sources ho hk.kernel_sources h
  · intro hp
    refine step_traps ho ?_ (hk.user_traps p hp) h
    rintro cpu item cpuid rfl
    simp [allowed, hp] at hop
  · have hos : ∀ t v, op = .os t v → t ∉ idle k := by
      rintro t v rfl
      simpa [allowed] using hop
    rcases eq_or_ne (Pid.kernel : Pid cfg) p with rfl | hp
    · rw [idle, Kernel.schedulers_put_self]
      exact step_idle ho hk.kernel_sources hos hk.idle_ok h
    · rw [idle, Kernel.schedulers_put_of_ne _ hp]
      refine ⟨hk.idle_ok.1, fun t ht => ?_⟩
      refine step_user_tasks ho (hk.user_traps p (Ne.symm hp)) ?_ h (hk.idle_ok.2 t ht)
      rintro v rfl
      exact hos t v rfl ht

theorem sound_reschedule_step (hk : Sound k) {handler : TaskPtr} (h : reschedule_step k handler = some k') :
    Sound k' := by
  simp only [reschedule_step, TrapWaitQueue.reschedule_handler] at h
  split at h
  · rename_i hnot
    split at h
    · simp only [Option.map_some, Option.some.injEq] at h
      subst h
      refine hk.put ⟨(hk.ok .kernel).synced, (hk.ok .kernel).sources⟩ (hk.visible .kernel)
        (hk.highest .kernel) (fun _ => hk.kernel_sources) (fun hp => absurd rfl hp) ?_
      rw [idle, Kernel.schedulers_put_self]
      refine ⟨hk.idle_ok.1.append (List.nodup_singleton _) (by simpa using hnot), fun t ht => ?_⟩
      rcases eq_or_ne t handler with rfl | hne
      · simp [TaskState.leave, TaskState.match_set]
      · simp only [List.mem_append, List.mem_singleton, hne, or_false] at ht
        rw [Tasks.set_state_of_ne _ _ hne, Tasks.set_state_of_ne _ _ hne, Tasks.set_pid_of_ne _ _ hne]
        exact hk.idle_ok.2 t ht
    · simp at h
  · simp at h

theorem sound_pop_task (hcpu : cfg.cpu_num = 1) (hk : Sound k) {cpu : Cpu cfg} {p : Pid cfg}
    {fresh : TaskPtr × Task cfg} {t : Option TaskPtr} (h : k.pop_task cpu p fresh = some (t, k')) :
    Sound k' := by
  simp only [Kernel.pop_task, Option.map_eq_some_iff, Prod.mk.injEq] at h
  obtain ⟨r, hr, -, rfl⟩ := h
  have hop : allowed k p (.pop_task cpu fresh) = true := rfl
  refine sound_sched_step hcpu hk hop ?_
  simp [sched_step, HiddenWork.step, hr]

theorem Sound.switch_vspace (hk : Sound k) (cpu : Cpu cfg) (p : Pid cfg) : Sound (k.switch_vspace cpu p) :=
  hk.congr (by simp) (by simp) (by simp)

theorem Sound.set_current_task (hk : Sound k) (cpu : Cpu cfg) (t : TaskPtr) :
    Sound (k.set_current_task cpu t) :=
  hk.congr rfl rfl rfl

theorem sound_kround (hcpu : cfg.cpu_num = 1) (hk : Sound k) {user_data : Pid cfg → Pid cfg}
    {cpu : Cpu cfg} {fresh : TaskPtr × Task cfg} {res : ℕ}
    (h : k.kround user_data cpu fresh = some (res, k')) : Sound k' := by
  simp only [Kernel.kround, Option.bind_eq_some_iff, Kernel.ktask_schedule] at h
  obtain ⟨p, -, h⟩ := h
  split at h
  · simp only [Option.map_eq_some_iff] at h
    obtain ⟨⟨t, k₁⟩, hpop, h⟩ := h
    have hk₁ := sound_pop_task hcpu hk hpop
    cases t with
    | some t => obtain ⟨-, rfl⟩ := Prod.mk.inj h; exact (hk₁.switch_vspace _ _).set_current_task _ _
    | none => obtain ⟨-, rfl⟩ := Prod.mk.inj h; exact hk₁
  · simp only [Option.map_eq_some_iff] at h
    obtain ⟨⟨t, k₁⟩, hpop, h⟩ := h
    have hk₁ := sound_pop_task hcpu (hk.switch_vspace cpu p) hpop
    cases t with
    | some t => obtain ⟨-, rfl⟩ := Prod.mk.inj h; exact hk₁.set_current_task _ _
    | none => obtain ⟨-, rfl⟩ := Prod.mk.inj h; exact hk₁

theorem sound_wait (hk : Sound k) {cpu : Cpu cfg} (h : k.wait_for_runnable_task cpu = some k') :
    Sound k' :=
  let ⟨htab, hsch, hts, _⟩ := Kernel.wait_unchanged h
  hk.congr htab hsch hts

theorem sound_kschedule (hcpu : cfg.cpu_num = 1) {user_data : Pid cfg → Pid cfg} {cpu : Cpu cfg}
    {fresh : TaskPtr × Task cfg} : ∀ (fuel : ℕ) {k k' : Kernel cfg} {res : ℕ}, Sound k →
    Kernel.kschedule user_data cpu fresh fuel k = some (res, k') → Sound k' := by
  intro fuel
  induction fuel with
  | zero =>
    intro k k' res hk h
    simp [Kernel.kschedule] at h
  | succ fuel ih =>
    intro k k' res hk h
    simp only [Kernel.kschedule, Option.bind_eq_some_iff] at h
    obtain ⟨⟨res₁, k₁⟩, hround, h⟩ := h
    have hk₁ := sound_kround hcpu hk hround
    split at h
    · obtain ⟨-, rfl⟩ := Prod.mk.inj (Option.some.inj h)
      exact hk₁
    · rw [Option.bind_eq_some_iff] at h
      obtain ⟨k₂, hwait, h⟩ := h
      exact ih (sound_wait hk₁ hwait) h

theorem sound_process_init (hk : Sound k) {vspace : ℕ} {pid : Pid cfg}
    (h : k.process_init vspace = some (pid, k')) : Sound k' := by
  simp only [Kernel.process_init] at h
  split at h
  · simp at h
  · rename_i pid' t hreg
    obtain ⟨rfl, rfl⟩ := Prod.mk.inj (Option.some.inj h)
    obtain ⟨-, hother, hnew⟩ := ProcessInfoTable.register_process_spec hreg
    obtain ⟨hinvalid, hslot, -⟩ := hnew pid' rfl
    have halloc := ProcessInfoTable.register_process_allocated hk.allocated hreg
    have hpid : pid' ≠ .kernel := by
      rintro rfl
      rw [hk.kernel_valid] at hinvalid
      simp at hinvalid
    have hrow : ∀ q, Kernel.row { k with
        schedulers := Function.update k.schedulers pid' .new
        process_info_table := t.set pid'
          { t.table pid' with vspace := vspace, scheduler := some pid' } } q = k.row q := by
      intro q
      rcases eq_or_ne q pid' with rfl | hq
      · simp [Kernel.row, ProcessInfoTable.set, hslot]
      · simp [Kernel.row, ProcessInfoTable.set, hq, hother q fun he => hq (Option.some.inj he).symm]
    refine ⟨fun q => ?_, fun q c => ?_, fun q c => ?_, fun q hqv => ?_, ?_, ?_, fun q hqk c => ?_, ?_⟩
    · rcases eq_or_ne q pid' with rfl | hq
      · simpa using Scheduler.new_ok
      · simpa [hq] using hk.ok q
    · rw [hrow]
      rcases eq_or_ne q pid' with rfl | hq
      · have hnil : (Scheduler.new : Scheduler cfg).hightest_priority c = cfg.isize_max :=
          Scheduler.hightest_priority_nil rfl c
        simp only [Function.update_self, hnil]
        exact le_trans (hk.visible q c) (Scheduler.hightest_priority_le_max (k.schedulers q) c)
      · simpa [hq] using hk.visible q c
    · rw [hrow]; exact hk.highest q c
    · rcases eq_or_ne q pid' with rfl | hq
      · exact halloc q (by rw [hslot])
      · exact halloc q (by simpa [ProcessInfoTable.set, hq] using hqv)
    · simpa [ProcessInfoTable.set, hpid.symm, hother _ fun he => hpid (Option.some.inj he)]
        using hk.kernel_valid
    · simpa [hpid.symm] using hk.kernel_sources
    · rcases eq_or_ne q pid' with rfl | hq
      · simp [Scheduler.new, TrapWaitQueue.new]
      · simpa [hq] using hk.user_traps q hqk c
    · simpa [idle, hpid.symm] using hk.idle_ok

theorem sound_step (hcpu : cfg.cpu_num = 1) {user_data : Pid cfg → Pid cfg} {cpu : Cpu cfg} {op : Op cfg}
    (hk : Sound k) (h : step user_data cpu k op = some k') : Sound k' := by
  cases op with
  | sched p op =>
    simp only [step] at h
    split at h
    · rename_i hop
      exact sound_sched_step hcpu hk hop.2 h
    · simp at h
  | switch_vspace p =>
    obtain rfl := Option.some.inj h
    exact hk.switch_vspace cpu p
  | reschedule_handler handler => exact sound_reschedule_step hk h
  | process_init vspace =>
    simp only [step, Option.map_eq_some_iff] at h
    obtain ⟨⟨pid, k₁⟩, h, rfl⟩ := h
    exact sound_process_init hk h
  | failed_round fresh =>
    simp only [step, Option.bind_eq_some_iff] at h
    obtain ⟨⟨res, k₁⟩, hround, h⟩ := h
    split at h
    · exact sound_wait (sound_kround hcpu hk hround) h
    · simp at h
  | kschedule fuel fresh =>
    simp only [step, Option.map_eq_some_iff] at h
    obtain ⟨⟨res, k₁⟩, h, rfl⟩ := h
    exact sound_kschedule hcpu fuel hk h

/-- The pool of one handler that `init` makes on a single CPU. -/
theorem init_idle_ok (hcpu : cfg.cpu_num = 1) (handlers : Cpu cfg → TaskPtr) {ts : Tasks cfg} :
    IdleOk ([] ++ (List.finRange cfg.cpu_num).map handlers)
      ((List.finRange cfg.cpu_num).foldl (fun ts c => ts.set_state (handlers c) .blocked) ts) := by
  obtain ⟨c, hc⟩ : ∃ c, List.finRange cfg.cpu_num = [c] :=
    List.length_eq_one_iff.mp (by simpa using hcpu)
  rw [hc]
  exact ⟨List.nodup_singleton _, by simp⟩

/-- The kernel scheduler starts with handlers that can be taken. -/
theorem sound_start (hcpu : cfg.cpu_num = 1) {tasks : Tasks cfg} {init_task wait_context : Cpu cfg → TaskPtr}
    {cpu : Cpu cfg} {handlers : Cpu cfg → TaskPtr}
    (h : Kernel.kernel_init_main tasks init_task wait_context cpu handlers = some k) : Sound k := by
  simp only [Kernel.kernel_init_main, Kernel.init_sources, Option.map_eq_some_iff] at h
  obtain ⟨⟨s, ts, row⟩, hinit, rfl⟩ := h
  have hnew : (Kernel.boot tasks init_task wait_context : Kernel cfg).schedulers .kernel = .new := rfl
  have hstep : HiddenWork.step (HiddenWork.start tasks) (.init_sources cpu handlers) = some ⟨s, ts, row⟩ := by
    have hrow : (Kernel.boot tasks init_task wait_context : Kernel cfg).row .kernel =
        fun _ => cfg.isize_max := by
      simp [Kernel.row, Kernel.boot, ProcessInfoTable.default, ProcessInfoTable.unused]
    simp only [hnew, hrow] at hinit
    simp [HiddenWork.step, HiddenWork.start, Scheduler.new, ← hinit, Kernel.boot]
  have hmax := cfg.lowest_lt_max
  have hhl := cfg.highest_le_lowest
  have hstart : (HiddenWork.start tasks : HiddenWork.State cfg).sched.Ok := Scheduler.new_ok
  have hv := (step_sees hstart (HiddenWork.start_visible tasks) hstep).mpr (sees_single hcpu _ _)
  have hh := step_highest hstart (fun _ => by simp [HiddenWork.start]; omega) hstep
  have hrow : ∀ q c, (Kernel.boot tasks init_task wait_context : Kernel cfg).row q c = cfg.isize_max := by
    intro q c
    rcases eq_or_ne q .kernel with rfl | hq
    · simp [Kernel.row, Kernel.boot, ProcessInfoTable.default, ProcessInfoTable.unused]
    · simp [Kernel.row, Kernel.boot, ProcessInfoTable.default, ProcessInfoTable.unused, hq]
  refine ⟨fun q => ?_, fun q c => ?_, fun q c => ?_, fun q hqv => ?_, ?_, ?_, fun q hqk c => ?_, ?_⟩
  · rcases eq_or_ne q .kernel with rfl | hq
    · rw [Kernel.schedulers_put_self]; exact step_ok hstart hstep
    · rw [Kernel.schedulers_put_of_ne _ hq]; exact Scheduler.new_ok
  · rcases eq_or_ne q .kernel with rfl | hq
    · rw [Kernel.schedulers_put_self, Kernel.row_put_self]; exact hv c
    · rw [Kernel.schedulers_put_of_ne _ hq, Kernel.row_put_of_ne _ hq, hrow]
      exact le_of_eq (Scheduler.hightest_priority_nil rfl c).symm
  · rcases eq_or_ne q .kernel with rfl | hq
    · rw [Kernel.row_put_self]; exact hh c
    · rw [Kernel.row_put_of_ne _ hq, hrow]; omega
  · rw [(Kernel.table_put ..).1] at hqv
    exact ProcessInfoTable.default_allocated q hqv
  · rw [(Kernel.table_put ..).1]
    simp [Kernel.boot, ProcessInfoTable.default]
  · rw [Kernel.schedulers_put_self]
    cases step_effect hstart hstep with
    | init_sources _ _ hsched => subst hsched; rfl
  · rw [Kernel.schedulers_put_of_ne _ hqk]; rfl
  · rw [idle, Kernel.schedulers_put_self]
    cases step_effect hstart hstep with
    | init_sources _ hq hsched =>
      subst hsched
      simp only [TrapWaitQueue.init] at hq
      split at hq
      · obtain ⟨rfl, rfl⟩ := Prod.mk.inj (Option.some.inj hq)
        exact init_idle_ok hcpu handlers
      · simp at hq

/-! ### What `kschedule` dispatches -/

/-- A task is queued at a level of a valid process with initialised sources. -/
def Queued (k : Kernel cfg) (p : Pid cfg) (l : Level cfg) : Prop :=
  (k.process_info_table.table p).valid = true ∧ (k.schedulers p).sources ≠ [] ∧
    (k.schedulers p).ready_queue.queues l ≠ []

/-- The processes in the order in which `highest_prio_process` prefers them. -/
def candidates (k : Kernel cfg) : List (Pid cfg) := .kernel :: k.process_info_table.window

/-- The process has a queued task, and the least published priority of the processes that have one,
    as the first of them. -/
def Foremost (k : Kernel cfg) (cpu : Cpu cfg) (p : Pid cfg) : Prop :=
  (∃ l, Queued k p l) ∧ (∀ q m, Queued k q m → k.row p cpu ≤ k.row q cpu) ∧
    ∃ before after, candidates k = before ++ p :: after ∧
      ∀ q ∈ before, ∀ m, Queued k q m → k.row p cpu < k.row q cpu

/-- The foremost process has a most urgent task. -/
def Honest (k : Kernel cfg) (cpu : Cpu cfg) : Prop :=
  ∀ p, Foremost k cpu p → ∀ q m, Queued k q m → (k.schedulers p).ready_queue.best_prio ≤ m.prio

/-- The call from `k` to `k'` dispatched the oldest task of a level of a ready queue. -/
def TakenFrom (k k' : Kernel cfg) (cpu : Cpu cfg) (p : Pid cfg) (l : Level cfg) : Prop :=
  ∃ rest, (k.schedulers p).ready_queue.queues l = k'.current_task cpu :: rest ∧
    (k'.schedulers p).ready_queue.queues l = rest

/-- The call from `k` to `k'` dispatched the handler that `take_task` of the trap queue returned. -/
def TakenHandler (k k' : Kernel cfg) (cpu : Cpu cfg) (fresh : TaskPtr × Task cfg) : Prop :=
  ∃ q ts', (k.schedulers .kernel).trap_wait_queue.take_task k.tasks cpu fresh =
      some ((some (k'.current_task cpu), cfg.active_priority), q, ts') ∧
    k'.schedulers = Function.update k.schedulers .kernel
      { k.schedulers .kernel with trap_wait_queue := q }

/-- The kernel's traps pending on the CPU. -/
def traps (k : Kernel cfg) (cpu : Cpu cfg) : List TrapItem :=
  (k.schedulers .kernel).trap_wait_queue.queues cpu

/-- The process selected is the first with the least published priority; it is the kernel while a
    trap is pending. -/
theorem selects (hk : Sound k) (cpu : Cpu cfg) :
    ∃ p, k.process_schedule cpu .kernel = some p ∧ (k.process_info_table.table p).valid = true ∧
      (∀ q, (k.process_info_table.table q).valid = true → k.row p cpu ≤ k.row q cpu) ∧
      (∃ before after, candidates k = before ++ p :: after ∧ ∀ q ∈ before,
        (k.process_info_table.table q).valid = true → k.row p cpu < k.row q cpu) ∧
      (traps k cpu ≠ [] → p = .kernel) := by
  obtain ⟨p, hp, hpv, hmin, before, after, hcand, hbefore⟩ :=
    @ProcessInfoTable.highest_prio_process_spec cfg _ hk.allocated .kernel ⟨_, hk.kernel_valid⟩ cpu fun q _ =>
      le_trans (hk.visible q cpu) (Scheduler.hightest_priority_le_max (k.schedulers q) cpu)
  refine ⟨p, hp, hpv, hmin, ⟨before, after, hcand, hbefore⟩, fun htraps => ?_⟩
  have hv := hk.visible .kernel cpu
  have hne : (k.schedulers .kernel).trap_wait_queue.queues cpu ≠ [] := htraps
  rw [Scheduler.hightest_priority_eq (hk.ok .kernel) hk.kernel_sources, if_neg hne] at hv
  cases before with
  | nil => exact (List.cons.inj hcand).1.symm
  | cons q before =>
    obtain ⟨rfl, -⟩ := List.cons.inj hcand
    have hlt : k.row p cpu < k.row .kernel cpu := hbefore _ (List.mem_cons_self ..) hk.kernel_valid
    have hge := hk.highest p cpu
    omega

theorem Foremost.unique {cpu : Cpu cfg} {p q : Pid cfg} (hp : Foremost k cpu p) (hq : Foremost k cpu q) :
    p = q := by
  obtain ⟨⟨l, hl⟩, hple, before, after, hc, hbefore⟩ := hp
  obtain ⟨⟨m, hm⟩, hqle, before', after', hc', hbefore'⟩ := hq
  have hpq := hple q m hm
  have hqp := hqle p l hl
  rcases List.append_eq_append_iff.mp (hc.symm.trans hc') with ⟨mid, hmid, h⟩ | ⟨mid, hmid, h⟩
  · cases mid with
    | nil => exact (List.cons.inj h).1
    | cons x mid =>
      obtain ⟨rfl, -⟩ := List.cons.inj h
      have hlt := hbefore' p (by simp [hmid]) l hl
      omega
  · cases mid with
    | nil => exact (List.cons.inj h).1.symm
    | cons x mid =>
      obtain ⟨rfl, -⟩ := List.cons.inj h
      have hlt := hbefore q (by simp [hmid]) m hm
      omega

/-- With a trap pending, the first round dispatches a handler. -/
theorem kround_trap (hk : Sound k) (user_data : Pid cfg → Pid cfg) {cpu : Cpu cfg}
    (htraps : traps k cpu ≠ []) {fresh : TaskPtr × Task cfg}
    (hfresh : fresh.2.state = .ready ∨ fresh.2.state = .blocked) :
    ∃ k', k.kround user_data cpu fresh = some (0, k') ∧ TakenHandler k k' cpu fresh := by
  obtain ⟨p, hp, -, -, -, hkernel⟩ := selects hk cpu
  obtain rfl := hkernel htraps
  obtain ⟨handler, q, ts', htake⟩ := TrapWaitQueue.take_task_isSome htraps hk.idle_ok.2 hfresh
  simp only [Kernel.kround, hp, Option.bind_some, Kernel.ktask_schedule, if_true, Kernel.pop_task,
    Scheduler.pop_task_trap_eq (hk.ok .kernel) hk.kernel_sources htraps, htake, Option.map_some]
  refine ⟨_, rfl, q, ts', ?_, ?_⟩
  · simp [Kernel.set_current_task, htake]
  · simp [Kernel.set_current_task, Kernel.put]

/-- What `pop_task` does for a process without pending traps. -/
theorem pop_task_cases (hk : Sound k) {cpu : Cpu cfg} {p : Pid cfg}
    (hq : (k.schedulers p).trap_wait_queue.queues cpu = []) (fresh : TaskPtr × Task cfg) :
    (((k.schedulers p).sources = [] ∨ (k.schedulers p).ready_queue.best = none) ∧
      ∃ row, k.pop_task cpu p fresh = some (none, k.put p (k.schedulers p) k.tasks row)) ∨
    ∃ l task rest, (k.schedulers p).sources ≠ [] ∧ (k.schedulers p).ready_queue.best = some l ∧
      (k.schedulers p).ready_queue.queues l = task :: rest ∧ ∃ row, k.pop_task cpu p fresh =
        some (some task, k.put p { k.schedulers p with
          ready_queue := ((k.schedulers p).ready_queue.take_level l task rest).2 } k.tasks row) := by
  have ho := hk.ok p
  rcases ho.sources with hs | hs
  · exact Or.inl ⟨Or.inl hs, _, by rw [Kernel.pop_task, Scheduler.pop_task_nil hs]; rfl⟩
  · cases hb : (k.schedulers p).ready_queue.best with
    | none =>
      exact Or.inl ⟨Or.inr rfl, _, by
        rw [Kernel.pop_task, Scheduler.pop_task_empty ho hs hq hb]; rfl⟩
    | some l =>
      obtain ⟨task, rest, hl, hpop⟩ := Scheduler.pop_task_ready ho hs hq hb k.tasks fresh (k.row p)
      exact Or.inr ⟨l, task, rest, by simp [hs], rfl, hl, _, by rw [Kernel.pop_task, hpop]; rfl⟩

/-- A round without a dispatch changes only the published priority of a process without tasks. -/
structure Failed (k k' : Kernel cfg) : Prop where
  schedulers : k'.schedulers = k.schedulers
  valid : ∀ q, (k'.process_info_table.table q).valid = (k.process_info_table.table q).valid
  row : ∀ q l, Queued k q l → k'.row q = k.row q
  next_i : k'.process_info_table.next_i = k.process_info_table.next_i

theorem Failed.queued {k' : Kernel cfg} (h : Failed k k') {q : Pid cfg} {l : Level cfg} :
    Queued k' q l ↔ Queued k q l := by
  simp only [Queued, h.schedulers, h.valid]

/-- The dispatch of a queued task: it comes from the most urgent level of the foremost process. -/
structure Dispatched (k k' : Kernel cfg) (cpu : Cpu cfg) (p : Pid cfg) (l : Level cfg) : Prop where
  queued : Queued k p l
  best : (k.schedulers p).ready_queue.best = some l
  foremost : Foremost k cpu p
  schedulers : ∃ rest, (k.schedulers p).ready_queue.queues l = k'.current_task cpu :: rest ∧
    k'.schedulers = Function.update k.schedulers p { k.schedulers p with
      ready_queue := ((k.schedulers p).ready_queue.take_level l (k'.current_task cpu) rest).2 }
  valid : ∀ q, (k'.process_info_table.table q).valid = (k.process_info_table.table q).valid

/-- Without a pending trap, a round dispatches the most urgent task of the foremost process, or finds
    that the process selected has no task. -/
theorem kround_cases (hk : Sound k) {user_data : Pid cfg → Pid cfg} (hud : ∀ p, user_data p = p)
    {cpu : Cpu cfg} (htraps : traps k cpu = []) {fresh : TaskPtr × Task cfg} {res : ℕ}
    (h : k.kround user_data cpu fresh = some (res, k')) :
    (res = 2 ∧ Failed k k') ∨ (res ≠ 2 ∧ ∃ p l, Dispatched k k' cpu p l) := by
  obtain ⟨p, hp, hpv, hmin, ⟨before, after, hcand, hbefore⟩, -⟩ := selects hk cpu
  simp only [Kernel.kround, hp, Option.bind_some, Kernel.ktask_schedule] at h
  have hqueues : (k.schedulers p).trap_wait_queue.queues cpu = [] := by
    rcases eq_or_ne p .kernel with rfl | hpk
    · exact htraps
    · exact hk.user_traps p hpk cpu
  have hfore : ∀ l, Queued k p l → Foremost k cpu p := fun l hl =>
    ⟨⟨l, hl⟩, fun q m hq => hmin q hq.1, before, after, hcand, fun q hq m hm => hbefore q hq hm.1⟩
  -- the address space is switched before the pop for a user process, after it for the kernel
  have main : ∀ (k₀ : Kernel cfg) (t : Option TaskPtr) (k₁ : Kernel cfg),
      k₀.process_info_table = k.process_info_table → k₀.schedulers = k.schedulers → Sound k₀ →
      k₀.pop_task cpu p fresh = some (t, k₁) →
      (t = none → Failed k k₁) ∧ ∀ task, t = some task → ∃ l, ∀ k₂ : Kernel cfg,
        k₂.current_task cpu = task → k₂.schedulers = k₁.schedulers →
        k₂.process_info_table = k₁.process_info_table → Dispatched k k₂ cpu p l := by
    rintro k₀ t k₁ htab hsch hk₀ hpop
    rcases pop_task_cases hk₀ (by rw [hsch]; exact hqueues) fresh with
      ⟨hnone, row, hres⟩ | ⟨l, task, rest, hs, hb, hl, row, hres⟩
    · rw [hres] at hpop
      obtain ⟨rfl, rfl⟩ := Prod.mk.inj (Option.some.inj hpop)
      refine ⟨fun _ => ⟨?_, fun q => ?_, fun q l hq => ?_, by rw [← htab]; rfl⟩, by simp⟩
      · simp [Kernel.put, hsch]
      · rw [(Kernel.table_put ..).1, htab]
      · have hqp : q ≠ p := by
          rintro rfl
          rw [hsch] at hnone
          rcases hnone with hs | hb
          · exact hq.2.1 hs
          · exact hq.2.2 (ReadyQueue.best_eq_none.mp hb l)
        rw [Kernel.row_put_of_ne _ hqp, Kernel.row, htab]; rfl
    · rw [hres] at hpop
      obtain ⟨rfl, rfl⟩ := Prod.mk.inj (Option.some.inj hpop)
      rw [hsch] at hs hb hl
      refine ⟨by simp, fun task' htask => ⟨l, ?_⟩⟩
      obtain rfl := Option.some.inj htask
      rintro k₂ rfl hsch₂ htab₂
      have hqueued : Queued k p l := ⟨hpv, hs, by simp [hl]⟩
      refine ⟨hqueued, hb, hfore l hqueued, ⟨rest, hl, ?_⟩, fun q => ?_⟩
      · rw [hsch₂]; simp [Kernel.put, hsch]
      · rw [htab₂, (Kernel.table_put ..).1, htab]
  split at h
  · rename_i hpk
    subst hpk
    simp only [Option.map_eq_some_iff] at h
    obtain ⟨⟨t, k₁⟩, hpop, h⟩ := h
    obtain ⟨hfail, hdone⟩ := main k t k₁ rfl rfl hk hpop
    cases t with
    | none =>
      obtain ⟨rfl, rfl⟩ := Prod.mk.inj h
      exact Or.inl ⟨rfl, hfail rfl⟩
    | some task =>
      obtain ⟨rfl, rfl⟩ := Prod.mk.inj h
      obtain ⟨l, hl⟩ := hdone task rfl
      exact Or.inr ⟨by decide, _, l, hl _ (by simp [Kernel.set_current_task])
        (by simp [Kernel.set_current_task]) (by simp [Kernel.set_current_task])⟩
  · simp only [Kernel.switch_vspace_current, hud, Option.map_eq_some_iff] at h
    obtain ⟨⟨t, k₁⟩, hpop, h⟩ := h
    obtain ⟨hfail, hdone⟩ := main _ t k₁ (by simp) (by simp) (hk.switch_vspace cpu p) hpop
    cases t with
    | none =>
      obtain ⟨rfl, rfl⟩ := Prod.mk.inj h
      exact Or.inl ⟨rfl, hfail rfl⟩
    | some task =>
      obtain ⟨rfl, rfl⟩ := Prod.mk.inj h
      obtain ⟨l, hl⟩ := hdone task rfl
      exact Or.inr ⟨by decide, p, l, hl _ (by simp [Kernel.set_current_task]) rfl rfl⟩

/-- Rounds without a dispatch do not matter for what is dispatched afterwards. -/
theorem Failed.dispatched {k₁ k' : Kernel cfg} (h : Failed k k₁) {cpu : Cpu cfg} {p : Pid cfg}
    {l : Level cfg} (hd : Dispatched k₁ k' cpu p l) : Dispatched k k' cpu p l := by
  have hp := h.queued.mp hd.queued
  obtain ⟨-, hleast, before, after, hcand, hbefore⟩ := hd.foremost
  have hcand' : candidates k = before ++ p :: after := by
    rw [← hcand]; simp only [candidates, ProcessInfoTable.window, h.next_i]
  refine ⟨hp, by rw [← h.schedulers]; exact hd.best,
    ⟨⟨l, hp⟩, fun q m hq => ?_, before, after, hcand', fun q hqb m hq => ?_⟩, ?_, fun q => ?_⟩
  · rw [← h.row p l hp, ← h.row q m hq]
    exact hleast q m (h.queued.mpr hq)
  · rw [← h.row p l hp, ← h.row q m hq]
    exact hbefore q hqb m (h.queued.mpr hq)
  · rw [← h.schedulers]; exact hd.schedulers
  · rw [hd.valid, h.valid]

theorem kschedule_dispatched (hcpu : cfg.cpu_num = 1) {user_data : Pid cfg → Pid cfg}
    (hud : ∀ p, user_data p = p) {cpu : Cpu cfg} {fresh : TaskPtr × Task cfg} :
    ∀ (fuel : ℕ) {k k' : Kernel cfg} {res : ℕ}, Sound k → traps k cpu = [] →
    Kernel.kschedule user_data cpu fresh fuel k = some (res, k') → ∃ p l, Dispatched k k' cpu p l := by
  intro fuel
  induction fuel with
  | zero =>
    intro k k' res hk htraps h
    simp [Kernel.kschedule] at h
  | succ fuel ih =>
    intro k k' res hk htraps h
    simp only [Kernel.kschedule, Option.bind_eq_some_iff] at h
    obtain ⟨⟨res₁, k₁⟩, hround, h⟩ := h
    rcases kround_cases hk hud htraps hround with ⟨rfl, hfail⟩ | ⟨hres, hdone⟩
    · simp only [ne_eq, not_true_eq_false, if_false, Option.bind_eq_some_iff] at h
      obtain ⟨k₂, hwait, h⟩ := h
      obtain ⟨htab, hsch, -⟩ := Kernel.wait_unchanged hwait
      have hfail₂ : Failed k k₂ := by
        refine ⟨hsch.trans hfail.schedulers, fun q => ?_, fun q l hq => ?_, by rw [htab]; exact hfail.next_i⟩
        · rw [htab]; exact hfail.valid q
        · rw [Kernel.row, htab]; exact hfail.row q l hq
      have htraps₂ : traps k₂ cpu = [] := by rw [traps, hfail₂.schedulers]; exact htraps
      obtain ⟨p, l, hd⟩ := ih (sound_wait (sound_kround hcpu hk hround) hwait) htraps₂ h
      exact ⟨p, l, hfail₂.dispatched hd⟩
    · simp only [ne_eq, hres, not_false_eq_true, if_true, Option.some.injEq, Prod.mk.injEq] at h
      obtain ⟨-, rfl⟩ := h
      exact hdone

theorem kschedule_trap (hk : Sound k) (user_data : Pid cfg → Pid cfg) {cpu : Cpu cfg}
    (htraps : traps k cpu ≠ []) {fresh : TaskPtr × Task cfg}
    (hfresh : fresh.2.state = .ready ∨ fresh.2.state = .blocked) (fuel : ℕ) :
    ∃ k', Kernel.kschedule user_data cpu fresh (fuel + 1) k = some (0, k') ∧ TakenHandler k k' cpu fresh := by
  obtain ⟨k', hround, hk'⟩ := kround_trap hk user_data htraps hfresh
  exact ⟨k', by simp [Kernel.kschedule, hround], hk'⟩

/-- A dispatched queued task leaves the queue it was in, and no other. -/
theorem Dispatched.queues {k' : Kernel cfg} {cpu : Cpu cfg} {p : Pid cfg} {l : Level cfg}
    (hd : Dispatched k k' cpu p l) (q : Pid cfg) (m : Level cfg) :
    (k'.schedulers q).trap_wait_queue = (k.schedulers q).trap_wait_queue ∧
    (k'.schedulers q).sources = (k.schedulers q).sources ∧
    ((q = p ∧ m = l) ∨ (k'.schedulers q).ready_queue.queues m = (k.schedulers q).ready_queue.queues m) := by
  obtain ⟨rest, -, hsch⟩ := hd.schedulers
  rw [hsch]
  rcases eq_or_ne q p with rfl | hq
  · simp only [Function.update_self, ReadyQueue.take_level_queues, true_and]
    rcases eq_or_ne m l with rfl | hm
    · exact Or.inl rfl
    · exact Or.inr (by rw [Function.update_of_ne hm])
  · simp [hq]

theorem Dispatched.queued_before {k' : Kernel cfg} {cpu : Cpu cfg} {p : Pid cfg} {l : Level cfg}
    (hd : Dispatched k k' cpu p l) {q : Pid cfg} {m : Level cfg} (h : Queued k' q m) : Queued k q m := by
  obtain ⟨-, hs, hm⟩ := hd.queues q m
  rcases hm with ⟨rfl, rfl⟩ | hm
  · exact hd.queued
  · exact ⟨by rw [← hd.valid]; exact h.1, by rw [← hs]; exact h.2.1, by rw [← hm]; exact h.2.2⟩

theorem Dispatched.in_order_iff {k' : Kernel cfg} {cpu : Cpu cfg} {p : Pid cfg} {l : Level cfg}
    (hd : Dispatched k k' cpu p l) :
    (∀ q m, Queued k' q m → l.prio ≤ m.prio) ↔ Honest k cpu := by
  have hbest : (k.schedulers p).ready_queue.best_prio = l.prio := by
    simp [ReadyQueue.best_prio, hd.best]
  constructor
  · intro h p' hp' q m hq
    rw [hp'.unique hd.foremost, hbest]
    obtain ⟨-, hs, hm⟩ := hd.queues q m
    rcases hm with ⟨-, rfl⟩ | hm
    · exact le_refl _
    · exact h q m ⟨by rw [hd.valid]; exact hq.1, by rw [hs]; exact hq.2.1, by rw [hm]; exact hq.2.2⟩
  · intro h q m hq
    rw [← hbest]
    exact h p hd.foremost q m (hd.queued_before hq)

/-- `kschedule` has taken a queued task: no trap is pending, and the task is the most urgent one just if the
    foremost process had it. -/
theorem kschedule_order (hcpu : cfg.cpu_num = 1) {user_data : Pid cfg → Pid cfg} (hud : ∀ p, user_data p = p)
    {cpu : Cpu cfg} {fresh : TaskPtr × Task cfg} (hfresh : fresh.2.state = .ready ∨ fresh.2.state = .blocked)
    (hk : Sound k) {fuel res : ℕ} {k' : Kernel cfg}
    (h : Kernel.kschedule user_data cpu fresh fuel k = some (res, k')) {p : Pid cfg} {l : Level cfg}
    (htaken : TakenFrom k k' cpu p l) :
    traps k' cpu = [] ∧ ((∀ q m, Queued k' q m → l.prio ≤ m.prio) ↔ Honest k cpu) := by
  obtain ⟨rest, hl, hrest⟩ := htaken
  by_cases htraps : traps k cpu = []
  · obtain ⟨p', l', hd⟩ := kschedule_dispatched hcpu hud fuel hk htraps h
    obtain ⟨-, -, hpl⟩ := hd.queues p l
    rcases hpl with ⟨rfl, rfl⟩ | hpl
    · refine ⟨?_, ?_⟩
      · rw [traps, (hd.queues .kernel l).1]; exact htraps
      · exact hd.in_order_iff
    · rw [hrest, hl] at hpl
      simp at hpl
  · -- a trap handler was dispatched, and no queue of tasks has changed
    cases fuel with
    | zero => simp [Kernel.kschedule] at h
    | succ fuel =>
      obtain ⟨k'', h', q, ts', -, hsch⟩ := kschedule_trap hk user_data htraps hfresh fuel
      rw [h] at h'
      obtain ⟨-, rfl⟩ := Prod.mk.inj (Option.some.inj h')
      have hq : (k'.schedulers p).ready_queue = (k.schedulers p).ready_queue := by
        rw [hsch]
        rcases eq_or_ne p .kernel with rfl | hp
        · simp
        · simp [hp]
      rw [hq, hl] at hrest
      simp at hrest

/-- In every run, a call of `kschedule` with a trap pending dispatches a trap handler. A call that
    dispatches a queued task leaves no trap behind, and no more urgent task if and only if the
    foremost process had a most urgent task. -/
theorem dispatch_order (hcpu : cfg.cpu_num = 1) {user_data : Pid cfg → Pid cfg}
    (hud : ∀ p, user_data p = p) {tasks : Tasks cfg} {init_task wait_context : Cpu cfg → TaskPtr}
    {cpu : Cpu cfg} {handlers : Cpu cfg → TaskPtr} {start : Kernel cfg} {ops : List (Op cfg)}
    (hstart : Kernel.kernel_init_main tasks init_task wait_context cpu handlers = some start)
    (hrun : Runs.run (step user_data cpu) start ops = some k) {fresh : TaskPtr × Task cfg}
    (hfresh : fresh.2.state = .ready ∨ fresh.2.state = .blocked) (fuel : ℕ) :
    (traps k cpu ≠ [] → ∃ k', Kernel.kschedule user_data cpu fresh (fuel + 1) k = some (0, k') ∧
      TakenHandler k k' cpu fresh) ∧
    ∀ res k', Kernel.kschedule user_data cpu fresh fuel k = some (res, k') →
      ∀ p l, TakenFrom k k' cpu p l → traps k' cpu = [] ∧
        ((∀ q m, Queued k' q m → l.prio ≤ m.prio) ↔ Honest k cpu) := by
  have hk : Sound k := Runs.run_invariant (fun _ _ _ hk h => sound_step hcpu hk h) ops
    (sound_start hcpu hstart) hrun
  exact ⟨fun htraps => kschedule_trap hk user_data htraps hfresh fuel,
    fun res k' h p l htaken => kschedule_order hcpu hud hfresh hk h htaken⟩

/-! ### A run that breaks the order -/

/-- One CPU. -/
abbrev single : Config := Config.build 1 Nat.one_pos

abbrev single_cpu : Cpu single := ⟨0, by decide⟩
abbrev single_pid : Pid single := ⟨1, by decide⟩

/-- Task 11 has priority 1 and task 15 priority 5, both kernel tasks; task 13 has priority 3 in
    process 1. -/
def stale_tasks : Tasks single := fun t =>
  if t = 13 then ⟨.ready, 3, false, false, ⟨1, by decide⟩⟩ else ⟨.ready, t - 10, false, true, .kernel⟩

/-- The three tasks are queued and the first one is dispatched: level 1 of the kernel is now empty,
    but the kernel stays published with priority 1. -/
def stale_run : List (Op single) :=
  [.sched .kernel (.push_task ⟨0, by decide⟩ 11), .sched .kernel (.push_task ⟨0, by decide⟩ 15),
    .process_init 7, .sched ⟨1, by decide⟩ (.init_sources ⟨0, by decide⟩ fun _ => 101),
    .sched ⟨1, by decide⟩ (.push_task ⟨0, by decide⟩ 13), .kschedule 1 (102, ⟨.ready, 0, true, true, .kernel⟩)]

/-- The state after the run and what the next call of `kschedule` leaves. -/
def stale_call : Option (Kernel single × Kernel single) :=
  (Kernel.kernel_init_main stale_tasks (fun _ => 1) (fun _ => 2) ⟨0, by decide⟩ fun _ => 100).bind fun start =>
    (Runs.run (step id ⟨0, by decide⟩) start stale_run).bind fun k =>
      (Kernel.kschedule id ⟨0, by decide⟩ (102, ⟨.ready, 0, true, true, .kernel⟩) 1 k).map fun r => (k, r.2)

theorem stale_call_queues : stale_call.map (fun r =>
    ((r.1.schedulers .kernel).ready_queue.queues ⟨5, by decide⟩, r.2.current_task ⟨0, by decide⟩,
      (r.2.schedulers .kernel).ready_queue.queues ⟨5, by decide⟩)) = some ([15], 15, []) := by
  decide +kernel

theorem stale_call_left : stale_call.map (fun r =>
    ((r.2.process_info_table.table ⟨1, by decide⟩).valid, (r.2.schedulers ⟨1, by decide⟩).sources.isEmpty,
      (r.2.schedulers ⟨1, by decide⟩).ready_queue.queues ⟨3, by decide⟩)) = some (true, false, [13]) := by
  decide +kernel

/-- The second call dispatches the task of priority 5 and leaves the task of priority 3 queued. -/
theorem stale_run_outcome : ∃ start k k' res,
    Kernel.kernel_init_main stale_tasks (fun _ => 1) (fun _ => 2) ⟨0, by decide⟩ (fun _ => 100) = some start ∧
    Runs.run (step id ⟨0, by decide⟩) start stale_run = some k ∧
    Kernel.kschedule id ⟨0, by decide⟩ (102, ⟨.ready, 0, true, true, .kernel⟩) 1 k = some (res, k') ∧
    TakenFrom k k' ⟨0, by decide⟩ .kernel ⟨5, by decide⟩ ∧ Queued k' ⟨1, by decide⟩ ⟨3, by decide⟩ := by
  have hqueues := stale_call_queues
  have hleft := stale_call_left
  simp only [Option.map_eq_some_iff, Prod.mk.injEq] at hqueues hleft
  obtain ⟨⟨k, k'⟩, hcall, hbefore, htask, hafter⟩ := hqueues
  obtain ⟨⟨k₁, k₁'⟩, hcall₁, hvalid, hsources, hqueued⟩ := hleft
  rw [hcall] at hcall₁
  obtain ⟨rfl, rfl⟩ := Prod.mk.inj (Option.some.inj hcall₁)
  simp only [stale_call, Option.bind_eq_some_iff, Option.map_eq_some_iff, Prod.mk.injEq] at hcall
  obtain ⟨start, hstart, k₂, hrun, ⟨res, k₂'⟩, hk, rfl, rfl⟩ := hcall
  refine ⟨start, k₂, k₂', res, hstart, hrun, hk, ⟨[], ?_, hafter⟩, hvalid, ?_, ?_⟩
  · rw [hbefore, htask]
  · intro hnil
    rw [hnil] at hsources
    simp at hsources
  · rw [hqueued]; simp

/-- The order does not hold in every run. -/
theorem stale_run_reorders : ¬ ∀ (cfg : Config), cfg.cpu_num = 1 → ∀ (tasks : Tasks cfg)
    (init_task wait_context : Cpu cfg → TaskPtr) (cpu : Cpu cfg) (handlers : Cpu cfg → TaskPtr)
    (start : Kernel cfg) (ops : List (Op cfg)) (k k' : Kernel cfg) (res fuel : ℕ) (fresh : TaskPtr × Task cfg),
    Kernel.kernel_init_main tasks init_task wait_context cpu handlers = some start →
    Runs.run (step id cpu) start ops = some k → Kernel.kschedule id cpu fresh fuel k = some (res, k') →
    ∀ p l, TakenFrom k k' cpu p l → ∀ q m, Queued k' q m → l.prio ≤ m.prio := by
  intro h
  obtain ⟨start, k, k', res, hstart, hrun, hk, htaken, hqueued⟩ := stale_run_outcome
  exact absurd (h single rfl _ _ _ _ _ start _ k k' res 1 _ hstart hrun hk _ _ htaken _ _ hqueued) (by decide)

/-- `dispatch_order` for that run: the kernel is foremost with its stale priority. -/
theorem dispatch_order_stale : ∃ k, ¬ Honest k (⟨0, by decide⟩ : Cpu single) ∧
    ∃ k', TakenFrom k k' ⟨0, by decide⟩ .kernel ⟨5, by decide⟩ ∧ traps k' ⟨0, by decide⟩ = [] := by
  obtain ⟨start, k, k', res, hstart, hrun, hk, htaken, hqueued⟩ := stale_run_outcome
  have horder := (dispatch_order rfl (fun _ => rfl) hstart hrun (Or.inl rfl) 1).2 res k' hk _ _ htaken
  refine ⟨k, fun hhonest => ?_, k', htaken, horder.1⟩
  exact absurd (horder.2.mpr hhonest _ _ hqueued) (by decide)

/-- The state before the first call of `kschedule` in that run, and what the call leaves. -/
def first_call : Option (Kernel single × Kernel single) :=
  (Kernel.kernel_init_main stale_tasks (fun _ => 1) (fun _ => 2) ⟨0, by decide⟩ fun _ => 100).bind fun start =>
    (Runs.run (step id ⟨0, by decide⟩) start stale_run.dropLast).bind fun k =>
      (Kernel.kschedule id ⟨0, by decide⟩ (102, ⟨.ready, 0, true, true, .kernel⟩) 1 k).map fun r => (k, r.2)

theorem first_call_result : first_call.map (fun r =>
    decide ((r.1.schedulers .kernel).ready_queue.queues ⟨1, by decide⟩ = [r.2.current_task ⟨0, by decide⟩] ∧
      (r.2.schedulers .kernel).ready_queue.queues ⟨1, by decide⟩ = [] ∧
      (r.2.schedulers ⟨1, by decide⟩).ready_queue.queues ⟨3, by decide⟩ = [13] ∧
      ∀ p, (r.2.schedulers p).ready_queue.queues ⟨0, by decide⟩ = [])) = some true := by
  decide +kernel

/-- At that call the foremost process is the kernel, whose task is the most urgent one. -/
theorem dispatch_order_first : ∃ k, Honest k (⟨0, by decide⟩ : Cpu single) ∧
    ∃ k', TakenFrom k k' ⟨0, by decide⟩ .kernel ⟨1, by decide⟩ ∧ traps k' ⟨0, by decide⟩ = [] ∧
      (k'.schedulers ⟨1, by decide⟩).ready_queue.queues ⟨3, by decide⟩ = [13] := by
  obtain ⟨⟨k, k'⟩, hcall, hfacts⟩ := Option.map_eq_some_iff.mp first_call_result
  obtain ⟨hbefore, hafter, hleft, hnone⟩ := of_decide_eq_true hfacts
  simp only [first_call, Option.bind_eq_some_iff, Option.map_eq_some_iff, Prod.mk.injEq] at hcall
  obtain ⟨start, hstart, k₁, hrun, ⟨res, k₁'⟩, hk, rfl, rfl⟩ := hcall
  have htaken : TakenFrom k₁ k₁' ⟨0, by decide⟩ .kernel ⟨1, by decide⟩ := ⟨[], hbefore, hafter⟩
  have hsound : Sound k₁ := Runs.run_invariant (fun _ _ _ hk h => sound_step rfl hk h) _
    (sound_start rfl hstart) hrun
  have horder := kschedule_order rfl (fun _ => rfl) (Or.inl rfl) hsound hk htaken
  refine ⟨k₁, horder.2.mp fun q m hq => ?_, k₁', htaken, horder.1, hleft⟩
  have hm : (m : ℕ) ≠ 0 := by
    intro hzero
    obtain rfl : m = ⟨0, by decide⟩ := Fin.ext hzero
    exact hq.2.2 (hnone q)
  simp only [Level.prio]
  omega

end Vsched2.PriorityOrder
