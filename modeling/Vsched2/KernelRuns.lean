import Vsched2.KernelData
import Vsched2.Conservation

/-! The schedulers of the kernel as runs of one CPU of the machine.

    A round that finds no task and the two checks before `wait_irqs` are choices the machine has. -/

namespace Vsched2

variable {cfg : Config}

/-! ### Runs of one CPU of the machine -/

namespace Machine

variable {m m' m₁ : Machine cfg} {c d : Cpu cfg} {t : TaskPtr}

/-- The steps of CPU `c` alone lead from `m` to `m'`. -/
def Leads (c : Cpu cfg) (m m' : Machine cfg) : Prop :=
  ∃ acts, Runs.run step m acts = some m' ∧ ∀ a ∈ acts, a.cpu = some c

theorem Leads.refl (m : Machine cfg) : Leads c m m := ⟨[], rfl, by simp⟩

theorem Leads.trans (h : Leads c m m₁) (h' : Leads c m₁ m') : Leads c m m' := by
  obtain ⟨as, hrun, ha⟩ := h
  obtain ⟨bs, hrun', hb⟩ := h'
  refine ⟨as ++ bs, by rw [Runs.run_append, hrun, Option.bind_some, hrun'], fun a hmem => ?_⟩
  rcases List.mem_append.mp hmem with hmem | hmem
  · exact ha a hmem
  · exact hb a hmem

theorem Leads.of_step {a : Act cfg} (hs : m.step a = some m') (ha : a.cpu = some c) : Leads c m m' :=
  ⟨[a], by simp [hs], by simpa using ha⟩

theorem Leads.step {a : Act cfg} (h : Leads c m m₁) (hs : m₁.step a = some m') (ha : a.cpu = some c) : Leads c m m' :=
  h.trans (.of_step hs ha)

/-- The other CPUs stay where they are. -/
theorem Leads.loc (h : Leads c m m') (hd : d ≠ c) : m'.loc d = m.loc d := by
  obtain ⟨acts, hrun, hcpu⟩ := h
  induction acts generalizing m with
  | nil =>
    rw [Runs.run_nil, Option.some.injEq] at hrun
    rw [hrun]
  | cons a as ih =>
    rw [Runs.run_cons, Option.bind_eq_some_iff] at hrun
    obtain ⟨m₂, hs, hrun⟩ := hrun
    rw [ih hrun fun b hb => hcpu b (List.mem_cons_of_mem a hb)]
    rcases step_loc hs d with heq | ⟨ha, -⟩
    · exact heq
    · exact absurd (Option.some.inj ((hcpu a List.mem_cons_self).symm.trans ha)) (Ne.symm hd)

/-- No CPU makes user tasks. -/
theorem user_pids_of_cpu {a : Act cfg} (m : Machine cfg) (ha : a.cpu = some c) : UserPids m a := by
  intro task harr
  cases a <;> simp [Act.arrives, Act.cpu] at harr ha

/-- What the system keeps beside the data is untouched. -/
structure SameGhost (m m' : Machine cfg) : Prop where
  known : m'.known = m.known
  waits : m'.waits = m.waits
  waking : m'.waking = m.waking
  stage : m'.stage = m.stage
  next_info : m'.next_info = m.next_info

theorem SameGhost.refl (m : Machine cfg) : SameGhost m m := ⟨rfl, rfl, rfl, rfl, rfl⟩

theorem SameGhost.trans (h : SameGhost m m₁) (h' : SameGhost m₁ m') : SameGhost m m' where
  known := h'.known.trans h.known
  waits := h'.waits.trans h.waits
  waking := h'.waking.trans h.waking
  stage := h'.stage.trans h.stage
  next_info := h'.next_info.trans h.next_info

namespace SameGhost

theorem set_pc (h : SameGhost m m') (pc : Pc cfg) : SameGhost m (m'.set_pc c pc) :=
  ⟨h.known, h.waits, h.waking, h.stage, h.next_info⟩

theorem set_current (h : SameGhost m m') : SameGhost m (m'.set_current c t) :=
  ⟨h.known, h.waits, h.waking, h.stage, h.next_info⟩

theorem set_sleeping (h : SameGhost m m') (b : Bool) : SameGhost m (m'.set_sleeping c b) :=
  ⟨h.known, h.waits, h.waking, h.stage, h.next_info⟩

theorem set_in_kernel (h : SameGhost m m') (b : Bool) : SameGhost m (m'.set_in_kernel c b) :=
  ⟨h.known, h.waits, h.waking, h.stage, h.next_info⟩

theorem set_vspace (h : SameGhost m m') (p : Pid cfg) : SameGhost m (m'.set_vspace c p) :=
  ⟨h.known, h.waits, h.waking, h.stage, h.next_info⟩

theorem set_ready (h : SameGhost m m') (p : Pid cfg) (l : Level cfg) (q : List TaskPtr) :
    SameGhost m (m'.set_ready p l q) :=
  ⟨h.known, h.waits, h.waking, h.stage, h.next_info⟩

theorem set_state (h : SameGhost m m') (st : TaskState) : SameGhost m (m'.set_state t st) :=
  ⟨h.known, h.waits, h.waking, h.stage, h.next_info⟩

theorem save_context (h : SameGhost m m') (b : Bool) : SameGhost m (m'.save_context t b) :=
  ⟨h.known, h.waits, h.waking, h.stage, h.next_info⟩

end SameGhost

/-- Whatever is somewhere exists. -/
theorem Inv.known_of_at (hI : Inv m) {P : TaskPlace cfg} (hat : m.At t P) : m.known t = true := by
  cases hk : m.known t with
  | true => rfl
  | false =>
    obtain ⟨st, hv⟩ := (hI.legit t).of_unknown hk
    rw [at_iff, hv] at hat
    cases P <;> simp [View.At] at hat

end Machine

/-! ### Dispatches -/

namespace Machine

variable {k k' : Kernel cfg} {m m' : Machine cfg} {c : Cpu cfg} {p : Pid cfg} {t : TaskPtr}

/-- The task that is dispatched existed before, or it is the new trap handler. -/
inductive Hires (m : Machine cfg) (fresh t : TaskPtr) (m' : Machine cfg) : Prop where
  | old (hk : m.known t = true) (hg : SameGhost m m')
  | new (ht : t = fresh) (hknown : m'.known = Function.update m.known t true) (hwaits : m'.waits = m.waits)
      (hwaking : m'.waking = m.waking) (hstage : m'.stage = Function.update m.stage t (some .top))
      (hinfo : m'.next_info = m.next_info)

/-- Steps that leave the ghost state alone can follow. -/
theorem Hires.step {fresh : TaskPtr} {m₁ : Machine cfg} (h : Hires m fresh t m₁) (hg : SameGhost m₁ m') :
    Hires m fresh t m' := by
  cases h with
  | old hk hg₁ => exact .old hk (hg₁.trans hg)
  | new ht hk hw hwk hst hi =>
    exact .new ht (hg.known.trans hk) (hg.waits.trans hw) (hg.waking.trans hwk) (hg.stage.trans hst)
      (hg.next_info.trans hi)

theorem Hires.after {fresh : TaskPtr} {m₁ : Machine cfg} (hg : SameGhost m m₁) (h : Hires m₁ fresh t m') :
    Hires m fresh t m' := by
  cases h with
  | old hk hg₁ => exact .old (by rwa [hg.known] at hk) (hg.trans hg₁)
  | new ht hk hw hwk hst hi =>
    exact .new ht (by rw [hk, hg.known]) (hw.trans hg.waits) (hwk.trans hg.waking) (by rw [hst, hg.stage])
      (hi.trans hg.next_info)

/-- The trap whose handler `take_task` looks for names the same process on both sides. -/
theorem Inv.item_pid (hI : Inv m) (hA : Agrees k m) {item : TrapItem} (hmem : item ∈ m.traps c) :
    item.pid m.tasks = item.pid k.tasks := by
  cases ht : item.task with
  | none => simp [TrapItem.pid, ht]
  | some t =>
    have hk := hI.known_of_at (P := .trapped c) ⟨item, hmem, ht⟩
    simp [TrapItem.pid, ht, hA.tasks t hk]

/-- `create_new_handler` reads the state of the new handler only. -/
theorem create_new_handler_congr {h : TaskPtr} {ts ts' ts₁ : Tasks cfg} (hst : (ts' h).state = (ts h).state)
    (hc : create_new_handler h ts = some ts₁) : create_new_handler h ts' = some (ts'.set_state h .ready) := by
  cases hs : (ts h).state <;> simp [create_new_handler, hst, hs, TaskState.match_set] at hc ⊢

/-- The accesses of `take_task` after its look into an empty pool: `new_handler`, and its pid. -/
theorem leads_new_handler (hA : Agrees k m) {pid : Pid cfg} (hpc : m.pc c = .idle_handler pid)
    (hidle : m.idle_handlers = []) {fresh : TaskPtr × Task cfg} (hfresh : m.known fresh.1 = false)
    (hker : fresh.2.is_kernel = true) {ts : Tasks cfg}
    (hnew : create_new_handler fresh.1 (Function.update k.tasks fresh.1 fresh.2) = some ts) (row : Row cfg) :
    ∃ m₁, Leads c m m₁ ∧ m₁.pc c = .popped fresh.1 .kernel ∧ m₁.known fresh.1 = true ∧
      Hires m fresh.1 fresh.1 m₁ ∧
      Agrees (k.put .kernel { k.schedulers .kernel with trap_wait_queue :=
        { (k.schedulers .kernel).trap_wait_queue with idle_handlers := [] } } (ts.set_pid fresh.1 pid) row) m₁ := by
  obtain rfl := create_new_handler_eq hnew
  have h1 : m.step (.next c) = some (m.set_pc c (.no_handler pid)) := by
    simp only [step, next, hpc, hidle, get_idle_handler]
    rw [← hidle]
  obtain ⟨ts', hts⟩ : ∃ ts' : Tasks cfg, ts' = Function.update m.tasks fresh.1 fresh.2 := ⟨_, rfl⟩
  have hcreate : (m.set_pc c (.no_handler pid)).create fresh.1 fresh.2 (some .top) =
      { (m.create fresh.1 fresh.2 (some .top)).set_pc c (.no_handler pid) with tasks := ts' } := by
    rw [hts]
    rfl
  have hnew' : create_new_handler fresh.1 ts' = some (ts'.set_state fresh.1 .ready) :=
    create_new_handler_congr (by simp [hts]) hnew
  have h2 : (m.set_pc c (.no_handler pid)).step (.new_handler c fresh.1 fresh.2) = some
      ({ m.create fresh.1 fresh.2 (some .top) with tasks := ts'.set_state fresh.1 .ready }.set_pc c
        (.set_pid fresh.1 pid)) := by
    have hpc₁ : (m.set_pc c (.no_handler pid)).pc c = .no_handler pid := by simp [set_pc]
    have hk₁ : (m.set_pc c (.no_handler pid)).known fresh.1 = false := hfresh
    simp only [step, new_handler, hpc₁, hk₁, hker, and_self, if_true, hcreate, hnew']
    simp [set_pc, create]
  have h3 : ({ m.create fresh.1 fresh.2 (some .top) with tasks := ts'.set_state fresh.1 .ready }.set_pc c
        (.set_pid fresh.1 pid)).step (.next c) = some ({ m.create fresh.1 fresh.2 (some .top) with
        tasks := (ts'.set_state fresh.1 .ready).set_pid fresh.1 pid }.set_pc c (.popped fresh.1 .kernel)) := by
    simp [step, next, set_pc]
  refine ⟨_, ((Leads.of_step h1 rfl).step h2 rfl).step h3 rfl, by simp [set_pc], by simp [set_pc, create],
    .new rfl rfl rfl rfl rfl rfl, ?_⟩
  obtain ⟨g1, g2, g3, g4, g5, g6, g7, g8, g9⟩ := hA.put_traps
    { (k.schedulers .kernel).trap_wait_queue with idle_handlers := [] } (a := k.tasks) hA.tasks row
  refine ⟨fun u hu => ?_, g2, hA.traps, hidle, g5, g6, g7, g8, g9⟩
  rcases eq_or_ne u fresh.1 with rfl | hne
  · simp [Kernel.put, set_pc, Tasks.set_pid, Tasks.set_state, hts]
  · have hu' : m.known u = true := by simpa [set_pc, create, hne] using hu
    simp [Kernel.put, set_pc, Tasks.set_pid, Tasks.set_state, hts, hne, hA.tasks u hu']

/-- The accesses of `take_task` that take the first handler out of the pool, where it is `Blocked`. -/
theorem leads_idle_handler (hA : Agrees k m) {pid : Pid cfg} (hpc : m.pc c = .idle_handler pid) {h : TaskPtr}
    {rest : List TaskPtr} (hidle : m.idle_handlers = h :: rest) (hk : m.known h = true)
    (hst : (k.tasks h).state = .blocked) (fresh : TaskPtr) (row : Row cfg) :
    ∃ m₁, Leads c m m₁ ∧ m₁.pc c = .popped h .kernel ∧ m₁.known h = true ∧ Hires m fresh h m₁ ∧
      Agrees (k.put .kernel { k.schedulers .kernel with trap_wait_queue :=
        { (k.schedulers .kernel).trap_wait_queue with idle_handlers := rest } }
        ((k.tasks.set_state h (k.tasks h).state.wake_blocked).set_pid h pid) row) m₁ := by
  have hsame := hA.tasks h hk
  have h1 : m.step (.next c) = some
      ({ m with idle_handlers := rest, tasks := m.tasks.set_state h .ready }.set_pc c (.set_pid h pid)) := by
    have hst' : (m.tasks h).state = .blocked := by rw [hsame, hst]
    simp only [step, next, hpc, hidle, get_idle_handler, hst']
    simp [set_pc, TaskState.wake_blocked, TaskState.match_set]
  have h2 : ({ m with idle_handlers := rest, tasks := m.tasks.set_state h .ready }.set_pc c (.set_pid h pid)).step
      (.next c) = some ({ m with
        idle_handlers := rest
        tasks := (m.tasks.set_state h .ready).set_pid h pid }.set_pc c (.popped h .kernel)) := by
    simp [step, next, set_pc]
  refine ⟨_, (Leads.of_step h1 rfl).step h2 rfl, by simp [set_pc], hk, .old hk ⟨rfl, rfl, rfl, rfl, rfl⟩, ?_⟩
  refine Agrees.congr (hA.put_traps { (k.schedulers .kernel).trap_wait_queue with idle_handlers := rest }
    (b := (m.tasks.set_state h .ready).set_pid h pid) (fun u hu => ?_) row)
    ⟨rfl, rfl, rfl, hA.traps, rfl, rfl, rfl, rfl, rfl, rfl⟩
  rcases eq_or_ne u h with rfl | hne
  · simp [Tasks.set_pid, Tasks.set_state, hsame, hst, TaskState.wake_blocked, TaskState.match_set]
  · simp [Tasks.set_pid, Tasks.set_state, hne, hA.tasks u hu]

/-- The accesses of `take_task` for a pending trap, up to the return of `pop_task`. -/
theorem leads_take_trap (hI : Inv m) (hA : Agrees k m) {b : Bool} (hpc : m.pc c = .sched b) (hin : m.in_kernel c = true)
    {fresh : TaskPtr × Task cfg} (hfresh : m.known fresh.1 = false) (hker : fresh.2.is_kernel = true)
    {handler : TaskPtr} {prio : ℤ} {q : TrapWaitQueue cfg} {ts : Tasks cfg}
    (ht : (k.schedulers .kernel).trap_wait_queue.take_task k.tasks c fresh = some ((some handler, prio), q, ts))
    (row : Row cfg) :
    ∃ m₁, Leads c m m₁ ∧ m₁.pc c = .popped handler .kernel ∧ m₁.known handler = true ∧
      Hires m fresh.1 handler m₁ ∧
      Agrees (k.put .kernel { k.schedulers .kernel with trap_wait_queue := q } ts row) m₁ := by
  simp only [TrapWaitQueue.take_task] at ht
  cases hq : (k.schedulers .kernel).trap_wait_queue.queues c with
  | nil => simp [hq] at ht
  | cons item items =>
    have hqm : m.traps c = item :: items := by rw [hA.traps, hq]
    have hpid := hI.item_pid hA (hqm ▸ List.mem_cons_self : item ∈ m.traps c)
    simp only [hq, ← hpid] at ht
    have h1 : m.step (.take_trap c) = some (m.set_pc c (.idle_handler (item.pid m.tasks))) := by
      simp [step, take_trap, hpc, hqm, hin]
    have hA₀ : Agrees k (m.set_pc c (.idle_handler (item.pid m.tasks))) :=
      hA.congr ⟨rfl, rfl, rfl, rfl, rfl, rfl, rfl, rfl, rfl, rfl⟩
    have hpc₀ : (m.set_pc c (.idle_handler (item.pid m.tasks))).pc c = .idle_handler (item.pid m.tasks) := by
      simp [set_pc]
    have hg : SameGhost m (m.set_pc c (.idle_handler (item.pid m.tasks))) := ⟨rfl, rfl, rfl, rfl, rfl⟩
    cases hidle : (k.schedulers .kernel).trap_wait_queue.idle_handlers with
    | nil =>
      simp only [hidle, get_idle_handler, Option.map_eq_some_iff, Prod.mk.injEq] at ht
      obtain ⟨ts₁, hnew, ⟨hh, -⟩, rfl, rfl⟩ := ht
      obtain rfl : fresh.1 = handler := Option.some.inj hh
      obtain ⟨m₁, hl, hpc₁, hk, hhires, hA₁⟩ :=
        leads_new_handler hA₀ hpc₀ (hA.idle_handlers.trans hidle) hfresh hker hnew row
      exact ⟨m₁, (Leads.of_step h1 rfl).trans hl, hpc₁, hk, hhires.after hg, hA₁⟩
    | cons h rest =>
      simp only [hidle, get_idle_handler] at ht
      have hidlem : m.idle_handlers = h :: rest := hA.idle_handlers.trans hidle
      have hk : m.known h = true := hI.known_of_at (P := .idle) (by simp [At, hidlem])
      cases hst : (k.tasks h).state with
      | ready | running | exited | blocking => simp [hst] at ht
      | blocked =>
        rw [hst] at ht
        simp only [Option.some.injEq, Prod.mk.injEq] at ht
        obtain ⟨⟨rfl, -⟩, rfl, rfl⟩ := ht
        obtain ⟨m₁, hl, hpc₁, hk₁, hhires, hA₁⟩ := leads_idle_handler hA₀ hpc₀ hidlem hk hst fresh.1 row
        rw [hst] at hA₁
        exact ⟨m₁, (Leads.of_step h1 rfl).trans hl, hpc₁, hk₁, hhires.after hg, hA₁⟩

/-- `ktask_schedule` after the pop of a task by the kernel. -/
theorem leads_run_task (hA : Agrees k m) (hpc : m.pc c = .popped t .kernel) (hk : m.known t = true) :
    ∃ m', Leads c m m' ∧ m'.pc c = .run_task ∧ SameGhost m m' ∧
      Agrees ((k.switch_vspace c (k.tasks t).pid).set_current_task c t) m' := by
  have h1 : m.step (.next c) = some (((m.set_vspace c (m.tasks t).pid).set_current c t).set_pc c .run_task) := by
    simp only [step, next, hpc]
  refine ⟨_, .of_step h1 rfl, by simp [set_pc], ((SameGhost.refl m).set_vspace _).set_current.set_pc _, ?_⟩
  have hA₁ := ((hA.switch_vspace (c := c) (m.tasks t).pid).set_current (c := c) t).set_pc (c := c) .run_task
  rw [hA.tasks t hk] at hA₁ ⊢
  exact hA₁

/-- The pop of a ready task, by the kernel. -/
theorem leads_pop_ready (hA : Agrees k m) {b : Bool} (hpc : m.pc c = .sched b) (hin : m.in_kernel c = true)
    {l : Level cfg} {rest : List TaskPtr} (hq : (k.schedulers .kernel).ready_queue.queues l = t :: rest)
    (row : Row cfg) :
    ∃ m', Leads c m m' ∧ m'.pc c = .popped t .kernel ∧ SameGhost m m' ∧
      Agrees (k.put .kernel { k.schedulers .kernel with
        ready_queue := ((k.schedulers .kernel).ready_queue.take_level l t rest).2 } k.tasks row) m' := by
  have hqm : m.ready .kernel l = t :: rest := by rw [hA.ready, hq]
  have h1 : m.step (.pop_ready c .kernel l) = some ((m.set_ready .kernel l rest).set_pc c (.popped t .kernel)) := by
    simp [step, pop_ready, hpc, hqm, hin]
  exact ⟨_, .of_step h1 rfl, by simp [set_pc], ((SameGhost.refl m).set_ready _ _ _).set_pc _,
    (hA.put_ready (ReadyQueue.take_level_queues _ l t rest) row).set_pc _⟩

/-- The pop of a ready task from a user scheduler, after `switch_vspace`, with `set_current_task`. -/
theorem leads_krun_utask (hA : Agrees k m) {b : Bool} (hpc : m.pc c = .sched b) (hin : m.in_kernel c = true)
    (hp : p ≠ .kernel) {l : Level cfg} {rest : List TaskPtr}
    (hq : (k.schedulers p).ready_queue.queues l = t :: rest) (row : Row cfg) :
    ∃ m', Leads c m m' ∧ m'.pc c = .krun_utask ∧ SameGhost m m' ∧
      Agrees (((k.switch_vspace c p).put p { k.schedulers p with ready_queue :=
        ((k.schedulers p).ready_queue.take_level l t rest).2 } k.tasks row).set_current_task c t) m' := by
  have hqm : m.ready p l = t :: rest := by rw [hA.ready, hq]
  have h1 : m.step (.pop_ready c p l) =
      some (((m.set_vspace c p).set_ready p l rest).set_pc c (.popped t .krun)) := by
    simp [step, pop_ready, hpc, hqm, hin, hp]
  have h2 : (((m.set_vspace c p).set_ready p l rest).set_pc c (.popped t .krun)).step (.next c) =
      some (((((m.set_vspace c p).set_ready p l rest).set_pc c (.popped t .krun)).set_current c t).set_pc c
        .krun_utask) := by
    have hpc' : (((m.set_vspace c p).set_ready p l rest).set_pc c (.popped t .krun)).pc c = .popped t .krun := by
      simp [set_pc]
    simp only [step, next, hpc']
  refine ⟨_, (Leads.of_step h1 rfl).step h2 rfl, by simp [set_pc],
    ((((SameGhost.refl m).set_vspace _).set_ready _ _ _).set_pc _).set_current.set_pc _, ?_⟩
  have hA₁ := hA.switch_vspace (c := c) p
  have hq' : ((k.schedulers p).ready_queue.take_level l t rest).2.queues =
      Function.update ((k.switch_vspace c p).schedulers p).ready_queue.queues l rest := by
    rw [Kernel.switch_vspace_schedulers]
    exact ReadyQueue.take_level_queues _ l t rest
  have hA₂ := hA₁.put_ready hq' row
  rw [Kernel.switch_vspace_schedulers, Kernel.switch_vspace_tasks] at hA₂
  have hA₃ := ((hA₂.set_pc (c := c) (.popped t .krun)).set_current (c := c) t).set_pc (c := c) .krun_utask
  exact hA₃

/-- The pop of a ready task by a user scheduler in its own process. -/
theorem leads_run_utask (hA : Agrees k m) {b : Bool} (hpc : m.pc c = .sched b) (hin : m.in_kernel c = false)
    (hp : p ≠ .kernel) {l : Level cfg} {rest : List TaskPtr}
    (hq : (k.schedulers p).ready_queue.queues l = t :: rest) (row : Row cfg) :
    ∃ m', Leads c m m' ∧ m'.pc c = .run_task ∧ SameGhost m m' ∧
      Agrees ((k.put p { k.schedulers p with ready_queue :=
        ((k.schedulers p).ready_queue.take_level l t rest).2 } k.tasks row).set_current_task c t) m' := by
  have hqm : m.ready p l = t :: rest := by rw [hA.ready, hq]
  have h1 : m.step (.pop_ready c p l) = some ((m.set_ready p l rest).set_pc c (.popped t .user)) := by
    simp [step, pop_ready, hpc, hqm, hin, hp]
  have h2 : ((m.set_ready p l rest).set_pc c (.popped t .user)).step (.next c) =
      some ((((m.set_ready p l rest).set_pc c (.popped t .user)).set_current c t).set_pc c .run_task) := by
    have hpc' : ((m.set_ready p l rest).set_pc c (.popped t .user)).pc c = .popped t .user := by simp [set_pc]
    simp only [step, next, hpc']
  have hA₁ := hA.put_ready (ReadyQueue.take_level_queues (k.schedulers p).ready_queue l t rest) row
  have hA₂ := ((hA₁.set_pc (c := c) (.popped t .user)).set_current (c := c) t).set_pc (c := c) .run_task
  exact ⟨_, (Leads.of_step h1 rfl).step h2 rfl, by simp [set_pc],
    (((SameGhost.refl m).set_ready _ _ _).set_pc _).set_current.set_pc _, hA₂⟩

/-- A round that finds no task, and may have switched the address space. -/
theorem leads_fail (hpc : ∃ b, m.pc c = .sched b) (hin : m.in_kernel c = true)
    (hA : Agrees k m ∨ ∃ p, Agrees k (m.set_vspace c p)) :
    ∃ m', Leads c m m' ∧ m'.pc c = .wait_context ∧ SameGhost m m' ∧ Agrees k m' := by
  obtain ⟨b, hpc⟩ := hpc
  obtain ⟨p, hA⟩ : ∃ p, Agrees k (m.set_vspace c p) := by
    rcases hA with hA | hA
    · exact ⟨m.current_vspace c, by simpa [set_vspace] using hA⟩
    · exact hA
  have h1 : m.step (.fail c p) = some ((m.set_vspace c p).set_pc c .wait_context) := by
    simp [step, fail, hpc, hin]
  exact ⟨_, .of_step h1 rfl, by simp [set_pc], ((SameGhost.refl m).set_vspace _).set_pc _, hA.set_pc _⟩

/-- How a round of the loop ends: without a task, or with one for `run_task` or `krun_utask`. -/
structure Round (c : Cpu cfg) (fresh : TaskPtr) (m : Machine cfg) (res : ℕ) (k' : Kernel cfg) (m' : Machine cfg) :
    Prop where
  leads : Leads c m m'
  data : Agrees k' m'
  ends : res = 2 ∧ m'.pc c = .wait_context ∧ SameGhost m m' ∨
    (res = 0 ∧ m'.pc c = .run_task ∨ res = 1 ∧ m'.pc c = .krun_utask) ∧ Hires m fresh (k'.current_task c) m'

theorem ktask_round {user_data : Pid cfg → Pid cfg} (huser : ∀ p, p ≠ .kernel → user_data p = p) (hI : Inv m)
    (hA : Agrees k m) (hO : k.Orderly) {b : Bool} (hpc : m.pc c = .sched b) (hin : m.in_kernel c = true)
    {fresh : TaskPtr × Task cfg} (hfresh : m.known fresh.1 = false) (hker : fresh.2.is_kernel = true) {res : ℕ}
    (h : k.ktask_schedule user_data c p fresh = some (res, k')) : ∃ m', Round c fresh.1 m res k' m' := by
  simp only [Kernel.ktask_schedule] at h
  split at h
  · rename_i hp
    subst hp
    obtain ⟨⟨t, k₁⟩, hpop, h⟩ := Option.map_eq_some_iff.mp h
    cases Kernel.pop_task_pops hO hpop with
    | none row =>
      obtain ⟨rfl, rfl⟩ := Prod.mk.inj h
      obtain ⟨m', hl, hpc', hg, hA'⟩ := leads_fail ⟨b, hpc⟩ hin (Or.inl (hA.put_same .kernel row))
      exact ⟨m', hl, hA', Or.inl ⟨rfl, hpc', hg⟩⟩
    | ready l t rest row hq =>
      obtain ⟨rfl, rfl⟩ := Prod.mk.inj h
      obtain ⟨m₁, hl₁, hpc₁, hg₁, hA₁⟩ := leads_pop_ready hA hpc hin hq row
      have hk := hI.known_of_ready (p := .kernel) (l := l) (t := t) (by rw [hA.ready, hq]; simp)
      obtain ⟨m₂, hl₂, hpc₂, hg₂, hA₂⟩ := leads_run_task hA₁ hpc₁ (by rw [hg₁.known]; exact hk)
      refine ⟨m₂, hl₁.trans hl₂, hA₂, Or.inr ⟨Or.inl ⟨rfl, hpc₂⟩, ?_⟩⟩
      simpa [Kernel.set_current_task] using Hires.old hk (hg₁.trans hg₂)
    | trap t q ts row _ hq ht =>
      obtain ⟨rfl, rfl⟩ := Prod.mk.inj h
      obtain ⟨m₁, hl₁, hpc₁, hk₁, hh, hA₁⟩ := leads_take_trap hI hA hpc hin hfresh hker ht row
      obtain ⟨m₂, hl₂, hpc₂, hg₂, hA₂⟩ := leads_run_task hA₁ hpc₁ hk₁
      refine ⟨m₂, hl₁.trans hl₂, hA₂, Or.inr ⟨Or.inl ⟨rfl, hpc₂⟩, ?_⟩⟩
      simpa [Kernel.set_current_task] using hh.step hg₂
  · rename_i hp
    obtain ⟨⟨t, k₁⟩, hpop, h⟩ := Option.map_eq_some_iff.mp h
    rw [Kernel.switch_vspace_current, huser p hp] at hpop
    have hO' : (k.switch_vspace c p).Orderly := hO.congr (by simp) (by simp)
    cases Kernel.pop_task_pops hO' hpop with
    | none row =>
      obtain ⟨rfl, rfl⟩ := Prod.mk.inj h
      obtain ⟨m', hl, hpc', hg, hA'⟩ := leads_fail ⟨b, hpc⟩ hin
        (Or.inr ⟨p, (hA.switch_vspace p).put_same p row⟩)
      exact ⟨m', hl, hA', Or.inl ⟨rfl, hpc', hg⟩⟩
    | ready l t rest row hq =>
      obtain ⟨rfl, rfl⟩ := Prod.mk.inj h
      rw [Kernel.switch_vspace_schedulers] at hq
      have hk := hI.known_of_ready (p := p) (l := l) (t := t) (by rw [hA.ready, hq]; simp)
      obtain ⟨m', hl, hpc', hg, hA'⟩ := leads_krun_utask hA hpc hin hp hq row
      rw [Kernel.switch_vspace_schedulers, Kernel.switch_vspace_tasks]
      refine ⟨m', hl, hA', Or.inr ⟨Or.inr ⟨rfl, hpc'⟩, ?_⟩⟩
      simpa [Kernel.set_current_task] using Hires.old hk hg
    | trap t q ts row hp' => exact absurd hp' hp

/-- `wait_for_runnable_task`, up to `wait_irqs` or its return. -/
theorem leads_wait (hA : Agrees k m) (hpc : m.pc c = .wait_context) (h : k.wait_for_runnable_task c = some k') :
    ∃ m', Leads c m m' ∧ Agrees k' m' ∧ SameGhost m m' ∧
      m'.pc c = if k'.is_sleeping c then .wait_irqs else .sched false := by
  have h1 : m.step (.next c) = some ((m.set_current c (m.scheduler_wait_context c)).set_pc c .wait_sleeping) := by
    simp only [step, next, hpc]
  obtain ⟨m₁, hm₁⟩ : ∃ m₁, m₁ = (m.set_current c (m.scheduler_wait_context c)).set_pc c .wait_sleeping := ⟨_, rfl⟩
  have hpc₁ : m₁.pc c = .wait_sleeping := by simp [hm₁, set_pc]
  have h2 : m₁.step (.next c) = some ((m₁.set_sleeping c true).set_pc c .wait_check) := by
    simp only [step, next, hpc₁]
  rw [← hm₁] at h1
  obtain ⟨m₂, hm₂⟩ : ∃ m₂, m₂ = (m₁.set_sleeping c true).set_pc c .wait_check := ⟨_, rfl⟩
  have hpc₂ : m₂.pc c = .wait_check := by simp [hm₂, set_pc]
  rw [← hm₂] at h2
  have hl₂ : Leads c m m₂ := (Leads.of_step h1 rfl).step h2 rfl
  have hg₂ : SameGhost m m₂ := by
    rw [hm₂, hm₁]
    exact (((SameGhost.refl m).set_current.set_pc _).set_sleeping _).set_pc _
  have hA₂ : Agrees ((k.set_current_task c (k.scheduler_wait_context c)).set_sleeping c true) m₂ := by
    rw [hm₂, hm₁, hA.scheduler_wait_context]
    exact (((hA.set_current _).set_pc _).set_sleeping true).set_pc _
  simp only [Kernel.wait_for_runnable_task] at h
  split at h
  · cases h
  · obtain ⟨next_pid, -, h⟩ := Option.map_eq_some_iff.mp h
    split at h
    · -- the second check has found a task
      have h3 : m₂.step (.check c true) = some (m₂.set_pc c .wait_clear) := by simp [step, check, hpc₂]
      have h4 : (m₂.set_pc c .wait_clear).step (.next c) =
          some (((m₂.set_pc c .wait_clear).set_sleeping c false).set_pc c (.sched false)) := by
        have hpc₃ : (m₂.set_pc c .wait_clear).pc c = .wait_clear := by simp [set_pc]
        simp only [step, next, hpc₃]
      have hA₄ := ((hA₂.set_pc (c := c) .wait_clear).set_sleeping (c := c) false).set_pc (c := c) (.sched false)
      rw [← h]
      refine ⟨_, (hl₂.step h3 rfl).step h4 rfl, hA₄, ((hg₂.set_pc _).set_sleeping _).set_pc _, by simp [set_pc]⟩
    · have h3 : m₂.step (.check c false) = some (m₂.set_pc c .wait_irqs) := by simp [step, check, hpc₂]
      have hA₃ := hA₂.set_pc (c := c) .wait_irqs
      rw [← h]
      exact ⟨_, hl₂.step h3 rfl, hA₃, hg₂.set_pc _, by simp [set_pc]⟩

theorem Leads.inv (h : Leads c m m') (hI : Inv m) : Inv m' := by
  obtain ⟨acts, hrun, -⟩ := h
  exact Runs.run_invariant (fun _ _ _ => step_inv) acts hI hrun

end Machine

namespace Machine

variable {k k' : Kernel cfg} {m : Machine cfg} {c : Cpu cfg} {user_data : Pid cfg → Pid cfg}
  {fresh : TaskPtr × Task cfg} {out : Kernel.Outcome}

/-- How a scheduler of the kernel ends: with a task, or in `wait_irqs`. -/
structure Scheduled (c : Cpu cfg) (fresh : TaskPtr) (k : Kernel cfg) (m : Machine cfg) (out : Kernel.Outcome)
    (k' : Kernel cfg) (m' : Machine cfg) : Prop where
  leads : Leads c m m'
  data : Agrees k' m'
  kept : k.Kept k'
  ends : out = .wait_irqs ∧ m'.pc c = .wait_irqs ∧ SameGhost m m' ∨
    (out = .returns 0 ∧ m'.pc c = .run_task ∨ out = .returns 1 ∧ m'.pc c = .krun_utask) ∧
      Hires m fresh (k'.current_task c) m'

theorem utok_scheduled (huser : ∀ p, p ≠ .kernel → user_data p = p) (hker : fresh.2.is_kernel = true) :
    ∀ {fuel : ℕ} {p : Pid cfg} {k : Kernel cfg} {m : Machine cfg} {b : Bool}, Inv m → Agrees k m → k.Orderly →
    m.pc c = .sched b → m.in_kernel c = true → m.known fresh.1 = false →
    Kernel.utok_schedule_until user_data c fresh fuel p k = some (out, k') →
    ∃ m', Scheduled c fresh.1 k m out k' m' := by
  intro fuel
  induction fuel with
  | zero =>
    intro p k m b _ _ _ _ _ _ h
    cases h
  | succ fuel ih =>
    intro p k m b hI hA hO hpc hin hfresh h
    simp only [Kernel.utok_schedule_until, Option.bind_eq_some_iff] at h
    obtain ⟨⟨res, k₁⟩, hround, h⟩ := h
    have hk₁ := Kernel.ktask_kept hround
    obtain ⟨m₁, hr⟩ := ktask_round huser hI hA hO hpc hin hfresh hker hround
    rcases hr.ends with ⟨rfl, hpc₁, hg₁⟩ | ⟨hres, hh⟩
    · -- no task: the second check decides whether there is another round
      simp only [ne_eq, not_true_eq_false, if_false, Option.bind_eq_some_iff] at h
      obtain ⟨k₂, hwait, h⟩ := h
      obtain ⟨m₂, hl₂, hA₂, hg₂, hpc₂⟩ := leads_wait hr.data hpc₁ hwait
      have hk₂ := hk₁.trans (Kernel.wait_kept hwait)
      have hl := hr.leads.trans hl₂
      have hg := hg₁.trans hg₂
      cases hsleep : k₂.is_sleeping c with
      | true =>
        simp only [hsleep, if_true, Option.some.injEq, Prod.mk.injEq] at h hpc₂
        obtain ⟨rfl, rfl⟩ := h
        exact ⟨m₂, hl, hA₂, hk₂, Or.inl ⟨rfl, hpc₂, hg⟩⟩
      | false =>
        simp only [hsleep, Bool.false_eq_true, if_false, Option.bind_eq_some_iff] at h hpc₂
        obtain ⟨q, -, h⟩ := h
        have hin₂ : m₂.in_kernel c = true := by rw [hA₂.in_kernel, hk₂.in_kernel, ← hA.in_kernel, hin]
        obtain ⟨m', hs⟩ := ih (hl.inv hI) hA₂ (hk₂.orderly hO) hpc₂ hin₂ (by rw [hg.known]; exact hfresh) h
        refine ⟨m', hl.trans hs.leads, hs.data, hk₂.trans hs.kept, ?_⟩
        rcases hs.ends with ⟨rfl, hpc', hg'⟩ | ⟨hout, hh⟩
        · exact Or.inl ⟨rfl, hpc', hg.trans hg'⟩
        · exact Or.inr ⟨hout, .after hg hh⟩
    · have hne : res ≠ 2 := by omega
      simp only [hne, ne_eq, not_false_eq_true, if_true, Option.some.injEq, Prod.mk.injEq] at h
      obtain ⟨rfl, rfl⟩ := h
      refine ⟨m₁, hr.leads, hr.data, hk₁, Or.inr ⟨?_, hh⟩⟩
      rcases hres with ⟨rfl, hpc₁⟩ | ⟨rfl, hpc₁⟩
      · exact Or.inl ⟨rfl, hpc₁⟩
      · exact Or.inr ⟨rfl, hpc₁⟩

theorem kscheduled (huser : ∀ p, p ≠ .kernel → user_data p = p) (hker : fresh.2.is_kernel = true) {fuel : ℕ} {b : Bool}
    (hI : Inv m) (hA : Agrees k m) (hO : k.Orderly) (hpc : m.pc c = .sched b) (hin : m.in_kernel c = true)
    (hfresh : m.known fresh.1 = false) (h : Kernel.kschedule_until user_data c fresh fuel k = some (out, k')) :
    ∃ m', Scheduled c fresh.1 k m out k' m' := by
  rw [Kernel.kschedule_until_eq, Option.bind_eq_some_iff] at h
  obtain ⟨p, -, h⟩ := h
  exact utok_scheduled huser hker hI hA hO hpc hin hfresh h

end Machine

end Vsched2
