import Vsched2.TrapHistory
import Vsched2.Exclusivity
import Vsched2.TaskStates

/-! A trap is handled in the address space of the trapped task.

    The handler's pid carries the binding: `trap_handler` sets it before `handle`, and a dispatch of
    the kernel switches to it. It is rewritten only while the handler is in the pool, on its way out of
    it, or at the head of its loop, and no trapped task is there. -/

namespace Vsched2

variable {cfg : Config}

/-- The task that runs, or is about to run, as a user task. -/
def Pc.user_task (current : TaskPtr) : Pc cfg → Option TaskPtr
  | .popped t .krun | .popped t .user => some t
  | .krun_utask | .user_run_task => some current
  | _ => none

/-- The task runs, or is about to run, in the address space the CPU has. -/
def Pc.bound : Pc cfg → Bool
  | .run | .own | .run_task => true
  | _ => false

theorem Flow.not_to_sync_push {pc : Pc cfg} (h : Flow pc .sync_push) : False := by
  cases h with
  | leave _ h' => simp at h'

theorem Flow.not_to_krun_utask {pc : Pc cfg} (h : Flow pc .krun_utask) : False := by
  cases h with
  | leave _ h' => simp at h'

namespace HandlerVspace

open Machine

variable {m m' : Machine cfg} {a : Act cfg} {c d : Cpu cfg} {t h : TaskPtr} {item : TrapItem}

/-- No handler, or a handler inside `handle`. -/
def Steady (m : Machine cfg) (t : TaskPtr) : Prop := ∀ st, m.stage t = some st → ∃ item, st = .handle item

/-- A task that has trapped and has not been given back. -/
inductive Trapped (m : Machine cfg) (t : TaskPtr) : Prop where
  | entering (c : Cpu cfg) (hpc : m.pc c = .sync_push) (ht : t = m.current_task c)
  | queued (c : Cpu cfg) (item) (hitem : item ∈ m.traps c) (ht : item.task = some t)
  | held (h st) (h₀ : m.stage h = some st) (ht : st.holds = some t)

/-- A handler in the pool, on its way into it, or taken out of it. -/
inductive Spare (m : Machine cfg) (h : TaskPtr) : Prop where
  | idle (hmem : h ∈ m.idle_handlers)
  | carried (c : Cpu cfg) (hc : (m.pc c).carries = some h)
  | entering (c : Cpu cfg) (hpc : m.pc c = .idle_push) (hh : h = m.current_task c)

/-- The binding of handlers to the address spaces of the tasks they work for. -/
structure Bound (m : Machine cfg) : Prop where
  inv : Inv m
  staffed : Staffed m
  spare : ∀ h, Spare m h → m.stage h = some .top
  trapped : ∀ t, Trapped m t → Steady m t
  at_home : ∀ p l h, h ∈ m.ready p l → m.stage h ≠ none → p = .kernel
  user : ∀ c t, (m.pc c).user_task (m.current_task c) = some t → m.stage t = none
  pid : ∀ h item, m.stage h = some (.handle item) → (m.tasks h).pid = item.pid m.tasks
  vspace : ∀ c item, (m.pc c).bound = true → m.stage (m.current_task c) = some (.handle item) →
    m.current_vspace c = (m.tasks (m.current_task c)).pid

/-! ### A trapped task, and a spare handler, does not run -/

/-- A task that a CPU executes is nowhere else. -/
theorem run_view (hI : Inv m) (hpc : m.pc c = .run) :
    m.view (m.current_task c) = (View.off true .running false).set_cpu c (some .run) := by
  obtain ⟨hst, hv⟩ := hI.view_at hpc rfl (by simp)
  rw [hv, hst.1, hst.2]

theorem Trapped.occurs (ht : Trapped m t) : (∃ c, (m.view t).cpu c = some .sync_push) ∨
    (∃ c, (m.view t).trapped c ≠ 0) ∨ ∃ h, (m.view t).hand h ≠ none := by
  cases ht with
  | entering c hpc ht =>
    refine Or.inl ⟨c, ?_⟩
    rw [view_cpu_self (show m.owner c = some t by simp [owner, hpc, Pc.owner, ht]), hpc]
  | queued c item hitem ht =>
    refine Or.inr (Or.inl ⟨c, ?_⟩)
    exact (List.count_pos_iff.mpr (List.mem_filterMap.mpr ⟨item, hitem, ht⟩)).ne'
  | held h st h₀ ht => exact Or.inr (Or.inr ⟨h, by simp [view_hand h₀, ht]⟩)

theorem Spare.occurs (hs : Spare m h) : (m.view h).idle ≠ 0 ∨ (∃ c, (m.view h).spin c = true) ∨
    ∃ c pc, (m.view h).cpu c = some pc ∧ pc ≠ .run := by
  cases hs with
  | idle hmem => exact Or.inl (List.count_pos_iff.mpr hmem).ne'
  | carried c hc =>
    refine Or.inr ?_
    cases hpc : m.pc c <;> simp only [hpc, Pc.carries, Option.some.injEq, reduceCtorEq] at hc
    · exact Or.inl ⟨c, by simp [view, hpc, Pc.waits_for, hc]⟩
    · exact Or.inr ⟨c, _, view_cpu_self (by simp [owner, hpc, Pc.owner, hc]), by simp [hpc]⟩
  | entering c hpc hh =>
    exact Or.inr (Or.inr ⟨c, _, view_cpu_self (by simp [owner, hpc, Pc.owner, hh]), by simp [hpc]⟩)

theorem Trapped.not_running (ht : Trapped m t) (hI : Inv m) (hpc : m.pc c = .run) : t ≠ m.current_task c := by
  rintro rfl
  have hocc := ht.occurs
  rw [run_view hI hpc] at hocc
  rcases hocc with ⟨d, hd⟩ | ⟨d, hd⟩ | ⟨g, hg⟩
  · rcases eq_or_ne d c with rfl | hdc <;> simp [*] at hd
  · simp at hd
  · simp at hg

theorem Spare.not_running (hs : Spare m h) (hI : Inv m) (hpc : m.pc c = .run) : h ≠ m.current_task c := by
  rintro rfl
  have hocc := hs.occurs
  rw [run_view hI hpc] at hocc
  rcases hocc with hidle | ⟨d, hd⟩ | ⟨d, pc, hd, hne⟩
  · simp at hidle
  · simp at hd
  · rcases eq_or_ne d c with rfl | hdc
    · simp only [View.set_cpu_cpu, Function.update_self, Option.some.injEq] at hd
      exact hne hd.symm
    · simp [hdc] at hd

theorem Trapped.known (ht : Trapped m t) (hI : Inv m) : m.known t = true := by
  by_contra hk
  obtain ⟨st, hv⟩ := (hI.legit t).of_unknown (by simpa [view] using hk)
  have hocc := ht.occurs
  simp [hv] at hocc

/-! ### What a step does to a stage and to a pid -/

/-- The stage of a task that exists changes only by its own access. -/
theorem step_stage (hs : m.step a = some m') (hk : m.known h = true) : m'.stage h = m.stage h ∨
    ∃ c st, a = .next c ∧ m.pc c = .run ∧ h = m.current_task c ∧ m.stage h = some st ∧ m' = m.handler_next c st := by
  cases step_staging hs with
  | same _ hst => exact Or.inl (congrFun hst h)
  | arrive t task _ hnew _ hst | new_handler _ t task _ hnew _ _ hst =>
    have hne : h ≠ t := by
      rintro rfl
      simp [hk] at hnew
    exact Or.inl (by rw [hst, Function.update_of_ne hne])
  | advance c st ha hpc h₀ hm =>
    by_cases hh : h = m.current_task c
    · exact Or.inr ⟨c, st, ha, hpc, hh, hh ▸ h₀, hm⟩
    · exact Or.inl (by rw [hm, handler_next_stage_of_ne st hh])

theorem step_stage_eq (hs : m.step a = some m') (hk : m.known h = true)
    (hout : ∀ c, m.pc c = .run → h ≠ m.current_task c) : m'.stage h = m.stage h := by
  rcases step_stage hs hk with heq | ⟨c, st, -, hpc, hh, -⟩
  · exact heq
  · exact absurd hh (hout c hpc)

theorem Steady.of_eq (hst : Steady m t) (heq : m'.stage t = m.stage t) : Steady m' t := by
  intro st h₀
  exact hst st (heq ▸ h₀)

/-- Only a handler at the head of its loop, or one that has just taken a trap, gets a new pid. -/
theorem step_pid_eq (hB : Bound m) (hs : m.step a = some m') (hk : m.known t = true) (hst : Steady m t) :
    (m'.tasks t).pid = (m.tasks t).pid := by
  obtain ⟨-, -, hpid⟩ := step_task_data hs hk
  rcases hpid with hpid | ⟨c, pid, hpc⟩ | ⟨c, st, -, h₀, hm⟩
  · exact hpid
  · obtain ⟨item, h⟩ := hst _ (hB.spare t (.carried c (by simp [hpc, Pc.carries])))
    cases h
  · obtain ⟨item, rfl⟩ := hst st h₀
    rw [hm]
    rfl

theorem step_item_pid (hB : Bound m) (hs : m.step a = some m') (hT : ∀ t, item.task = some t → Trapped m t) :
    item.pid m'.tasks = item.pid m.tasks := by
  cases hitem : item.task with
  | none => simp [TrapItem.pid, hitem]
  | some t =>
    have ht := hT t hitem
    simpa [TrapItem.pid, hitem] using step_pid_eq hB hs (ht.known hB.inv) (hB.trapped t ht)

/-! ### What each step keeps -/

theorem Advance.holds {st st' : Stage} {es : List (Event cfg)} (hadv : Advance m h st es st') {t : TaskPtr}
    (ht : st'.holds = some t) : st.holds = some t := by
  cases hadv with
  | blocked item u hitem | exited item u hitem => exact hitem.trans ht
  | no_task | push_task | dealloc_task | dealloc => simp [Stage.holds] at ht
  | _ => exact ht

/-- A task traps from its own code. -/
theorem sync_push_from (hs : m.step a = some m') (hd : m'.pc d = .sync_push) :
    m'.current_task d = m.current_task d ∧ (m.pc d = .sync_push ∨ m.in_code d = true) := by
  show (m'.loc d).current_task = _ ∧ _
  change (m'.loc d).pc = _ at hd
  rcases step_loc hs d with heq | ⟨-, hmove⟩
  · rw [heq] at hd ⊢
    exact ⟨rfl, Or.inl hd⟩
  · generalize m'.loc d = l at hmove hd ⊢
    cases hmove with
    | flow hf =>
      obtain rfl := hd
      exact hf.not_to_sync_push.elim
    | trap hcode => exact ⟨rfl, Or.inr hcode⟩
    | take_idle g pid pc' _ _ h => rcases h with rfl | rfl <;> simp at hd
    | set_current t target pc' _ h => rcases h with rfl | rfl <;> simp at hd
    | krun_utask => split at hd <;> simp at hd
    | _ => simp at hd

theorem steady_of_in_code (hc : m.in_code c = true) : Steady m (m.current_task c) := by
  intro st h₀
  simp only [in_code, h₀, Bool.and_eq_true] at hc
  cases st <;> simp at hc
  exact ⟨_, rfl⟩

theorem step_trapped (hB : Bound m) (hs : m.step a = some m') (ht : Trapped m' t) : Steady m' t := by
  have hold : Trapped m t → Steady m' t := fun h =>
    (hB.trapped t h).of_eq (step_stage_eq hs (h.known hB.inv) fun c hpc => h.not_running hB.inv hpc)
  have hhand : ∀ {h st}, m.stage h = some st → st.holds = some t → Steady m' t := fun h₀ hst => hold (.held _ _ h₀ hst)
  cases ht with
  | entering d hpc ht =>
    obtain ⟨hcur, hd⟩ := sync_push_from hs hpc
    rw [hcur] at ht
    rcases hd with hd | hcode
    · exact hold (.entering d hd ht)
    · subst ht
      have hst := steady_of_in_code hcode
      have hrun := run_of_in_code hcode
      have hknown : m.known (m.current_task d) = true := congrArg View.known (run_view hB.inv hrun)
      rcases step_stage hs hknown with heq | ⟨c, st, rfl, hc, hcd, h₀, hm⟩
      · exact hst.of_eq heq
      · -- a handler that goes on does not trap
        obtain ⟨item, rfl⟩ := hst st h₀
        have hne : m'.pc d ≠ m.pc d := by simp [hpc, hrun]
        obtain rfl : c = d := Option.some.inj (cpu_of_pc_ne hs hne)
        simp [hm, handler_next, emit, Machine.set_stage, hrun] at hpc
  | queued d item hitem ht =>
    cases step_trap_effect hB.inv hs with
    | none htr => exact hold (.queued d item (htr ▸ hitem) ht)
    | push c task htr _ _ _ who =>
      rw [htr] at hitem
      rcases eq_or_ne d c with rfl | hdc
      · simp only [Function.update_self, List.mem_append, List.mem_singleton] at hitem
        rcases hitem with hitem | rfl
        · exact hold (.queued d item hitem ht)
        · obtain ⟨hpc, heq⟩ := who t ht
          exact hold (.entering d hpc heq)
      · exact hold (.queued d item (by simpa [hdc] using hitem) ht)
    | pop c item' rest _ _ hq htr =>
      rw [htr] at hitem
      rcases eq_or_ne d c with rfl | hdc
      · exact hold (.queued d item (by simp [hq, show item ∈ rest by simpa using hitem]) ht)
      · exact hold (.queued d item (by simpa [hdc] using hitem) ht)
    | advance c st es st' _ _ _ htr => exact hold (.queued d item (htr ▸ hitem) ht)
  | held h st h₀ ht =>
    cases step_trap_effect hB.inv hs with
    | none _ _ _ hst =>
      have hne : st ≠ .top := by
        rintro rfl
        simp [Stage.holds] at ht
      exact hhand ((hst h st hne).mp h₀) ht
    | push c task _ _ _ hst => exact hhand (hst ▸ h₀) ht
    | pop c item rest _ _ hq _ _ _ hst =>
      rw [hst] at h₀
      rcases eq_or_ne h (m.current_task c) with rfl | hne
      · simp only [Function.update_self, Option.some.injEq] at h₀
        subst h₀
        exact hold (.queued c item (by simp [hq]) ht)
      · exact hhand (by simpa [hne] using h₀) ht
    | advance c st₁ es st' _ h₁ _ _ _ _ hst hadv =>
      rw [hst] at h₀
      rcases eq_or_ne h (m.current_task c) with rfl | hne
      · simp only [Function.update_self, Option.some.injEq] at h₀
        subst h₀
        exact hhand h₁ (Advance.holds hadv ht)
      · exact hhand (by simpa [hne] using h₀) ht

theorem step_spare (hB : Bound m) (hs : m.step a = some m') (hsp : Spare m' h) : m'.stage h = some .top := by
  have hold : Spare m h → m'.stage h = some .top := by
    intro hsp
    have htop := hB.spare h hsp
    have hk : m.known h = true := hB.inv.staged h (by simp [htop])
    rw [step_stage_eq hs hk fun c hpc => hsp.not_running hB.inv hpc, htop]
  cases hsp with
  | idle hmem =>
    rcases step_idle hs hmem with hmem | ⟨c, hpc, hh⟩
    · exact hold (.idle hmem)
    · exact hold (.entering c hpc hh)
  | carried d hd =>
    rcases carries_from hs hd with hc | ⟨pid, hpc⟩ | hmem
    · exact hold (.carried d hc)
    · exact new_handler_stage hs hpc hd
    · exact hold (.idle hmem)
  | entering d hpc hh =>
    obtain ⟨hcur, hd⟩ := idle_push_from hs hpc
    rw [hcur] at hh
    rcases hd with hd | ⟨hrun, h₀⟩
    · exact hold (.entering d hd hh)
    · subst hh
      rcases step_stage hs (hB.inv.staged (m.current_task d) (by simp [h₀])) with heq | ⟨c, st, rfl, hc, -, h₁, hm⟩
      · exact heq.trans h₀
      · obtain rfl : c = d := Option.some.inj (cpu_of_pc_ne hs (by simp [hpc, hrun]))
        obtain rfl : st = .top := Option.some.inj (h₁.symm.trans h₀)
        cases hq : m.traps c with
        | nil =>
          rw [hm]
          simpa [handler_next, hq, Machine.set_pc] using h₀
        | cons item rest => simp [hm, handler_next, hq, emit, Machine.set_stage, hrun] at hpc

/-- Handlers are kernel tasks, and a kernel task goes into the ready queue of the kernel. -/
theorem step_at_home (hB : Bound m) (hs : m.step a = some m') {p : Pid cfg} {l : Level cfg}
    (hmem : h ∈ m'.ready p l) (hst : m'.stage h ≠ none) : p = .kernel := by
  have hker : ∀ {s : Machine cfg} {g : TaskPtr}, Staffed s → s.stage g ≠ none → (s.tasks g).home = .kernel :=
    fun hS hg => by simp [Task.home, hS.kernel _ hg]
  rcases step_ready hs hmem with hold | hent
  · have hk : m.known h = true := congrArg View.known (Exclusivity.ready_view hB.inv hold)
    exact hB.at_home p l h hold (mt (step_stage_eq_none hs hk).mpr hst)
  · cases hent with
    | back he hp hl =>
      have hk : m.known h = true := by
        by_contra hk
        obtain ⟨st, hv⟩ := (hB.inv.legit h).of_unknown (by simpa [view] using hk)
        rcases enqueues_view he with ⟨c, h⟩ | ⟨g, item, h⟩ | h <;> simp [hv] at h
      rw [← hp, hker hB.staffed (mt (step_stage_eq_none hs hk).mpr hst)]
    | new hadm hp hl => rw [← hp, hker (step_staffed hB.inv hB.staffed hs) hst]

/-! ### CURRENT_VSPACE -/

/-- What a step does to CURRENT_VSPACE. -/
inductive VspaceEffect (m m' : Machine cfg) : Prop where
  | same (h : m'.current_vspace = m.current_vspace)
  | round (c : Cpu cfg) (b p) (hpc : m.pc c = .sched b)
      (h : m'.current_vspace = Function.update m.current_vspace c p)
  | popped (c : Cpu cfg) (t) (hpc : m.pc c = .popped t .kernel)
      (h : m'.current_vspace = Function.update m.current_vspace c (m.tasks t).pid)
  | taken (c : Cpu cfg) (item : TrapItem) (hpc : m.pc c = .run) (h₀ : m.stage (m.current_task c) = some (.taken item))
      (h : m'.current_vspace = Function.update m.current_vspace c (item.pid m.tasks))

theorem phase2_vspace (m : Machine cfg) (c : Cpu cfg) : (m.phase2 c).current_vspace = m.current_vspace := by
  simp only [phase2]
  split <;> rfl

theorem handler_next_vspace {st : Stage} (hpc : m.pc c = .run) (h₀ : m.stage (m.current_task c) = some st) :
    VspaceEffect m (m.handler_next c st) := by
  cases st with
  | top => simp only [handler_next]; split <;> exact .same rfl
  | taken item => exact .taken c item hpc h₀ rfl
  | handled item =>
    simp only [handler_next]
    split
    · exact .same rfl
    · split <;> exact .same rfl
  | wake item t =>
    simp only [handler_next]
    split
    · exact .same rfl
    · rename_i m₁ hp
      obtain ⟨l, -, -, rfl⟩ := push_task_eq_some hp
      exact .same rfl
  | _ => exact .same rfl

theorem next_vspace (hs : m.next c = some m') : VspaceEffect m m' := by
  cases hpc : m.pc c with
  | run =>
    simp only [next, hpc, Option.map_eq_some_iff] at hs
    obtain ⟨st, h₀, rfl⟩ := hs
    exact handler_next_vspace hpc h₀
  | popped t target =>
    cases target <;> simp only [next, hpc] at hs <;> rw [← Option.some.inj hs]
    · exact .popped c t hpc rfl
    · exact .same rfl
    · exact .same rfl
  | sync_push | irq_push _ =>
    simp only [next, hpc] at hs
    split at hs <;> rw [← Option.some.inj hs]
    · exact .same rfl
    · rename_i m₁ hp
      obtain rfl := push_trap_eq_some hp
      exact .same rfl
  | push_prev =>
    simp only [next, hpc] at hs
    split at hs <;> rw [← Option.some.inj hs]
    · exact .same rfl
    · rename_i m₁ hp
      obtain ⟨l, -, -, rfl⟩ := push_task_eq_some hp
      exact .same rfl
  | idle_handler pid =>
    simp only [next, hpc] at hs
    split at hs <;> rw [← Option.some.inj hs] <;> exact .same rfl
  | idle_push =>
    simp only [next, hpc] at hs
    split at hs <;> rw [← Option.some.inj hs] <;> exact .same rfl
  | idle_resched =>
    simp only [next, hpc] at hs
    rw [← Option.some.inj hs]
    exact .same (phase2_vspace _ c)
  | own | sched _ | no_handler _ | wait_check | wait_irqs | panicked _ => simp [next, hpc] at hs
  | _ =>
    simp only [next, hpc] at hs
    rw [← Option.some.inj hs]
    exact .same rfl

/-- A guarded step that leaves CURRENT_VSPACE alone. -/
theorem VspaceEffect.guarded {P : Prop} [Decidable P] {m₁ : Machine cfg}
    (hs : (if P then some m₁ else none) = some m') (hv : m₁.current_vspace = m.current_vspace) :
    VspaceEffect m m' := by
  split at hs
  · exact Option.some.inj hs ▸ .same hv
  · cases hs

theorem pop_ready_vspace {l : Level cfg} (hs : m.pop_ready c p l = some m') : VspaceEffect m m' := by
  simp only [pop_ready] at hs
  split at hs
  · rename_i hpc _
    split at hs
    · split at hs <;> rw [← Option.some.inj hs]
      · exact .same rfl
      · exact .round c _ p hpc rfl
    · exact .guarded hs rfl
  · cases hs

theorem fail_vspace (hs : m.fail c p = some m') : VspaceEffect m m' := by
  simp only [fail] at hs
  split at hs
  · rename_i hpc
    split at hs
    · rw [← Option.some.inj hs]
      exact .round c _ p hpc rfl
    · cases hs
  · cases hs

theorem into_kernel_vspace (hs : m.into_kernel c p = some m') : VspaceEffect m m' := by
  simp only [into_kernel] at hs
  split at hs
  · rename_i hpc
    split at hs
    · cases hs
    · rw [← Option.some.inj hs]
      exact .round c _ p hpc rfl
  · cases hs

/-- What the OS does to a task is no matter of an address space. -/
theorem os_vspace {t : TaskPtr} (hs : (∃ task, m.arrive t task = some m') ∨ m.wake t = m' ∨ m.wake_push t = some m') :
    VspaceEffect m m' := by
  rcases hs with ⟨task, hs⟩ | rfl | hs
  · simp only [arrive] at hs
    split at hs
    · obtain ⟨m₁, hp, rfl⟩ := Option.map_eq_some_iff.mp hs
      obtain ⟨l, -, -, rfl⟩ := push_task_eq_some hp
      exact .same rfl
    · cases hs
  · refine .same ?_
    rw [wake]
    split
    · split <;> rfl
    · rfl
  · simp only [wake_push] at hs
    split at hs
    · obtain ⟨m₁, hp, rfl⟩ := Option.map_eq_some_iff.mp hs
      obtain ⟨l, -, -, rfl⟩ := push_task_eq_some hp
      exact .same rfl
    · cases hs

/-- An interrupt or a trap leads into the kernel in the address space of the CPU. -/
theorem trapped_vspace (hs : m.irq c = some m' ∨ m.trap c = some m') : VspaceEffect m m' := by
  rcases hs with hs | hs
  · simp only [irq] at hs
    split at hs
    · rw [← Option.some.inj hs]
      exact .same rfl
    · exact .guarded hs rfl
  · simp only [trap] at hs
    split at hs
    · split at hs <;> rw [← Option.some.inj hs] <;> exact .same rfl
    · cases hs

theorem new_handler_vspace {h : TaskPtr} {task : Task cfg} (hs : m.new_handler c h task = some m') :
    VspaceEffect m m' := by
  simp only [new_handler] at hs
  split at hs
  · split at hs
    · split at hs <;> rw [← Option.some.inj hs] <;> exact .same rfl
    · cases hs
  · cases hs

theorem step_vspace (hs : m.step a = some m') : VspaceEffect m m' := by
  cases a with
  | pop_ready c p l => exact pop_ready_vspace hs
  | fail c p => exact fail_vspace hs
  | into_kernel c p => exact into_kernel_vspace hs
  | next c => exact next_vspace hs
  | arrive t task => exact os_vspace (Or.inl ⟨task, hs⟩)
  | wake t => exact os_vspace (Or.inr (Or.inl (Option.some.inj hs)))
  | wake_push t => exact os_vspace (Or.inr (Or.inr hs))
  | new_handler c g task => exact new_handler_vspace hs
  | irq c => exact trapped_vspace (Or.inl hs)
  | trap c => exact trapped_vspace (Or.inr hs)
  | leave c b => exact .guarded hs (phase2_vspace _ c)
  | set_self c st => exact .guarded hs rfl
  | poll_ready c => exact .guarded hs rfl
  | check c b => exact .guarded hs rfl
  | wait_return c => exact .guarded hs rfl
  | take_trap c =>
    simp only [step, take_trap] at hs
    split at hs
    · exact .guarded hs rfl
    · cases hs
  | handle_exits c =>
    simp only [step, handle_exits] at hs
    split at hs
    · rw [← Option.some.inj hs]
      exact .same rfl
    · cases hs

/-! ### User tasks -/

theorem known_of_owner (hI : Inv m) (ho : m.owner c = some t) : m.known t = true := by
  by_contra hk
  obtain ⟨st, hv⟩ := (hI.legit t).of_unknown (by simpa [view] using hk)
  have hcpu := view_cpu_self ho
  simp [hv] at hcpu

/-- A user task comes from the ready queue of its process. -/
theorem popped_from {target : Target} (hs : m.step a = some m') (hd : m'.pc d = .popped t target)
    (htarget : target ≠ .kernel) : m.pc d = .popped t target ∨ ∃ p l, p ≠ .kernel ∧ t ∈ m.ready p l := by
  by_cases hsame : m'.pc d = m.pc d
  · exact Or.inl (hsame ▸ hd)
  · have ha : a.cpu = some d := cpu_of_pc_ne hs hsame
    obtain ⟨b, hpc⟩ : ∃ b, m.pc d = .sched b := by
      rcases step_loc hs d with heq | ⟨-, hmove⟩
      · exact absurd (congrArg Local.pc heq) hsame
      · change (m'.loc d).pc = _ at hd
        generalize m'.loc d = l at hmove hd
        cases hmove with
        | flow hf =>
          obtain rfl := hd
          generalize m.pc d = pc at hf
          cases hf with
          | leave _ h' => simp at h'
          | pop_ready b => exact ⟨b, rfl⟩
          | set_pid => exact absurd rfl htarget
        | take_idle g pid pc' _ _ h => rcases h with rfl | rfl <;> simp at hd
        | set_current u target pc' _ h => rcases h with rfl | rfl <;> simp at hd
        | krun_utask => split at hd <;> simp at hd
        | _ => simp at hd
    cases a <;> simp only [Act.cpu, Option.some.injEq, reduceCtorEq] at ha <;> subst ha
    case pop_ready p l =>
      refine Or.inr ⟨p, l, ?_⟩
      simp only [step, pop_ready, hpc] at hs
      split at hs
      · rename_i u rest _ hq
        split at hs
        · split at hs <;> rw [← Option.some.inj hs] at hd <;>
            simp only [Machine.set_pc, Function.update_self, Pc.popped.injEq] at hd
          · exact absurd hd.2.symm htarget
          · rename_i hp
            exact ⟨hp, by simp [hq, hd.1]⟩
        · split at hs
          · rename_i hp
            rw [← Option.some.inj hs] at hd
            simp only [Machine.set_pc, Function.update_self, Pc.popped.injEq] at hd
            exact ⟨hp, by simp [hq, hd.1]⟩
          · cases hs
      · cases hs
    case take_trap =>
      simp only [step, take_trap, hpc] at hs
      split at hs
      · split at hs
        · rw [← Option.some.inj hs] at hd
          simp [Machine.set_pc] at hd
        · cases hs
      · cases hs
    case fail p =>
      simp only [step, fail, hpc] at hs
      split at hs
      · rw [← Option.some.inj hs] at hd
        simp [Machine.set_pc] at hd
      · cases hs
    case into_kernel p =>
      simp only [step, into_kernel, hpc] at hs
      split at hs
      · cases hs
      · rw [← Option.some.inj hs] at hd
        simp [Machine.set_pc] at hd
    all_goals
      simp [step, irq, trap, set_self, leave, poll_ready, new_handler, check, wait_return, handle_exits, next,
        in_code, hpc] at hs

theorem in_code_of_ne_run (h : m.pc c ≠ .run) : m.in_code c = false := by
  simp [in_code, h]

/-- CURRENT_TASK changes only between `pop_task` and the run of a task, and before a wait. -/
theorem current_kept (hs : m.step a = some m') : m'.current_task d = m.current_task d ∨
    (∃ t target, m.pc d = .popped t target) ∨ m.pc d = .wait_context := by
  show (m'.loc d).current_task = _ ∨ _
  rcases step_loc hs d with heq | ⟨-, hmove⟩
  · rw [heq]
    exact Or.inl rfl
  · generalize m'.loc d = l at hmove ⊢
    cases hmove with
    | set_current t target pc' hpc => exact Or.inr (Or.inl ⟨t, target, hpc⟩)
    | wait_context hpc => exact Or.inr (Or.inr hpc)
    | _ => exact Or.inl rfl

/-- `krun_utask` is entered with the task of a user scheduler. -/
theorem krun_utask_from (hs : m.step a = some m') (hd : m'.pc d = .krun_utask) :
    m.pc d = .krun_utask ∨ m.pc d = .popped (m'.current_task d) .krun := by
  by_cases hsame : m'.pc d = m.pc d
  · exact Or.inl (hsame ▸ hd)
  · have ha : a.cpu = some d := cpu_of_pc_ne hs hsame
    obtain ⟨t, target, hpc⟩ : ∃ t target, m.pc d = .popped t target := by
      rcases step_loc hs d with heq | ⟨-, hmove⟩
      · exact absurd (congrArg Local.pc heq) hsame
      · change (m'.loc d).pc = _ at hd
        generalize m'.loc d = l at hmove hd
        cases hmove with
        | flow hf =>
          obtain rfl := hd
          exact hf.not_to_krun_utask.elim
        | set_current t target pc' hpc _ => exact ⟨t, target, hpc⟩
        | take_idle g pid pc' _ _ h => rcases h with rfl | rfl <;> simp at hd
        | krun_utask => split at hd <;> simp at hd
        | _ => simp at hd
    obtain rfl := eq_next hs ha (in_code_of_ne_run (by simp [hpc])) (by simp [hpc, Pc.in_function])
    cases target <;> simp only [step, next, hpc] at hs <;> rw [← Option.some.inj hs] at hd ⊢
    · simp [Machine.set_pc] at hd
    · exact Or.inr (by simp [Machine.set_pc, Machine.set_current, hpc])
    · simp [Machine.set_pc] at hd

theorem Pc.owner_of_user_task {pc : Pc cfg} {cur : TaskPtr} (h : pc.user_task cur = some t) :
    pc.owner cur = some t := by
  cases pc with
  | popped u target => cases target <;> simp_all [Pc.user_task, Pc.owner]
  | krun_utask | user_run_task => exact h
  | _ => simp [Pc.user_task] at h

/-- No handler runs as a user task. -/
theorem step_user (hB : Bound m) (hs : m.step a = some m') (hd : (m'.pc d).user_task (m'.current_task d) = some t) :
    m'.stage t = none := by
  have hold : (m.pc d).user_task (m.current_task d) = some t → m'.stage t = none := fun h =>
    (step_stage_eq_none hs (known_of_owner hB.inv (Pc.owner_of_user_task h))).mpr (hB.user d t h)
  have hkept : (∀ u target, m.pc d ≠ .popped u target) → m.pc d ≠ .wait_context →
      m'.current_task d = m.current_task d := by
    intro hp hw
    rcases current_kept (d := d) hs with h | ⟨u, target, h⟩ | h
    · exact h
    · exact absurd h (hp u target)
    · exact absurd h hw
  have hpopped : ∀ {u target}, m'.pc d = .popped u target → target ≠ .kernel → u = t → m'.stage t = none := by
    rintro u target hpc htarget rfl
    rcases popped_from hs hpc htarget with h | ⟨p, l, hp, hmem⟩
    · exact hold (by cases target <;> simp_all [Pc.user_task])
    · have hk : m.known u = true := congrArg View.known (Exclusivity.ready_view hB.inv hmem)
      refine (step_stage_eq_none hs hk).mpr ?_
      by_contra hst
      exact hp (hB.at_home p l u hmem hst)
  cases hpc : m'.pc d with
  | popped u target =>
    cases target <;> simp only [hpc, Pc.user_task, Option.some.injEq, reduceCtorEq] at hd
    · exact hpopped hpc (by simp) hd
    · exact hpopped hpc (by simp) hd
  | krun_utask =>
    simp only [hpc, Pc.user_task, Option.some.injEq] at hd
    rcases krun_utask_from hs hpc with h | h
    · exact hold (by simp [h, Pc.user_task, ← hd, hkept (by simp [h]) (by simp [h])])
    · exact hold (by simp [h, Pc.user_task, hd])
  | user_run_task =>
    simp only [hpc, Pc.user_task, Option.some.injEq] at hd
    rcases TaskStates.user_run_task_from hs hpc with h | ⟨-, h, -⟩
    · exact hold (by simp [h, Pc.user_task, ← hd, hkept (by simp [h]) (by simp [h])])
    · exact hold (by simp [h, Pc.user_task, ← hd, hkept (by simp [h]) (by simp [h])])
  | _ => simp [hpc, Pc.user_task] at hd

/-! ### The binding -/

/-- A handler inside `handle` was there before, or has just entered it. -/
theorem handle_from (hI : Inv m) (hs : m.step a = some m') (h₀ : m'.stage h = some (.handle item)) :
    m.stage h = some (.handle item) ∨ ∃ c, m.pc c = .run ∧ h = m.current_task c ∧
      m.stage h = some (.taken item) ∧ m' = m.handler_next c (.taken item) := by
  cases step_trap_effect hI hs with
  | none _ _ _ hst => exact Or.inl ((hst h (.handle item) (by simp)).mp h₀)
  | push c task _ _ _ hst => exact Or.inl (hst ▸ h₀)
  | pop c item' rest _ _ _ _ _ _ hst =>
    rw [hst] at h₀
    rcases eq_or_ne h (m.current_task c) with rfl | hne
    · simp at h₀
    · exact Or.inl (by simpa [hne] using h₀)
  | advance c st es st' hpc h₁ hm _ _ _ hst hadv =>
    rw [hst] at h₀
    rcases eq_or_ne h (m.current_task c) with rfl | hne
    · simp only [Function.update_self, Option.some.injEq] at h₀
      subst h₀
      cases hadv with
      | handle => exact Or.inr ⟨c, hpc, rfl, h₁, hm⟩
    · exact Or.inl (by simpa [hne] using h₀)

theorem steady_of_handle (h₀ : m.stage h = some (.handle item)) : Steady m h := by
  intro st hst
  exact ⟨item, Option.some.inj (hst.symm.trans h₀)⟩

theorem step_pid (hB : Bound m) (hs : m.step a = some m') (h₀ : m'.stage h = some (.handle item)) :
    (m'.tasks h).pid = item.pid m'.tasks := by
  have hitem : ∀ {st : Stage}, m.stage h = some st → st.holds = item.task → item.pid m'.tasks = item.pid m.tasks := by
    intro st hst heq
    exact step_item_pid hB hs fun t ht => .held h st hst (heq.trans ht)
  rcases handle_from hB.inv hs h₀ with hold | ⟨c, hpc, hh, htaken, hm⟩
  · have hk : m.known h = true := hB.inv.staged h (by simp [hold])
    rw [step_pid_eq hB hs hk (steady_of_handle hold), hitem hold rfl]
    exact hB.pid h item hold
  · rw [hitem htaken rfl, hm, hh]
    simp [handler_next, Tasks.set_pid, Machine.set_vspace, Machine.set_stage, emit]

theorem owner_of_bound (hb : (m.pc c).bound = true) : m.owner c = some (m.current_task c) := by
  cases hpc : m.pc c <;> simp only [hpc, Pc.bound, Bool.false_eq_true] at hb <;> simp [owner, hpc, Pc.owner]

/-- How a CPU comes to run a task in the address space it has. -/
theorem bound_from (hs : m.step a = some m') (hb : (m'.pc d).bound = true) :
    ((m.pc d).bound = true ∧ m'.current_task d = m.current_task d) ∨
    ((m.pc d).user_task (m.current_task d) = some (m'.current_task d)) ∨
    ∃ target, m.pc d = .popped (m'.current_task d) target ∧ a = .next d := by
  have hcur := current_kept (d := d) hs
  have hstay : (m.loc d).pc.bound = true →
      (m.loc d).pc.bound = true ∧ m'.current_task d = m.current_task d := by
    intro h
    refine ⟨h, ?_⟩
    rcases hcur with hcur | ⟨t, target, hp⟩ | hp
    · exact hcur
    · simp [loc, hp, Pc.bound] at h
    · simp [loc, hp, Pc.bound] at h
  have huser : m.pc d = .krun_utask ∨ m.pc d = .user_run_task →
      (m.pc d).user_task (m.current_task d) = some (m'.current_task d) := by
    intro h
    rcases hcur with hcur | ⟨t, target, hp⟩ | hp
    · rcases h with h | h <;> simp [h, Pc.user_task, hcur]
    · simp [hp] at h
    · simp [hp] at h
  change (m'.loc d).pc.bound = true at hb
  rcases step_loc hs d with heq | ⟨ha, hmove⟩
  · rw [heq] at hb
    exact Or.inl (hstay hb)
  · have hloc : (m'.loc d).current_task = m'.current_task d := rfl
    generalize m'.loc d = l at hmove hb hloc
    cases hmove with
    | @flow pc' hf =>
      change pc'.bound = true at hb
      generalize hpc : m.pc d = pc at hf
      cases hf with
      | own | stay => exact Or.inl (hpc ▸ hstay (by simp [loc, hpc, Pc.bound]))
      | leave _ h' => rcases h' with rfl | rfl | rfl <;> simp [Pc.bound] at hb
      | run h =>
        rcases h with rfl | rfl
        · exact Or.inl (hpc ▸ hstay (by simp [loc, hpc, Pc.bound]))
        · exact Or.inr (Or.inl (hpc ▸ huser (Or.inr hpc)))
      | _ => simp [Pc.bound] at hb
    | set_current t target pc' hpc _ =>
      obtain rfl : t = m'.current_task d := hloc
      exact Or.inr (Or.inr ⟨target, hpc,
        eq_next hs ha (in_code_of_ne_run (by simp [hpc])) (by simp [hpc, Pc.in_function])⟩)
    | krun_utask hpc => exact Or.inr (Or.inl (huser (Or.inl hpc)))
    | take_idle g pid pc' _ _ h => rcases h with rfl | rfl <;> simp [Pc.bound] at hb
    | _ => simp [Pc.bound] at hb

/-- CURRENT_VSPACE of a CPU that goes on with a handler inside `handle`. -/
theorem vspace_kept (hs : m.step a = some m') (hb : (m.pc d).bound = true)
    (h₀ : m.stage (m.current_task d) = some (.handle item)) : m'.current_vspace d = m.current_vspace d := by
  have hother : ∀ {c p}, c ≠ d → m'.current_vspace = Function.update m.current_vspace c p →
      m'.current_vspace d = m.current_vspace d := by
    intro c p hcd h
    rw [h, Function.update_of_ne hcd.symm]
  cases step_vspace hs with
  | same h => exact congrFun h d
  | round c b p hpc h => exact hother (by rintro rfl; simp [hpc, Pc.bound] at hb) h
  | popped c t hpc h => exact hother (by rintro rfl; simp [hpc, Pc.bound] at hb) h
  | taken c item' _ h₁ h => exact hother (by rintro rfl; simp [h₁] at h₀) h

theorem step_bound_vspace (hB : Bound m) (hs : m.step a = some m') (hb : (m'.pc d).bound = true)
    (h₀ : m'.stage (m'.current_task d) = some (.handle item)) :
    m'.current_vspace d = (m'.tasks (m'.current_task d)).pid := by
  have hno : ∀ {t}, m.known t = true → m.stage t = none → m'.stage t ≠ some (.handle item) := by
    intro t hk hst
    simp [(step_stage_eq_none hs hk).mpr hst]
  rcases bound_from hs hb with ⟨hold, hcur⟩ | huser | ⟨target, hpc, rfl⟩
  · rw [hcur] at h₀ ⊢
    rcases handle_from hB.inv hs h₀ with h₁ | ⟨c, hpc, hh, -, hm⟩
    · have hk : m.known (m.current_task d) = true := hB.inv.staged (m.current_task d) (by simp [h₁])
      rw [vspace_kept hs hold h₁, step_pid_eq hB hs hk (steady_of_handle h₁)]
      exact hB.vspace d item hold h₁
    · -- it has just switched to the address space of the trapped task
      obtain rfl : d = c := Exclusivity.owner_unique hB.inv (owner_of_bound hold) (hh ▸ owner_of_run hpc)
      rw [hm]
      simp [handler_next, Machine.set_vspace, Machine.set_stage, emit, Tasks.set_pid]
  · exact absurd h₀ (hno (known_of_owner hB.inv (Pc.owner_of_user_task huser)) (hB.user d _ huser))
  · cases target with
    | kernel =>
      simp only [step, next, hpc] at hs
      rw [← Option.some.inj hs]
      simp [Machine.set_vspace, Machine.set_current, Machine.set_pc]
    | krun | user =>
      have huser : (m.pc d).user_task (m.current_task d) = some (m'.current_task d) := by rw [hpc]; rfl
      exact absurd h₀ (hno (known_of_owner hB.inv (Pc.owner_of_user_task huser)) (hB.user d _ huser))

theorem step_bound (hB : Bound m) (hs : m.step a = some m') : Bound m' where
  inv := step_inv hB.inv hs
  staffed := step_staffed hB.inv hB.staffed hs
  spare := fun _ h => step_spare hB hs h
  trapped := fun _ h => step_trapped hB hs h
  at_home := fun _ _ _ hmem hst => step_at_home hB hs hmem hst
  user := fun _ _ h => step_user hB hs h
  pid := fun _ _ h => step_pid hB hs h
  vspace := fun _ _ hb h => step_bound_vspace hB hs hb h

theorem start_bound (b : Boot cfg) : Bound b.machine := by
  have hstage : ∀ h st, b.machine.stage h = some st → st = .top := by
    intro h st h₀
    simp only [Boot.machine] at h₀
    split at h₀
    · exact (Option.some.inj h₀).symm
    · cases h₀
  refine ⟨b.inv, b.staffed, ?_, ?_, ?_, ?_, ?_, ?_⟩
  · rintro h hsp
    cases hsp with
    | idle hmem =>
      obtain ⟨st, h₀⟩ := Option.ne_none_iff_exists'.mp (b.staffed.idle h hmem)
      rw [h₀, hstage h st h₀]
    | carried c hc => simp [Boot.machine, Pc.carries] at hc
    | entering c hpc => simp [Boot.machine] at hpc
  · rintro t ht
    cases ht with
    | entering c hpc => simp [Boot.machine] at hpc
    | queued c item hitem => simp [Boot.machine] at hitem
    | held h st h₀ ht => simp [hstage h st h₀, Stage.holds] at ht
  · intro p l h hmem
    simp [Boot.machine] at hmem
  · intro c t h
    simp [Boot.machine, Pc.user_task] at h
  · intro h item h₀
    simpa using hstage h _ h₀
  · intro c item _ h₀
    simpa using hstage _ _ h₀

/-! ### Runs -/

/-- In every run, a CPU that executes a handler inside `handle` has in CURRENT_VSPACE the pid of the
    trapped task, or 0. -/
theorem handles_in_own_vspace (b : Boot cfg) (acts : List (Act cfg)) (m : Machine cfg)
    (hrun : Runs.run step b.machine acts = some m) (c : Cpu cfg) (item : TrapItem)
    (hpc : m.pc c = .run ∨ m.pc c = .own) (h₀ : m.stage (m.current_task c) = some (.handle item)) :
    m.current_vspace c = item.pid m.tasks := by
  have hB : Bound m := Runs.run_invariant (fun _ _ _ hB hs => step_bound hB hs) acts (start_bound b) hrun
  have hb : (m.pc c).bound = true := by rcases hpc with hpc | hpc <;> simp [hpc, Pc.bound]
  rw [hB.vspace c item hb h₀, hB.pid (m.current_task c) item h₀]

/-- A user task of process `pid`. -/
def user_task (pid : Pid duo) : Task duo := ⟨.ready, 0, false, false, pid⟩

/-- A task of process 1 traps, its handler is preempted inside `handle` by a task of process 2, and the
    other CPU resumes it. -/
def resume : List (Act duo) :=
  [.arrive 10 (user_task ⟨1, by decide⟩), .arrive 11 (user_task ⟨2, by decide⟩), .leave duo_first false,
    .pop_ready duo_first ⟨1, by decide⟩ .top] ++ List.replicate 2 (Act.next duo_first) ++
    [.trap duo_first, .next duo_first, .take_trap duo_first] ++ List.replicate 6 (Act.next duo_first) ++
    [.irq duo_first] ++ List.replicate 3 (Act.next duo_first) ++
    [.pop_ready duo_first ⟨2, by decide⟩ .top] ++ List.replicate 2 (Act.next duo_first) ++
    [.leave duo_second false, .pop_ready duo_second .kernel .top] ++ List.replicate 2 (Act.next duo_second)

theorem handles_in_own_vspace_resumed : ∃ m : Machine duo,
    Runs.run step (Boot.plain duo).machine resume = some m ∧
    m.current_task duo_second = 4 ∧ m.current_vspace duo_first = ⟨2, by decide⟩ ∧
    m.current_vspace duo_second = (m.tasks 10).pid := by
  have hrun : ((Runs.run step (Boot.plain duo).machine resume).map fun m =>
      decide (m.current_task duo_second = 4 ∧ m.current_vspace duo_first = ⟨2, by decide⟩ ∧ m.pc duo_second = .run ∧
        m.stage (m.current_task duo_second) = some (.handle ⟨0, some 10⟩))) = some true := by decide +kernel
  obtain ⟨m, hm, hfacts⟩ := Option.map_eq_some_iff.mp hrun
  obtain ⟨hcur, hfirst, hpc, h₀⟩ := of_decide_eq_true hfacts
  exact ⟨m, hm, hcur, hfirst, handles_in_own_vspace (Boot.plain duo) resume m hm duo_second _ (Or.inl hpc) h₀⟩

end HandlerVspace

end Vsched2
