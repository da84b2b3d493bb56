import Vsched2.PriorityOrder

/-! The address space after a user scheduler hands its CPU over to another process.

    `utask_schedule` stores the chosen process in CURRENT_VSPACE without entering its address space.
    `switch_vspace` then takes the address space for entered already, so the process is dispatched in
    the old one, unless a third process was tried in between. -/

namespace Vsched2.HandOff

variable {cfg : Config}

/-- The address space registered for a process. -/
def vspace_of (k : Kernel cfg) (p : Pid cfg) : ℕ := (k.process_info_table.table p).vspace

/-- The schedulers are in order, and only the kernel runs in every address space. -/
structure Well (k : Kernel cfg) : Prop where
  ok : ∀ p, (k.schedulers p).Ok
  kernel_null : vspace_of k .kernel = 0
  user_vspace : ∀ p, p ≠ .kernel → (k.process_info_table.table p).valid = true → vspace_of k p ≠ 0

/-- What the other CPUs do meanwhile: anything that leaves the schedulers in order, but they cannot touch
    the CURRENT_VSPACE and the address space of this CPU, and the registered address spaces stay. -/
structure Env (cpu : Cpu cfg) (k k' : Kernel cfg) : Prop where
  current_vspace : k'.current_vspace cpu = k.current_vspace cpu
  vspace : k'.vspace cpu = k.vspace cpu
  vspaces : vspace_of k' = vspace_of k
  well : Well k'

/-- A run of the loop of `utok_schedule`, entered with `next_pid`, with the other CPUs acting in
    between. The list holds the calls of `ktask_schedule` with the states they were made in. -/
inductive Loop (user_data : Pid cfg → Pid cfg) (cpu : Cpu cfg) :
    Kernel cfg → Pid cfg → List (Pid cfg × Kernel cfg) → ℕ → Kernel cfg → Prop where
  | found {k k₀ k' next_pid fresh res} (henv : Env cpu k k₀)
      (h : Kernel.ktask_schedule user_data k₀ cpu next_pid fresh = some (res, k')) (hres : res ≠ 2) :
      Loop user_data cpu k next_pid [(next_pid, k₀)] res k'
  | again {k k₀ k₁ k₂ k₃ k₄ k' next_pid next_pid' fresh calls res} (henv : Env cpu k k₀)
      (h : Kernel.ktask_schedule user_data k₀ cpu next_pid fresh = some (2, k₁)) (henv₁ : Env cpu k₁ k₂)
      (hwait : k₂.wait_for_runnable_task cpu = some k₃) (henv₃ : Env cpu k₃ k₄)
      (hsel : k₄.process_schedule cpu .kernel = some next_pid')
      (hrest : Loop user_data cpu k₄ next_pid' calls res k') :
      Loop user_data cpu k next_pid ((next_pid, k₀) :: calls) res k'

/-- The user scheduler of `A` runs `utask_schedule(B)`, then come `trap_entry(2, 0)` and
    `utok_schedule`, which returns `res`. -/
def HandOver (user_data : Pid cfg → Pid cfg) (cpu : Cpu cfg) (A B : Pid cfg) (k : Kernel cfg)
    (calls : List (Pid cfg × Kernel cfg)) (res : ℕ) (k' : Kernel cfg) : Prop :=
  ∃ fresh k₁ k₂ k₃, k.utask_schedule cpu A B fresh = some (none, k₁) ∧ Env cpu k₁ k₂ ∧
    k₂.trap_entry_into_kernel cpu = (3, k₃) ∧ Loop user_data cpu k₃ (k₃.current_vspace cpu) calls res k'

/-- A scheduler has something for the CPU to run. -/
def Finds (s : Scheduler cfg) (cpu : Cpu cfg) : Prop :=
  s.sources ≠ [] ∧ (s.trap_wait_queue.queues cpu ≠ [] ∨ ∃ l, s.ready_queue.queues l ≠ [])

/-- As long as no third process has been tried, `B` has no task whenever it is tried. -/
def Quiet (user_data : Pid cfg → Pid cfg) (cpu : Cpu cfg) (B : Pid cfg) : List (Pid cfg × Kernel cfg) → Prop
  | [] => True
  | (p, k) :: calls =>
    if p = .kernel then Quiet user_data cpu B calls
    else if p = B then ¬ Finds (k.schedulers (user_data B)) cpu ∧ Quiet user_data cpu B calls
    else True

/-! ### What one call of `ktask_schedule` does -/

variable {k k' : Kernel cfg} {cpu : Cpu cfg} {user_data : Pid cfg → Pid cfg}

theorem switch_vspace_vspace (k : Kernel cfg) (cpu : Cpu cfg) (p : Pid cfg) :
    (k.switch_vspace cpu p).vspace cpu =
      if p = k.current_vspace cpu ∨ vspace_of k p = 0 then k.vspace cpu else vspace_of k p := by
  simp only [Kernel.switch_vspace, vspace_of]
  by_cases hp : p = k.current_vspace cpu
  · simp [hp]
  · by_cases hv : (k.process_info_table.table p).vspace = 0
    · simp [hp, hv]
    · simp [hp, hv]

theorem Well.switch_vspace (hk : Well k) (cpu : Cpu cfg) (p : Pid cfg) : Well (k.switch_vspace cpu p) := by
  obtain ⟨h1, h2, h3⟩ := hk
  refine ⟨?_, ?_, ?_⟩ <;> simpa [vspace_of] using by assumption

theorem Well.wait (hk : Well k) {k' : Kernel cfg} (h : k.wait_for_runnable_task cpu = some k') : Well k' := by
  obtain ⟨htab, hsch, -⟩ := Kernel.wait_unchanged h
  obtain ⟨h1, h2, h3⟩ := hk
  refine ⟨?_, ?_, ?_⟩ <;> simpa [vspace_of, htab, hsch] using by assumption

/-- The other CPUs do nothing. -/
theorem Env.refl (hk : Well k) : Env cpu k k := ⟨rfl, rfl, rfl, hk⟩

/-- `pop_task` finds a task exactly if there is something to run, and leaves the address spaces
    alone. -/
theorem pop_task_spec (hk : Well k) {p : Pid cfg} {fresh : TaskPtr × Task cfg} {t : Option TaskPtr}
    (h : k.pop_task cpu p fresh = some (t, k')) :
    Well k' ∧ (t.isSome ↔ Finds (k.schedulers p) cpu) ∧ k'.current_vspace = k.current_vspace ∧
      k'.vspace = k.vspace ∧ vspace_of k' = vspace_of k := by
  simp only [Kernel.pop_task, Option.map_eq_some_iff, Prod.mk.injEq] at h
  obtain ⟨r, hr, rfl, rfl⟩ := h
  have ho := hk.ok p
  have hstep : HiddenWork.step ⟨k.schedulers p, k.tasks, k.row p⟩ (.pop_task cpu fresh) =
      some ⟨r.2.1.1, r.2.1.2, r.2.2⟩ := by simp [HiddenWork.step, hr]
  have hvs : vspace_of (k.put p r.2.1.1 r.2.1.2 r.2.2) = vspace_of k :=
    funext fun q => (Kernel.table_put k p q _ _ _).2
  refine ⟨⟨fun q => ?_, by rw [hvs]; exact hk.kernel_null, fun q hq hv => ?_⟩, ?_, rfl, rfl, hvs⟩
  · rcases eq_or_ne q p with rfl | hq
    · rw [Kernel.schedulers_put_self]
      exact HiddenWork.step_ok (s := ⟨k.schedulers q, k.tasks, k.row q⟩) ho hstep
    · rw [Kernel.schedulers_put_of_ne _ hq]; exact hk.ok q
  · rw [hvs]
    rw [(Kernel.table_put ..).1] at hv
    exact hk.user_vspace q hq hv
  · rcases ho.sources with hs | hs
    · rw [Scheduler.pop_task_nil hs, Option.some.injEq] at hr
      subst hr
      simp [Finds, hs]
    · by_cases hq : (k.schedulers p).trap_wait_queue.queues cpu = []
      · cases hb : (k.schedulers p).ready_queue.best with
        | none =>
          rw [Scheduler.pop_task_empty ho hs hq hb, Option.some.injEq] at hr
          subst hr
          simp [Finds, hq, ReadyQueue.best_eq_none.mp hb]
        | some l =>
          obtain ⟨task, rest, hl, hpop⟩ := Scheduler.pop_task_ready ho hs hq hb k.tasks fresh (k.row p)
          rw [hpop, Option.some.injEq] at hr
          subst hr
          simp only [Option.isSome_some, true_iff]
          exact ⟨by simp [hs], Or.inr ⟨l, by simp [hl]⟩⟩
      · obtain ⟨_, _, _, -, -, rfl⟩ := Scheduler.pop_task_trap ho hs hq k.tasks fresh (k.row p) hr
        simp [Finds, hs, hq]

/-- A call for the kernel does not return 1, and leaves the address space alone if it returns 2. -/
theorem ktask_schedule_kernel (hk : Well k) {fresh : TaskPtr × Task cfg} {res : ℕ}
    (h : Kernel.ktask_schedule user_data k cpu .kernel fresh = some (res, k')) :
    Well k' ∧ res ≠ 1 ∧ vspace_of k' = vspace_of k ∧ (res = 2 →
      k'.current_vspace cpu = k.current_vspace cpu ∧ k'.vspace cpu = k.vspace cpu) := by
  simp only [Kernel.ktask_schedule, if_true, Option.map_eq_some_iff] at h
  obtain ⟨⟨t, k₁⟩, hpop, h⟩ := h
  obtain ⟨hw, -, hcur, hvs, hof⟩ := pop_task_spec hk hpop
  cases t with
  | none =>
    obtain ⟨rfl, rfl⟩ := Prod.mk.inj h
    exact ⟨hw, by decide, hof, fun _ => ⟨by rw [hcur], by rw [hvs]⟩⟩
  | some t =>
    obtain ⟨rfl, rfl⟩ := Prod.mk.inj h
    obtain ⟨h1, h2, h3⟩ := hw.switch_vspace cpu (k₁.tasks t).pid
    refine ⟨⟨h1, h2, h3⟩, by decide, ?_, by simp⟩
    rw [← hof]
    funext q
    simp [vspace_of, Kernel.set_current_task]

/-- A call for a user process selects that process; its address space is entered unless
    CURRENT_VSPACE named it already. -/
theorem ktask_schedule_user (hk : Well k) {p : Pid cfg} (hp : p ≠ .kernel) {fresh : TaskPtr × Task cfg}
    {res : ℕ} (h : Kernel.ktask_schedule user_data k cpu p fresh = some (res, k')) :
    Well k' ∧ ((res = 1 ∧ Finds (k.schedulers (user_data p)) cpu) ∨
      (res = 2 ∧ ¬ Finds (k.schedulers (user_data p)) cpu)) ∧
    vspace_of k' = vspace_of k ∧ k'.current_vspace cpu = p ∧ k'.vspace cpu =
      if p = k.current_vspace cpu ∨ vspace_of k p = 0 then k.vspace cpu else vspace_of k p := by
  simp only [Kernel.ktask_schedule, hp, if_false, Kernel.switch_vspace_current, Option.map_eq_some_iff] at h
  obtain ⟨⟨t, k₁⟩, hpop, h⟩ := h
  obtain ⟨hw, hfinds, hcur, hvs, hof⟩ := pop_task_spec (hk.switch_vspace cpu p) hpop
  rw [Kernel.switch_vspace_schedulers] at hfinds
  have hof' : vspace_of k₁ = vspace_of k := by rw [hof]; funext q; simp [vspace_of]
  have hcur' : k₁.current_vspace cpu = p := by rw [hcur]; simp
  have hvs' := switch_vspace_vspace k cpu p
  rw [← hvs] at hvs'
  cases t with
  | none =>
    obtain ⟨rfl, rfl⟩ := Prod.mk.inj h
    exact ⟨hw, Or.inr ⟨rfl, by simpa using hfinds⟩, hof', hcur', hvs'⟩
  | some t =>
    obtain ⟨rfl, rfl⟩ := Prod.mk.inj h
    exact ⟨⟨hw.ok, hw.kernel_null, hw.user_vspace⟩, Or.inl ⟨rfl, by simpa using hfinds⟩, hof', hcur', hvs'⟩

/-! ### The loop -/

theorem Well.selected (hk : Well k) {p : Pid cfg} (hp : p ≠ .kernel)
    (h : k.process_schedule cpu .kernel = some p) : vspace_of k p ≠ 0 :=
  hk.user_vspace p hp (ProcessInfoTable.highest_prio_process_valid h)

/-- What does not change from one round to the next, once the round has returned 2. -/
theorem round_env {k₁ k₂ k₃ k₄ : Kernel cfg} (henv₁ : Env cpu k₁ k₂)
    (hwait : k₂.wait_for_runnable_task cpu = some k₃) (henv₃ : Env cpu k₃ k₄) : Env cpu k₁ k₄ := by
  obtain ⟨htab, -, -, hcur, hvs⟩ := Kernel.wait_unchanged hwait
  have hof : vspace_of k₃ = vspace_of k₂ := by funext q; simp only [vspace_of, htab]
  refine ⟨?_, ?_, ?_, henv₃.well⟩
  · rw [henv₃.current_vspace, hcur, henv₁.current_vspace]
  · rw [henv₃.vspace, hvs, henv₁.vspace]
  · rw [henv₃.vspaces, hof, henv₁.vspaces]

/-- Once the address space in force is that of CURRENT_VSPACE, it stays so. -/
theorem Loop.settled {p : Pid cfg} {calls : List (Pid cfg × Kernel cfg)} {res : ℕ}
    (h : Loop user_data cpu k p calls res k') (hp : p ≠ .kernel → vspace_of k p ≠ 0)
    (hv : k.vspace cpu = vspace_of k (k.current_vspace cpu)) (hres : res = 1) :
    k'.vspace cpu = vspace_of k' (k'.current_vspace cpu) := by
  -- a call for a user process enters its address space or finds it entered
  have user : ∀ {k k₀ k₁ : Kernel cfg} {p : Pid cfg} {fresh : TaskPtr × Task cfg} {res : ℕ},
      Env cpu k k₀ → p ≠ .kernel → vspace_of k p ≠ 0 →
      k.vspace cpu = vspace_of k (k.current_vspace cpu) →
      Kernel.ktask_schedule user_data k₀ cpu p fresh = some (res, k₁) →
      k₁.vspace cpu = vspace_of k₁ (k₁.current_vspace cpu) := by
    intro k k₀ k₁ p fresh res henv hpk hp hv h
    obtain ⟨-, -, hof, hcur, hvs⟩ := ktask_schedule_user henv.well hpk h
    rw [hvs, hof, hcur, henv.vspaces, henv.current_vspace, henv.vspace, hv]
    simp only [hp, or_false]
    split
    · rename_i heq; rw [heq]
    · rfl
  induction h with
  | @found k k₀ k' p fresh res henv h _ =>
    rcases eq_or_ne p .kernel with rfl | hpk
    · exact absurd hres (ktask_schedule_kernel henv.well h).2.1
    · exact user henv hpk (hp hpk) hv h
  | @again k k₀ k₁ k₂ k₃ k₄ k' p p' fresh calls res henv h henv₁ hwait henv₃ hsel _ ih =>
    have henv₄ := round_env henv₁ hwait henv₃
    refine ih (fun hpk => henv₄.well.selected hpk hsel) ?_ hres
    rw [henv₄.vspace, henv₄.current_vspace, henv₄.vspaces]
    rcases eq_or_ne p .kernel with rfl | hpk
    · obtain ⟨-, -, hof, hsame⟩ := ktask_schedule_kernel henv.well h
      obtain ⟨hcur, hvs⟩ := hsame rfl
      rw [hvs, hcur, hof, henv.vspace, henv.current_vspace, henv.vspaces, hv]
    · exact user henv hpk (hp hpk) hv h

/-- The loop while CURRENT_VSPACE names `B` and the address space is still that of `A`. -/
theorem Loop.unsettled {A B p : Pid cfg} {calls : List (Pid cfg × Kernel cfg)} {res : ℕ}
    (h : Loop user_data cpu k p calls res k') (hp : p ≠ .kernel → vspace_of k p ≠ 0)
    (hcur : k.current_vspace cpu = B) (hv : k.vspace cpu = vspace_of k A) (hres : res = 1) :
    k'.vspace cpu = vspace_of k' (k'.current_vspace cpu) ↔
      vspace_of k A = vspace_of k B ∨ Quiet user_data cpu B calls := by
  induction h with
  | @found k k₀ k' p fresh res henv h _ =>
    rcases eq_or_ne p .kernel with rfl | hpk
    · exact absurd hres (ktask_schedule_kernel henv.well h).2.1
    · obtain ⟨-, hfinds, hof, hcur', hvs⟩ := ktask_schedule_user henv.well hpk h
      rw [hvs, hof, hcur', henv.vspaces, henv.current_vspace, henv.vspace, hcur, hv]
      simp only [hp hpk, or_false, Quiet, hpk, if_false]
      rcases eq_or_ne p B with rfl | hpB
      · have hfound : Finds (k₀.schedulers (user_data p)) cpu := by
          rcases hfinds with ⟨-, hfound⟩ | ⟨rfl, -⟩
          · exact hfound
          · simp at hres
        simp [hfound]
      · simp [hpB]
  | @again k k₀ k₁ k₂ k₃ k₄ k' p p' fresh calls res henv h henv₁ hwait henv₃ hsel hrest ih =>
    have henv₄ := round_env henv₁ hwait henv₃
    have hsel' : p' ≠ .kernel → vspace_of k₄ p' ≠ 0 := fun hpk => henv₄.well.selected hpk hsel
    rcases eq_or_ne p .kernel with rfl | hpk
    · obtain ⟨-, -, hof, hsame⟩ := ktask_schedule_kernel henv.well h
      obtain ⟨hcur', hvs⟩ := hsame rfl
      have hof' : vspace_of k₄ = vspace_of k := by rw [henv₄.vspaces, hof, henv.vspaces]
      rw [ih hsel' (by rw [henv₄.current_vspace, hcur', henv.current_vspace, hcur])
        (by rw [henv₄.vspace, hvs, henv.vspace, hv, hof']) hres, hof']
      simp [Quiet]
    · obtain ⟨-, hfinds, hof, hcur', hvs⟩ := ktask_schedule_user henv.well hpk h
      have hof' : vspace_of k₄ = vspace_of k := by rw [henv₄.vspaces, hof, henv.vspaces]
      simp only [Quiet, hpk, if_false]
      rcases eq_or_ne p B with rfl | hpB
      · have hnot : ¬ Finds (k₀.schedulers (user_data p)) cpu := by
          rcases hfinds with ⟨h21, -⟩ | ⟨-, hnot⟩
          · simp at h21
          · exact hnot
        have hvs₄ : k₄.vspace cpu = vspace_of k₄ A := by
          rw [henv₄.vspace, hvs, henv.current_vspace, hcur, hof']
          simp [henv.vspace, hv]
        rw [ih hsel' (by rw [henv₄.current_vspace, hcur']) hvs₄ hres, hof']
        simp [hnot]
      · -- a third process: its address space is entered
        simp only [hpB, if_false, or_true, iff_true]
        refine hrest.settled hsel' ?_ hres
        rw [henv₄.vspace, henv₄.current_vspace, henv₄.vspaces, hvs, hcur', hof, henv.vspaces,
          henv.current_vspace, hcur]
        simp [hpB, hp hpk]

/-- After the hand-over from `A` to `B`, the user task that `utok_schedule` dispatches runs in the
    address space of its process if and only if `A` and `B` share theirs, or `B` never had a task
    when it was tried before a third process was. -/
theorem dispatched_vspace_iff {A B : Pid cfg} (hne : A ≠ B) (hB : vspace_of k B ≠ 0)
    (hv : k.vspace cpu = vspace_of k A) {calls : List (Pid cfg × Kernel cfg)}
    (h : HandOver user_data cpu A B k calls 1 k') :
    k'.vspace cpu = vspace_of k' (k'.current_vspace cpu) ↔
      vspace_of k A = vspace_of k B ∨ Quiet user_data cpu B calls := by
  obtain ⟨fresh, k₁, k₂, k₃, hu, henv, hentry, hloop⟩ := h
  simp only [Kernel.utask_schedule, Ne.symm hne, if_false, Option.some.injEq, Prod.mk.injEq, true_and] at hu
  subst hu
  simp only [Kernel.trap_entry_into_kernel, Prod.mk.injEq, true_and] at hentry
  subst hentry
  have hof : vspace_of k₂ = vspace_of k := henv.vspaces
  have hcur₂ : k₂.current_vspace cpu = B := by rw [henv.current_vspace]; simp
  have hv₂ : k₂.vspace cpu = vspace_of k₂ A := by rw [hof, henv.vspace]; exact hv
  rw [← hof]
  rw [← hof] at hB
  refine hloop.unsettled (fun _ => ?_) hcur₂ hv₂ rfl
  show vspace_of k₂ (k₂.current_vspace cpu) ≠ 0
  rw [hcur₂]; exact hB

/-! ### A hand-over into the wrong address space -/

abbrev cpu₀ : Cpu PriorityOrder.single := PriorityOrder.single_cpu
abbrev pid₁ : Pid PriorityOrder.single := PriorityOrder.single_pid
abbrev pid₂ : Pid PriorityOrder.single := ⟨2, by decide⟩

/-- Processes 1 and 2 are created with the address spaces 11 and 22, a task is queued in process 2
    and the CPU enters the address space of process 1. -/
def hand_over_run : List (PriorityOrder.Op PriorityOrder.single) :=
  [.process_init 11, .process_init 22, .sched pid₁ (.init_sources cpu₀ fun _ => 101),
    .sched pid₂ (.init_sources cpu₀ fun _ => 102), .sched pid₂ (.push_task cpu₀ 13), .switch_vspace pid₁]

/-- The state after the run, and what `utask_schedule(2)`, `trap_entry(2, 0)` and the first round of
    `utok_schedule` make of it. -/
def hand_over_call : Option (Kernel PriorityOrder.single × ℕ × Kernel PriorityOrder.single) :=
  (Kernel.kernel_init_main (fun _ => ⟨.ready, 3, false, false, pid₂⟩) (fun _ => 1) (fun _ => 2) cpu₀
    fun _ => 100).bind fun start =>
  (Runs.run (PriorityOrder.step id cpu₀) start hand_over_run).bind fun k =>
  (k.utask_schedule cpu₀ pid₁ pid₂ (103, ⟨.ready, 0, true, true, .kernel⟩)).bind fun r =>
  (Kernel.ktask_schedule id (r.2.trap_entry_into_kernel cpu₀).2 cpu₀ pid₂
    (103, ⟨.ready, 0, true, true, .kernel⟩)).map fun r' => (k, r')

theorem hand_over_call_result : hand_over_call.map (fun r =>
    (r.2.1, r.2.2.vspace cpu₀, r.2.2.current_vspace cpu₀, vspace_of r.2.2 pid₂)) =
    some (1, 11, pid₂, 22) := by
  decide +kernel

theorem hand_over_call_start : hand_over_call.map (fun r =>
    (r.1.vspace cpu₀, r.1.current_vspace cpu₀, vspace_of r.1 pid₁, vspace_of r.1 pid₂)) =
    some (11, pid₁, 11, 22) := by
  decide +kernel

theorem hand_over_call_valid : hand_over_call.map (fun r =>
    ((r.1.process_info_table.table pid₁).valid, (r.1.process_info_table.table pid₂).valid)) =
    some (true, true) := by
  decide +kernel

theorem hand_over_call_table : hand_over_call.map (fun r => (decide (vspace_of r.1 .kernel = 0),
    decide (∀ p, p ≠ .kernel → (r.1.process_info_table.table p).valid = true → vspace_of r.1 p ≠ 0))) =
    some (true, true) := by
  decide +kernel

/-- The task of process 2 is dispatched in the address space of process 1. -/
theorem hand_over_outcome : ∃ (k k' : Kernel PriorityOrder.single) (calls : _),
    HandOver id cpu₀ pid₁ pid₂ k calls 1 k' ∧ (k.process_info_table.table pid₁).valid = true ∧
    (k.process_info_table.table pid₂).valid = true ∧ k.vspace cpu₀ = vspace_of k pid₁ ∧
      k.current_vspace cpu₀ = pid₁ ∧ vspace_of k pid₁ = 11 ∧
    vspace_of k pid₂ = 22 ∧ k'.vspace cpu₀ = 11 ∧ vspace_of k' (k'.current_vspace cpu₀) = 22 := by
  have hresult := hand_over_call_result
  have hstart := hand_over_call_start
  have htable := hand_over_call_table
  have hvalid := hand_over_call_valid
  simp only [Option.map_eq_some_iff, Prod.mk.injEq] at hresult hstart htable hvalid
  obtain ⟨⟨k, res, k'⟩, hcall, rfl, hv', hcur', hof'⟩ := hresult
  obtain ⟨r₁, hcall₁, hv, hcur, hA, hB⟩ := hstart
  obtain ⟨r₂, hcall₂, hnull, huser⟩ := htable
  obtain rfl := Option.some.inj (hcall.symm.trans hcall₁)
  obtain rfl := Option.some.inj (hcall.symm.trans hcall₂)
  obtain ⟨r₃, hcall₃, hvA, hvB⟩ := hvalid
  obtain rfl := Option.some.inj (hcall.symm.trans hcall₃)
  simp only [hand_over_call, Option.bind_eq_some_iff, Option.map_eq_some_iff, Prod.mk.injEq] at hcall
  obtain ⟨start, hinit, k₀, hrun, r, hu, r', hkt, rfl, rfl⟩ := hcall
  have hsound : PriorityOrder.Sound k₀ := Runs.run_invariant
    (fun _ _ _ hk h => PriorityOrder.sound_step rfl hk h) _ (PriorityOrder.sound_start rfl hinit) hrun
  have hu' := hu
  simp only [Kernel.utask_schedule] at hu'
  rw [if_neg (by decide), Option.some.injEq] at hu'
  have hw : Well k₀ := ⟨hsound.ok, of_decide_eq_true hnull, of_decide_eq_true huser⟩
  have hw₁ : Well r.2 := hu' ▸ ⟨hw.ok, hw.kernel_null, hw.user_vspace⟩
  have hw₂ : Well (r.2.trap_entry_into_kernel cpu₀).2 := ⟨hw₁.ok, hw₁.kernel_null, hw₁.user_vspace⟩
  have hcall₂ : (r.2.trap_entry_into_kernel cpu₀).2.current_vspace cpu₀ = pid₂ := by
    rw [← hu']; rfl
  have hloop : Loop id cpu₀ (r.2.trap_entry_into_kernel cpu₀).2 pid₂
      [(pid₂, (r.2.trap_entry_into_kernel cpu₀).2)] 1 k' :=
    .found ⟨rfl, rfl, rfl, hw₂⟩ hkt (by decide)
  have hover : HandOver id cpu₀ pid₁ pid₂ k₀ [(pid₂, (r.2.trap_entry_into_kernel cpu₀).2)] 1 k' := by
    refine ⟨(103, ⟨.ready, 0, true, true, .kernel⟩), r.2, r.2, (r.2.trap_entry_into_kernel cpu₀).2, ?_,
      ⟨rfl, rfl, rfl, hw₁⟩, rfl, ?_⟩
    · rw [hu, ← hu']
    · rw [hcall₂]; exact hloop
  exact ⟨k₀, k', _, hover, hvA, hvB, hv.trans hA.symm, hcur, hA, hB, hv', by rw [hcur']; exact hof'⟩

/-- The address space is not always that of the dispatched task. -/
theorem hand_over_misplaced : ¬ ∀ (cfg : Config) (cpu : Cpu cfg) (A B : Pid cfg) (k k' : Kernel cfg) (calls : _),
    (k.process_info_table.table A).valid = true → (k.process_info_table.table B).valid = true →
    A ≠ B → vspace_of k A ≠ 0 → vspace_of k B ≠ 0 → k.current_vspace cpu = A →
    k.vspace cpu = vspace_of k A → HandOver id cpu A B k calls 1 k' →
    k'.vspace cpu = vspace_of k' (k'.current_vspace cpu) := by
  intro h
  obtain ⟨k, k', calls, hrun, hvA, hvB, hv, hcur, hA, hB, hv', hof'⟩ := hand_over_outcome
  have heq := h _ cpu₀ pid₁ pid₂ k k' calls hvA hvB (by decide) (by rw [hA]; decide) (by rw [hB]; decide) hcur hv hrun
  rw [hv', hof'] at heq
  exact absurd heq (by decide)

/-- `dispatched_vspace_iff` for that run: process 2 had a task when it was tried first. -/
theorem dispatched_vspace_misplaced : ∃ (k k' : Kernel PriorityOrder.single) (calls : _),
    HandOver id cpu₀ pid₁ pid₂ k calls 1 k' ∧ k'.vspace cpu₀ = 11 ∧ ¬ Quiet id cpu₀ pid₂ calls := by
  obtain ⟨k, k', calls, hrun, -, -, hv, -, hA, hB, hv', hof'⟩ := hand_over_outcome
  have hiff := dispatched_vspace_iff (by decide) (by rw [hB]; decide) hv hrun
  refine ⟨k, k', calls, hrun, hv', fun hquiet => ?_⟩
  have heq := hiff.mpr (Or.inr hquiet)
  rw [hv', hof'] at heq
  exact absurd heq (by decide)

/-! ### A hand-over that ends well -/

/-- The task is queued in process 1 this time. -/
def quiet_run : List (PriorityOrder.Op PriorityOrder.single) :=
  [.process_init 11, .process_init 22, .sched pid₁ (.init_sources cpu₀ fun _ => 101),
    .sched pid₂ (.init_sources cpu₀ fun _ => 102), .sched pid₁ (.push_task cpu₀ 13), .switch_vspace pid₁]

/-- The state after the run, and what the two rounds of `utok_schedule` make of it: for process 2, and for
    the process selected then. -/
def quiet_call : Option (Kernel PriorityOrder.single × (ℕ × Kernel PriorityOrder.single) ×
    Kernel PriorityOrder.single × ℕ × Kernel PriorityOrder.single) :=
  (Kernel.kernel_init_main (fun _ => ⟨.ready, 3, false, false, pid₁⟩) (fun _ => 1) (fun _ => 2) cpu₀
    fun _ => 100).bind fun start =>
  (Runs.run (PriorityOrder.step id cpu₀) start quiet_run).bind fun k =>
  (k.utask_schedule cpu₀ pid₁ pid₂ (103, ⟨.ready, 0, true, true, .kernel⟩)).bind fun r =>
  (Kernel.ktask_schedule id (r.2.trap_entry_into_kernel cpu₀).2 cpu₀ pid₂
    (103, ⟨.ready, 0, true, true, .kernel⟩)).bind fun r₁ =>
  (r₁.2.wait_for_runnable_task cpu₀).bind fun k₂ =>
  (Kernel.ktask_schedule id k₂ cpu₀ pid₁ (103, ⟨.ready, 0, true, true, .kernel⟩)).map fun r₂ => (k, r₁, k₂, r₂)

theorem quiet_call_result : quiet_call.map (fun r =>
    decide (r.2.1.1 = 2 ∧ r.2.2.2.1 = 1 ∧ r.2.2.1.process_schedule cpu₀ .kernel = some pid₁ ∧
      vspace_of r.1 pid₁ = 11 ∧ vspace_of r.1 pid₂ = 22 ∧ vspace_of r.1 .kernel = 0 ∧ r.2.2.2.2.vspace cpu₀ = 11 ∧
      vspace_of r.2.2.2.2 (r.2.2.2.2.current_vspace cpu₀) = 11 ∧
      ∀ p, p ≠ .kernel → (r.1.process_info_table.table p).valid = true → vspace_of r.1 p ≠ 0)) = some true := by
  decide +kernel

/-- Process 2 has no task: the CPU goes back to process 1, and enters its address space. -/
theorem dispatched_vspace_quiet : ∃ (k k' : Kernel PriorityOrder.single) (calls : _),
    HandOver id cpu₀ pid₁ pid₂ k calls 1 k' ∧ vspace_of k pid₁ ≠ vspace_of k pid₂ ∧ Quiet id cpu₀ pid₂ calls ∧
    k'.vspace cpu₀ = vspace_of k' (k'.current_vspace cpu₀) := by
  obtain ⟨⟨k, ⟨res, k₁⟩, k₂, res', k'⟩, hcall, hfacts⟩ := Option.map_eq_some_iff.mp quiet_call_result
  obtain ⟨hres, hres', hsel, hA, hB, hnull, hv', hof', huser⟩ := of_decide_eq_true hfacts
  obtain rfl : res = 2 := hres
  obtain rfl : res' = 1 := hres'
  simp only [quiet_call, Option.bind_eq_some_iff, Option.map_eq_some_iff, Prod.mk.injEq] at hcall
  obtain ⟨start, hinit, k₀, hrun, r, hu, r₁, hkt, k₃, hwait, r₂, hkt', rfl, rfl, rfl, rfl⟩ := hcall
  have hsound : PriorityOrder.Sound k₀ := Runs.run_invariant
    (fun _ _ _ hk h => PriorityOrder.sound_step rfl hk h) _ (PriorityOrder.sound_start rfl hinit) hrun
  have hu' := hu
  simp only [Kernel.utask_schedule] at hu'
  rw [if_neg (by decide), Option.some.injEq] at hu'
  have hw : Well k₀ := ⟨hsound.ok, hnull, huser⟩
  have hw₁ : Well r.2 := hu' ▸ ⟨hw.ok, hw.kernel_null, hw.user_vspace⟩
  have hw₂ : Well (r.2.trap_entry_into_kernel cpu₀).2 := ⟨hw₁.ok, hw₁.kernel_null, hw₁.user_vspace⟩
  have hcur : (r.2.trap_entry_into_kernel cpu₀).2.current_vspace cpu₀ = pid₂ := by
    rw [← hu']; rfl
  -- the first round finds nothing in process 2, and the second one is for process 1
  obtain ⟨hw₃, hfinds, -⟩ := ktask_schedule_user hw₂ (by decide) hkt
  have hnot : ¬ Finds ((r.2.trap_entry_into_kernel cpu₀).2.schedulers pid₂) cpu₀ := by
    rcases hfinds with ⟨hone, -⟩ | ⟨-, hnot⟩
    · exact absurd hone (by decide)
    · exact hnot
  have hw₄ : Well k₃ := hw₃.wait hwait
  have hloop : Loop id cpu₀ (r.2.trap_entry_into_kernel cpu₀).2 pid₂
      [(pid₂, (r.2.trap_entry_into_kernel cpu₀).2), (pid₁, k₃)] 1 k' :=
    .again (.refl hw₂) hkt (.refl hw₃) hwait (.refl hw₄) hsel (.found (.refl hw₄) hkt' (by decide))
  have hover : HandOver id cpu₀ pid₁ pid₂ k₀
      [(pid₂, (r.2.trap_entry_into_kernel cpu₀).2), (pid₁, k₃)] 1 k' := by
    refine ⟨(103, ⟨.ready, 0, true, true, .kernel⟩), r.2, r.2, (r.2.trap_entry_into_kernel cpu₀).2, ?_,
      .refl hw₁, rfl, ?_⟩
    · rw [hu, ← hu']
    · rw [hcur]; exact hloop
  have hquiet : Quiet id cpu₀ pid₂ [(pid₂, (r.2.trap_entry_into_kernel cpu₀).2), (pid₁, k₃)] := by
    simp only [Quiet]
    exact ⟨hnot, trivial⟩
  exact ⟨k₀, k', _, hover, by rw [hA, hB]; decide, hquiet, hv'.trans hof'.symm⟩

end Vsched2.HandOff
