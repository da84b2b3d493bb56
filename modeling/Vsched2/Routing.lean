import Vsched2.ProcessSlots

/-! The scheduler a task is put into, by each of the functions that enqueue one, and the scheduler it
    is popped from. -/

namespace Vsched2

/-- Where a task goes: into the kernel scheduler or the one at an address, or nowhere since
    `push_task` returns `false`, or through a null pointer. -/
inductive Destination where
  | kernel_scheduler
  | scheduler (ptr : ℕ)
  | refused
  | null_deref
  deriving DecidableEq, Repr

namespace ProcessSlots

variable {cfg : Config} {user_data : UserData} {s : ProcessSlots cfg}

/-! ### The code -/

/-- The choice of the scheduler in `api::push_task`. -/
def push_task (s : ProcessSlots cfg) (task : Task cfg) : Destination :=
  if task.is_kernel then .kernel_scheduler
  else if (s.table task.pid).valid = false then .refused
  else
    let ptr := (s.table task.pid).scheduler
    if ptr = 0 then .refused else .scheduler ptr

/-- The one in `push_prev_task` for the state `Ready`. -/
def push_prev_task (s : ProcessSlots cfg) (current_task : Task cfg) : Destination :=
  if current_task.is_kernel then .kernel_scheduler
  else
    let scheduler_ptr := (s.table current_task.pid).scheduler
    if scheduler_ptr = 0 then .kernel_scheduler else .scheduler scheduler_ptr

/-- The one in `trap_handler`, for the task that it wakes up. -/
def trap_handler (s : ProcessSlots cfg) (task : Task cfg) : Destination :=
  if task.is_kernel then .kernel_scheduler
  else
    let scheduler := (s.table task.pid).scheduler
    if scheduler = 0 then .null_deref else .scheduler scheduler

/-- `get_user_data` on CPU `c`: without a vspace pointer, `CURRENT_VSPACE` is passed as one. `none` is
    the assertion that the pointer is not null. -/
def get_user_data (user_data : UserData) (s : ProcessSlots cfg) (c : Cpu cfg) (data : PrivateData)
    (vspace : Option ℕ) : Option ℕ :=
  let vspace := vspace.getD (s.current_vspace c)
  let user_ptr := user_data data vspace
  if user_ptr = 0 then none else some user_ptr

/-- The scheduler `ktask_schedule` pops from; for a user process after `switch_vspace`. -/
def ktask_schedule (user_data : UserData) (s : ProcessSlots cfg) (c : Cpu cfg) (next_pid : Pid cfg) :
    Option Destination :=
  if next_pid = .kernel then some .kernel_scheduler
  else (s.get_user_data user_data c .user_scheduler none).map .scheduler

/-! ### Where a task belongs -/

/-- The slot holds a scheduler: it is valid and the pointer is not null. -/
def HasScheduler (s : ProcessSlots cfg) (p : Pid cfg) : Prop :=
  (s.table p).valid = true ∧ (s.table p).scheduler ≠ 0

/-- The right destination of a task. -/
structure Belongs (s : ProcessSlots cfg) (task : Task cfg) (d : Destination) : Prop where
  kernel : task.is_kernel = true → d = .kernel_scheduler
  user : task.is_kernel = false → s.HasScheduler task.pid → d = .scheduler (s.table task.pid).scheduler
  nowhere : task.is_kernel = false → ¬ s.HasScheduler task.pid → d = .refused

/-- The three functions choose the right destination. -/
structure Agree (s : ProcessSlots cfg) (task : Task cfg) : Prop where
  push_task : s.Belongs task (s.push_task task)
  push_prev_task : s.Belongs task (s.push_prev_task task)
  trap_handler : s.Belongs task (s.trap_handler task)

/-- A task of the kernel belongs to the kernel scheduler. -/
theorem belongs_kernel {task : Task cfg} (h : task.is_kernel = true) :
    s.Belongs task .kernel_scheduler :=
  ⟨fun _ => rfl, by simp [h], by simp [h]⟩

/-- A user task belongs to the scheduler its slot holds. -/
theorem belongs_scheduler {task : Task cfg} (hu : task.is_kernel = false) (hp : s.HasScheduler task.pid) :
    s.Belongs task (.scheduler (s.table task.pid).scheduler) :=
  ⟨by simp [hu], fun _ _ => rfl, fun _ hn => absurd hp hn⟩

theorem belongs_refused {task : Task cfg} (hu : task.is_kernel = false) (hn : ¬ s.HasScheduler task.pid) :
    s.Belongs task .refused :=
  ⟨by simp [hu], fun _ hp => absurd hp hn, fun _ _ => rfl⟩

/-- `push_task` makes both checks. -/
theorem push_task_belongs (s : ProcessSlots cfg) (task : Task cfg) : s.Belongs task (s.push_task task) := by
  simp only [push_task]
  split
  · rename_i hk
    exact belongs_kernel hk
  · rename_i hu
    rw [Bool.not_eq_true] at hu
    split
    · rename_i hv
      exact belongs_refused hu fun hp => Bool.false_ne_true (hv.symm.trans hp.1)
    · split
      · rename_i hnull
        exact belongs_refused hu fun hp => hp.2 hnull
      · rename_i hv hnull
        exact belongs_scheduler hu ⟨by simpa using hv, hnull⟩

/-- A choice that checks the pointer only, and otherwise enqueues at `d`. -/
theorem unchecked_belongs_iff {task : Task cfg} {d : Destination} (hd : d ≠ .refused) :
    s.Belongs task (if task.is_kernel then .kernel_scheduler
      else if (s.table task.pid).scheduler = 0 then d else .scheduler (s.table task.pid).scheduler) ↔
    task.is_kernel = true ∨ s.HasScheduler task.pid := by
  by_cases hk : task.is_kernel = true
  · rw [if_pos hk]
    exact ⟨fun _ => Or.inl hk, fun _ => belongs_kernel hk⟩
  · rw [if_neg hk]
    have hu : task.is_kernel = false := by simpa using hk
    constructor
    · intro h
      refine Or.inr (by_contra fun hn => ?_)
      have hrefused := h.nowhere hu hn
      split at hrefused
      · exact hd hrefused
      · cases hrefused
    · intro h
      have hp := h.resolve_left hk
      rw [if_neg hp.2]
      exact belongs_scheduler hu hp

/-- `push_prev_task` falls back on the kernel scheduler. -/
theorem push_prev_task_belongs_iff (s : ProcessSlots cfg) (task : Task cfg) :
    s.Belongs task (s.push_prev_task task) ↔ task.is_kernel = true ∨ s.HasScheduler task.pid :=
  unchecked_belongs_iff (by decide)

theorem trap_handler_belongs_iff (s : ProcessSlots cfg) (task : Task cfg) :
    s.Belongs task (s.trap_handler task) ↔ task.is_kernel = true ∨ s.HasScheduler task.pid :=
  unchecked_belongs_iff (by decide)

theorem agree_iff (s : ProcessSlots cfg) (task : Task cfg) :
    s.Agree task ↔ task.is_kernel = true ∨ s.HasScheduler task.pid :=
  ⟨fun h => (push_prev_task_belongs_iff s task).mp h.push_prev_task, fun h =>
    ⟨push_task_belongs s task, (push_prev_task_belongs_iff s task).mpr h,
      (trap_handler_belongs_iff s task).mpr h⟩⟩

/-! ### Reachable tables -/

/-- No call is at work on the slot. -/
def Settled (s : ProcessSlots cfg) (p : Pid cfg) : Prop := ∀ i, (s.calls i).slot ≠ some p

/-- A settled slot holds a scheduler exactly while it belongs to a process that `process_init` returned
    and nobody dropped. -/
theorem hasScheduler_iff_live {p : Pid cfg} (hO : s.Owned user_data) (hsettled : s.Settled p) :
    s.HasScheduler p ↔ ∃ vspace, s.life p = .live vspace := by
  have hk := hO.kept p
  have hslot : ∀ i, (s.life p).owner ≠ some i := fun i hi => hsettled i (hk.slot hi)
  unfold Kept at hk
  cases hl : s.life p with
  | kernel =>
    rw [hl] at hk
    simp [HasScheduler, hk.2.2]
  | free =>
    rw [hl] at hk
    simp [HasScheduler, hk]
  | starting i => exact absurd (by rw [hl]; rfl) (hslot i)
  | dropping i vspace => exact absurd (by rw [hl]; rfl) (hslot i)
  | live vspace =>
    rw [hl] at hk
    obtain ⟨hvalid, -, hne, hsched⟩ := hk
    exact ⟨fun _ => ⟨vspace, rfl⟩, fun _ => ⟨hvalid, by rwa [hsched]⟩⟩

/-- The slot holds the scheduler pointer of a process that was dropped: nobody has claimed the slot
    since, or `process_init` has claimed it and not stored its own pointer yet. -/
def Stale (s : ProcessSlots cfg) (p : Pid cfg) : Prop :=
  (s.table p).scheduler ≠ 0 ∧
  (s.life p = .free ∨ ∃ i vspace, s.life p = .starting i ∧
    (s.calls i = .store_vspace vspace p ∨ s.calls i = .store_scheduler vspace p))

/-- A slot is valid again as soon as `process_init` has claimed it. -/
theorem Stale.valid_iff {p : Pid cfg} (hO : s.Owned user_data) (hstale : s.Stale p) :
    (s.table p).valid = false ↔ s.life p = .free := by
  have hk := hO.kept p
  unfold Kept at hk
  obtain hfree | ⟨i, vspace, hstarting, -⟩ := hstale.2
  · rw [hfree] at hk
    exact ⟨fun _ => hfree, fun _ => hk⟩
  · rw [hstarting] at hk
    simp [hstarting, hk.1]

/-- `push_prev_task` and `trap_handler` put a user task through the pointer of a dropped process, and
    so does `push_task` once the slot is claimed again. -/
theorem stale_pointer_used {task : Task cfg} (hO : s.Owned user_data) (huser : task.is_kernel = false)
    (hstale : s.Stale task.pid) :
    s.push_prev_task task = .scheduler (s.table task.pid).scheduler ∧
    s.trap_handler task = .scheduler (s.table task.pid).scheduler ∧
    (s.push_task task = .refused ↔ s.life task.pid = .free) := by
  have hnull := hstale.1
  refine ⟨by simp [push_prev_task, huser, hnull], by simp [trap_handler, huser, hnull], ?_⟩
  rw [← hstale.valid_iff hO]
  cases hv : (s.table task.pid).valid <;> simp [push_task, huser, hv, hnull]

/-- In every table that calls of `process_init` and `process_drop` reach, the three functions agree on
    the right scheduler of a task exactly if it is a kernel task or its slot is valid and holds a
    scheduler. Between the calls on the slot, that is: if its process was returned by `process_init`
    and not dropped since. A stale pointer is followed by `push_prev_task` and `trap_handler`; only
    `push_task` refuses, and only as long as nobody has claimed the slot again. -/
theorem enqueue_paths_agree_iff (user_data : UserData) (as : List (Act cfg)) (s : ProcessSlots cfg)
    (hrun : Runs.run (step user_data) (boot cfg) as = some s) (task : Task cfg) :
    (s.Agree task ↔ task.is_kernel = true ∨ s.HasScheduler task.pid) ∧
    (s.Settled task.pid →
      (s.Agree task ↔ task.is_kernel = true ∨ ∃ vspace, s.life task.pid = .live vspace)) ∧
    (task.is_kernel = false → s.Stale task.pid →
      s.push_prev_task task = .scheduler (s.table task.pid).scheduler ∧
      s.trap_handler task = .scheduler (s.table task.pid).scheduler ∧
      (s.push_task task = .refused ↔ s.life task.pid = .free)) := by
  refine ⟨agree_iff s task, fun hsettled => ?_, stale_pointer_used (run_owned hrun)⟩
  rw [agree_iff, hasScheduler_iff_live (run_owned hrun) hsettled]

/-- The pid `process_init` draws first. -/
def first_pid : Pid solo := solo_pid

/-- A user task of that process. -/
def first_task : Task solo := ⟨.ready, 0, false, false, first_pid⟩

/-- `process_init` with the pointer 4096. -/
def init_4096 : List (Act solo) := .process_init 0 4096 :: List.replicate 4 (.next 0)

theorem enqueue_paths_agree_iff_live : ∃ s : ProcessSlots solo,
    Runs.run (step at_offset) (boot solo) init_4096 = some s ∧
    s.Agree first_task := by
  refine ⟨_, rfl, ?_⟩
  have h := enqueue_paths_agree_iff at_offset init_4096 _ rfl first_task
  exact h.1.mpr (Or.inr ⟨by decide, by decide⟩)

/-- After `process_drop` a task of the process is still enqueued through the pointer left in the slot, and
    a user task whose slot was never used goes to the kernel scheduler or through a null pointer. -/
theorem enqueue_paths_disagree : ∃ s : ProcessSlots solo,
    Runs.run (step at_offset) (boot solo) (init_4096 ++ [.process_drop 0 first_pid, .next 0]) = some s ∧
    s.Stale first_task.pid ∧
    s.push_task first_task = .refused ∧
    s.push_prev_task first_task = .scheduler 4160 ∧
    s.trap_handler first_task = .scheduler 4160 ∧
    ¬ s.Agree first_task ∧
    s.push_prev_task ⟨.ready, 0, false, false, ⟨2, by decide⟩⟩ = .kernel_scheduler ∧
    s.trap_handler ⟨.ready, 0, false, false, ⟨2, by decide⟩⟩ = .null_deref ∧
    ¬ s.Agree ⟨.ready, 0, false, false, ⟨2, by decide⟩⟩ := by
  refine ⟨_, rfl, ⟨by decide, Or.inl (by decide)⟩, by decide, by decide, by decide, ?_, by decide, by decide, ?_⟩
  · intro h
    exact absurd (h.push_prev_task.nowhere rfl fun hp => absurd hp.1 (by decide)) (by decide)
  · intro h
    exact absurd (h.push_prev_task.nowhere rfl fun hp => absurd hp.1 (by decide)) (by decide)

/-! ### Push and pop -/

/-- The scheduler recorded for a process is the object in the address space of its vspace pointer. -/
theorem live_scheduler {p : Pid cfg} {vspace : ℕ} (hO : s.Owned user_data) (hl : s.life p = .live vspace) :
    (s.table p).valid = true ∧ (s.table p).scheduler = user_data .user_scheduler vspace ∧
      user_data .user_scheduler vspace ≠ 0 := by
  have hk := hO.kept p
  simp only [Kept, hl] at hk
  exact ⟨hk.1, hk.2.2.2, hk.2.2.1⟩

/-- A task of a process that `process_init(vspace)` returned and nobody dropped is popped, after
    `switch_vspace` to that process, from the scheduler it was put into, exactly if `get_user_data`
    finds the same scheduler for the pid, taken as a vspace pointer, as for `vspace`. -/
theorem push_pop_meet_iff (user_data : UserData) (as : List (Act cfg)) (s : ProcessSlots cfg)
    (hrun : Runs.run (step user_data) (boot cfg) as = some s) (c : Cpu cfg) (p : Pid cfg) (vspace : ℕ)
    (hp : p ≠ .kernel) (hlive : s.life p = .live vspace) (hcurrent : s.current_vspace c = p)
    (task : Task cfg) (huser : task.is_kernel = false) (hpid : task.pid = p) :
    (∃ ptr, (s.table p).scheduler = ptr ∧ s.push_task task = .scheduler ptr ∧
      s.push_prev_task task = .scheduler ptr ∧ s.ktask_schedule user_data c p = some (.scheduler ptr)) ↔
    user_data .user_scheduler p = user_data .user_scheduler vspace := by
  obtain ⟨hvalid, hsched, hnull⟩ := live_scheduler (run_owned hrun) hlive
  have hagree := (agree_iff s task).mpr (Or.inr (by rw [hpid]; exact ⟨hvalid, by rwa [hsched]⟩))
  have hslot : s.HasScheduler task.pid := by
    rw [hpid]
    exact ⟨hvalid, by rwa [hsched]⟩
  have hpush := hagree.push_task.user huser hslot
  have hprev := hagree.push_prev_task.user huser hslot
  rw [hpid, hsched] at hpush hprev
  simp only [ktask_schedule, if_neg hp, get_user_data, Option.getD_none, hcurrent]
  constructor
  · rintro ⟨ptr, rfl, -, -, hpop⟩
    split at hpop
    · cases hpop
    · simpa [hsched] using hpop
  · intro heq
    refine ⟨_, hsched, hpush, hprev, ?_⟩
    rw [heq, if_neg hnull]
    rfl

/-- `process_init(vspace)`, then a CPU switches to the process. -/
def init_and_switch (vspace : ℕ) : List (Act solo) :=
  .process_init 0 vspace :: List.replicate 4 (.next 0) ++
    [.switch_vspace solo_cpu first_pid, .switch_next solo_cpu, .switch_next solo_cpu]

theorem push_pop_meet_iff_same : ∃ s : ProcessSlots solo,
    Runs.run (step at_offset) (boot solo) (init_and_switch 1) = some s ∧
    ∃ ptr, (s.table first_pid).scheduler = ptr ∧ s.push_task first_task = .scheduler ptr ∧
      s.push_prev_task first_task = .scheduler ptr ∧
      s.ktask_schedule at_offset solo_cpu first_pid = some (.scheduler ptr) :=
  ⟨_, rfl, (push_pop_meet_iff at_offset (init_and_switch 1) _ rfl solo_cpu first_pid 1 (by decide)
    (by decide) (by decide) first_task rfl rfl).mpr rfl⟩

/-- The process has the vspace pointer 4096 and the pid 1: its tasks are put into the scheduler at
    4160 and popped from whatever is at 65. -/
theorem push_pop_miss : ∃ s : ProcessSlots solo,
    Runs.run (step at_offset) (boot solo) (init_and_switch 4096) = some s ∧
    s.life first_pid = .live 4096 ∧ s.current_vspace solo_cpu = first_pid ∧ s.entered solo_cpu = 4096 ∧
    (s.table first_pid).scheduler = 4160 ∧ s.push_task first_task = .scheduler 4160 ∧
    s.push_prev_task first_task = .scheduler 4160 ∧
    s.ktask_schedule at_offset solo_cpu first_pid = some (.scheduler 65) :=
  ⟨_, rfl, by decide, by decide, by decide, by decide, by decide, by decide, by decide⟩

end ProcessSlots

end Vsched2
