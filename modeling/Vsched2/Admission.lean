import Vsched2.Handlers
import Vsched2.Exclusivity

/-! A preempted or woken task can be put back: `push_prev_task` and `trap_handler` find room in the
    ready queue.

    `push_task` refuses a new task only while the queue of its level is full. Tasks that run or wait
    are not counted, so more tasks of one level can be admitted than its queue has places. As long as
    no admission does that, every queue has a place for each of its tasks. -/

namespace Vsched2

variable {cfg : Config}

/-- The process whose scheduler a task is put into. -/
def Task.home (task : Task cfg) : Pid cfg := if task.is_kernel then .kernel else task.pid

namespace Machine

variable {m m' : Machine cfg} {a : Act cfg} {c : Cpu cfg} {t : TaskPtr} {p : Pid cfg} {l : Level cfg}

/-! ### What a step does to the ready queues and to the admitted tasks -/

/-- The task a step puts back into a ready queue. -/
def enqueues (m : Machine cfg) : Act cfg → Option TaskPtr
  | .next c =>
    match m.pc c with
    | .push_prev => some (m.current_task c)
    | .run =>
      match m.stage (m.current_task c) with
      | some (.wake _ t) => some t
      | _ => none
    | _ => none
  | .wake_push t => if t ∈ m.waking then some t else none
  | _ => none

theorem Enqueuer.enqueues (h : Enqueuer m a t) : m.enqueues a = some t := by
  cases h with
  | push_prev c ha hpc ht => simp [Machine.enqueues, ha, hpc, ht]
  | waker ha ht => simp [Machine.enqueues, ha, ht]

/-- How a task comes into a ready queue. -/
inductive Enters (m : Machine cfg) (a : Act cfg) (m' : Machine cfg) (t : TaskPtr) (p : Pid cfg) (l : Level cfg) :
    Prop where
  | back (he : m.enqueues a = some t) (hp : (m.tasks t).home = p) (hl : cfg.level (m.tasks t).priority = some l)
  | new (hadm : t ∈ m'.admitted) (hp : (m'.tasks t).home = p) (hl : cfg.level (m'.tasks t).priority = some l)

theorem mem_set_ready {u : TaskPtr} {q : Pid cfg} {k : Level cfg}
    (h : t ∈ (m.set_ready q k (m.ready q k ++ [u])).ready p l) : t ∈ m.ready p l ∨ t = u ∧ p = q ∧ l = k := by
  rcases eq_or_ne p q with rfl | hp
  · rcases eq_or_ne l k with rfl | hl
    · simp only [set_ready, Function.update_self, List.mem_append, List.mem_singleton] at h
      exact h.imp_right fun h => ⟨h, rfl, rfl⟩
    · exact Or.inl (by simpa [set_ready, hl] using h)
  · exact Or.inl (by simpa [set_ready, hp] using h)

theorem step_ready (hs : m.step a = some m') (hmem : t ∈ m'.ready p l) :
    t ∈ m.ready p l ∨ Enters m a m' t p l := by
  cases step_effect hs with
  | enqueue u m₁ who hp hq =>
    obtain ⟨k, hk, -, rfl⟩ := push_task_eq_some hp
    rcases mem_set_ready ((hq.ready p l).subset hmem) with h | ⟨rfl, rfl, rfl⟩
    · exact Or.inl h
    · exact Or.inr (.back who.enqueues rfl hk)
  | push_trap c task m₁ hp hq =>
    obtain rfl := push_trap_eq_some hp
    exact Or.inl ((hq.ready p l).subset hmem)
  | arrive u task m₁ ha hk _ hp hm =>
    obtain ⟨k, hk', -, rfl⟩ := push_task_eq_some hp
    rw [hm] at hmem ⊢
    rcases mem_set_ready (m := m.create u task none) hmem with h | ⟨rfl, rfl, rfl⟩
    · exact Or.inl h
    · exact Or.inr (.new (List.mem_append_right _ (List.mem_singleton_self t)) rfl hk')
  | handler c st ha hpc h₀ hm =>
    rcases handler_next_ready m c st with h | ⟨item, u, k, rfl, hk, h⟩
    · rw [hm, h] at hmem
      exact Or.inl hmem
    · rw [hm, h] at hmem
      rcases mem_set_ready hmem with h | ⟨rfl, rfl, rfl⟩
      · exact Or.inl h
      · exact Or.inr (.back (by simp [Machine.enqueues, ha, hpc, h₀]) rfl hk)
  | dealloc c _ hm =>
    rw [hm] at hmem
    exact Or.inl hmem
  | quiet hq | take_idle c pid g rest _ _ hq | push_idle c _ hq | set_pid c g pid _ hq | new_handler g task _ _ hq =>
    exact Or.inl ((hq.ready p l).subset hmem)

/-- What a step does to the ghost variables of admission. A task that is taken off is nowhere. -/
inductive Admits (m : Machine cfg) (a : Act cfg) (m' : Machine cfg) : Prop where
  | same (he : m'.entered = m.entered) (ha : m'.admitted = m.admitted)
  | off (t st) (he : m'.entered = m.entered) (ha : m'.admitted = m.admitted.erase t)
      (hv : m'.view t = .off true st false)
  | new (t task l) (ha : a = .arrive t task) (hk : m.known t = false) (hl : cfg.level task.priority = some l)
      (ht : m'.tasks t = task) (hk' : m'.known t = true) (hst : m'.stage t = none)
      (he : m'.entered = Function.update m.entered t true) (ha' : m'.admitted = m.admitted ++ [t])

theorem dealloc_prev_nowhere (hI : Inv m) (hpc : m.pc c = .dealloc_prev) :
    ({ m with admitted := m.admitted.erase (m.current_task c) }.set_pc c (.sched false)).view (m.current_task c) =
      .off true .exited false := by
  obtain ⟨hst, hv⟩ := hI.view_at hpc rfl (by simp)
  have hsame : { m with admitted := m.admitted.erase (m.current_task c) }.view (m.current_task c) =
      m.view (m.current_task c) := rfl
  rw [view_set_pc, hsame, hv, hst.1, hst.2, if_neg (by simp [Pc.owner]), View.set_cpu_set_cpu,
    View.set_cpu_eq_self (by rfl)]
  exact View.set_spin_eq_self (by simp [Pc.waits_for])

theorem exited_nowhere {item : TrapItem} (hI : Inv m) (h₀ : m.stage (m.current_task c) = some (.exited item t)) :
    (m.handler_next c (.exited item t)).view t = .off true .exited false := by
  obtain ⟨hst, hv⟩ := hI.hand_view h₀ (t := t) rfl
  have hsame : ({ m with admitted := m.admitted.erase t }.emit (.dealloc_task (m.current_task c) item.info t)).view t =
      m.view t := rfl
  simp only [handler_next]
  rw [view_set_stage, hsame, hv, hst, if_neg (by simp [Stage.holds]), View.set_hand_set_hand]
  exact View.set_hand_eq_self (by rfl)

theorem step_admits (hI : Inv m) (hs : m.step a = some m') : Admits m a m' := by
  cases step_effect hs with
  | enqueue u m₁ who hp hq =>
    obtain ⟨k, hk, -, rfl⟩ := push_task_eq_some hp
    exact .same hq.entered hq.admitted
  | push_trap c task m₁ hp hq =>
    obtain rfl := push_trap_eq_some hp
    exact .same hq.entered hq.admitted
  | arrive u task m₁ ha hk _ hp hm =>
    obtain ⟨k, hk', -, rfl⟩ := push_task_eq_some hp
    rw [hm]
    refine .new u task k ha hk (by simpa [create] using hk') ?_ ?_ ?_ rfl rfl
    · simp [create, set_ready]
    · simp [create, set_ready]
    · simp [create, set_ready]
  | handler c st ha hpc h₀ hm =>
    obtain ⟨he, hadm | ⟨item, u, rfl, hadm⟩⟩ := handler_next_admitted m c st
    · exact .same (hm ▸ he) (hm ▸ hadm)
    · exact .off u .exited (hm ▸ he) (hm ▸ hadm) (hm ▸ exited_nowhere hI h₀)
  | dealloc c hpc hm => exact .off (m.current_task c) .exited (hm ▸ rfl) (hm ▸ rfl) (hm ▸ dealloc_prev_nowhere hI hpc)
  | quiet hq | take_idle c pid g rest _ _ hq | push_idle c _ hq | set_pid c g pid _ hq | new_handler g task _ _ hq =>
    exact .same hq.entered hq.admitted

/-! ### Room for every admitted task -/

/-- The admitted tasks of a level of a process. -/
def population (m : Machine cfg) (p : Pid cfg) (l : Level cfg) : ℕ :=
  m.admitted.countP fun t => (m.tasks t).home = p ∧ cfg.level (m.tasks t).priority = some l

/-- Only a task that `push_task` has accepted before is put back. -/
def Reenqueues (m : Machine cfg) (a : Act cfg) : Prop := ∀ t ∈ m.enqueues a, m.entered t = true

/-- A task that arrives belongs to a level with fewer admitted tasks than its queue has places. -/
def Room (m : Machine cfg) : Act cfg → Prop
  | .arrive _ task => ∀ l ∈ cfg.level task.priority, m.population task.home l < cfg.ready_queue_size
  | _ => True

instance (m : Machine cfg) (a : Act cfg) : Decidable (Reenqueues m a) :=
  inferInstanceAs (Decidable (∀ t ∈ m.enqueues a, m.entered t = true))

instance (m : Machine cfg) : ∀ a : Act cfg, Decidable (Room m a)
  | .arrive _ task =>
    inferInstanceAs (Decidable (∀ l ∈ cfg.level task.priority, m.population task.home l < cfg.ready_queue_size))
  | .irq _ | .trap _ | .set_self _ _ | .leave _ _ | .poll_ready _ | .wake _ | .wake_push _ | .pop_ready _ _ _
  | .take_trap _ | .fail _ _ | .into_kernel _ _ | .new_handler _ _ _ | .check _ _ | .wait_return _ | .handle_exits _
  | .next _ => isTrue trivial

/-- An accepted task is admitted until it is nowhere; the tasks in a ready queue are admitted tasks of
    its level, of which there are no more than it has places. -/
structure Registered (m : Machine cfg) : Prop where
  nodup : m.admitted.Nodup
  entered : ∀ t, m.entered t = true → t ∈ m.admitted ∨ ∃ st, m.view t = .off true st false
  known : ∀ t ∈ m.admitted, m.known t = true
  no_handler : ∀ t ∈ m.admitted, m.stage t = none
  level : ∀ t ∈ m.admitted, ∃ l, cfg.level (m.tasks t).priority = some l
  ready : ∀ p l, ∀ t ∈ m.ready p l,
    t ∈ m.admitted ∧ (m.tasks t).home = p ∧ cfg.level (m.tasks t).priority = some l
  bounded : ∀ p l, m.population p l ≤ cfg.ready_queue_size

theorem SameData.home (h : SameData m m' t) (hst : m.stage t = none) : (m'.tasks t).home = (m.tasks t).home := by
  simp only [Task.home, h.is_kernel, h.pid hst]

/-- Where a task that is put back stands. -/
theorem enqueues_view (he : m.enqueues a = some t) :
    (∃ c, (m.view t).cpu c = some .push_prev) ∨ (∃ h item, (m.view t).hand h = some (.wake item t)) ∨
    (m.view t).waking ≠ 0 := by
  cases a with
  | next c =>
    simp only [enqueues] at he
    split at he
    · rename_i hpc
      obtain rfl := Option.some.inj he
      exact Or.inl ⟨c, by simp [view, hpc, Pc.owner]⟩
    · split at he
      · rename_i item u h₀
        obtain rfl := Option.some.inj he
        exact Or.inr (Or.inl ⟨_, item, (view_hand h₀).trans (if_pos rfl)⟩)
      · cases he
    · cases he
  | wake_push u =>
    simp only [enqueues] at he
    split at he
    · rename_i hmem
      obtain rfl := Option.some.inj he
      exact Or.inr (Or.inr (List.count_pos_iff.mpr hmem).ne')
    · cases he
  | _ => simp [enqueues] at he

/-- A task that is put back is somewhere, but in no ready queue. -/
theorem enqueues_somewhere (he : m.enqueues a = some t) (st : TaskState) : m.view t ≠ .off true st false := by
  intro hv
  rcases enqueues_view he with ⟨c, h⟩ | ⟨g, item, h⟩ | h <;> simp [hv] at h

theorem enqueues_not_ready (hI : Inv m) (he : m.enqueues a = some t) (p : Pid cfg) (l : Level cfg) :
    t ∉ m.ready p l := by
  intro hmem
  have hv := (hI.legit t).of_ready (p := p) (l := l) (List.count_pos_iff.mpr hmem).ne'
  rcases enqueues_view he with ⟨c, h⟩ | ⟨g, item, h⟩ | h <;> simp [hv] at h

theorem ready_somewhere (hI : Inv m) (hmem : t ∈ m.ready p l) (st : TaskState) : m.view t ≠ .off true st false :=
  ((hI.legit t).free_of_ready (p := p) (l := l) (List.count_pos_iff.mpr hmem).ne').1 st

theorem Registered.of_enqueues (hR : Registered m) (hre : Reenqueues m a) (he : m.enqueues a = some t) :
    t ∈ m.admitted := by
  rcases hR.entered t (hre t he) with h | ⟨st, hv⟩
  · exact h
  · exact absurd hv (enqueues_somewhere he st)

/-! ### One step -/

theorem Admits.mem_or_new (hA : Admits m a m') (hmem : t ∈ m'.admitted) :
    t ∈ m.admitted ∨ a = .arrive t (m'.tasks t) ∧ m'.known t = true ∧ m'.stage t = none ∧
      ∃ l, cfg.level (m'.tasks t).priority = some l := by
  cases hA with
  | same he ha => exact Or.inl (ha ▸ hmem)
  | off u st he ha hv => exact Or.inl (List.mem_of_mem_erase (ha ▸ hmem))
  | new u task l ha hk hl ht hk' hst he ha' =>
    rw [ha'] at hmem
    rcases List.mem_append.mp hmem with h | h
    · exact Or.inl h
    · obtain rfl := List.mem_singleton.mp h
      exact Or.inr ⟨ht ▸ ha, hk', hst, l, ht ▸ hl⟩

theorem Admits.mem_or_nowhere (hA : Admits m a m') (hmem : t ∈ m.admitted) :
    t ∈ m'.admitted ∨ ∃ st, m'.view t = .off true st false := by
  cases hA with
  | same he ha => exact Or.inl (ha ▸ hmem)
  | off u st he ha hv =>
    rcases eq_or_ne t u with rfl | hne
    · exact Or.inr ⟨st, hv⟩
    · exact Or.inl (ha ▸ (List.mem_erase_of_ne hne).mpr hmem)
  | new u task l ha hk hl ht hk' hst he ha' => exact Or.inl (ha' ▸ List.mem_append_left _ hmem)

theorem Admits.entered_or_new (hA : Admits m a m') (h : m'.entered t = true) :
    m.entered t = true ∨ t ∈ m'.admitted := by
  cases hA with
  | same he ha => exact Or.inl (he ▸ h)
  | off u st he ha hv => exact Or.inl (he ▸ h)
  | new u task l ha hk hl ht hk' hst he ha' =>
    rcases eq_or_ne t u with rfl | hne
    · exact Or.inr (ha' ▸ List.mem_append_right _ (List.mem_singleton_self t))
    · exact Or.inl (by simpa [he, hne] using h)

theorem Admits.nodup (hA : Admits m a m') (hR : Registered m) : m'.admitted.Nodup := by
  cases hA with
  | same he ha => exact ha ▸ hR.nodup
  | off u st he ha hv => exact ha ▸ hR.nodup.erase u
  | new u task l ha hk hl ht hk' hst he ha' =>
    have hno : u ∉ m.admitted := by
      intro hmem
      simp [hR.known u hmem] at hk
    rw [ha']
    exact List.nodup_append.mpr ⟨hR.nodup, List.nodup_singleton u,
      by simpa using fun v hv => ne_of_mem_of_not_mem hv hno⟩

/-- The population of a level grows by an admission only. -/
theorem Admits.population_le (hA : Admits m a m')
    (hdata : ∀ u ∈ m.admitted, (m'.tasks u).home = (m.tasks u).home ∧ (m'.tasks u).priority = (m.tasks u).priority)
    (hroom : Room m a) (hle : m.population p l ≤ cfg.ready_queue_size) : m'.population p l ≤ cfg.ready_queue_size := by
  have hsame : m.admitted.countP (fun u => (m'.tasks u).home = p ∧ cfg.level (m'.tasks u).priority = some l) =
      m.population p l := by
    refine List.countP_congr fun u hu => ?_
    simp [hdata u hu]
  cases hA with
  | same he ha => simpa only [population, ha, hsame] using hle
  | off u st he ha hv =>
    refine le_trans ?_ (hsame.trans_le hle)
    rw [population, ha]
    exact List.erase_sublist.countP_le
  | new u task k ha hk hl ht hk' hst he ha' =>
    rw [population, ha', List.countP_append, hsame]
    by_cases hu : task.home = p ∧ k = l
    · obtain ⟨rfl, rfl⟩ := hu
      subst ha
      have := hroom k hl
      rw [List.countP_singleton]
      split <;> omega
    · rw [List.countP_singleton, if_neg (by simpa [ht, hl] using hu)]
      simpa using hle

theorem step_registered (hI : Inv m) (hS : Staffed m) (hR : Registered m) (hg : Reenqueues m a ∧ Room m a)
    (hs : m.step a = some m') : Registered m' := by
  have hA := step_admits hI hs
  have hdata : ∀ u ∈ m.admitted, SameData m m' u := fun u hu => step_data hS hs (hR.known u hu)
  have hhome : ∀ u ∈ m.admitted, (m'.tasks u).home = (m.tasks u).home :=
    fun u hu => (hdata u hu).home (hR.no_handler u hu)
  refine ⟨hA.nodup hR, ?_, ?_, ?_, ?_, ?_, fun p l => hA.population_le (fun u hu => ⟨hhome u hu, (hdata u hu).priority⟩)
    hg.2 (hR.bounded p l)⟩
  · intro t ht
    rcases hA.entered_or_new ht with ht | hmem
    · rcases hR.entered t ht with hmem | ⟨st, hv⟩
      · exact hA.mem_or_nowhere hmem
      · exact Or.inr ⟨st, (step_follows hI hs t).nowhere hv⟩
    · exact Or.inl hmem
  · intro t ht
    rcases hA.mem_or_new ht with hmem | ⟨-, hk, -⟩
    · exact step_known hs (hR.known t hmem)
    · exact hk
  · intro t ht
    rcases hA.mem_or_new ht with hmem | ⟨-, -, hst, -⟩
    · exact (step_stage_eq_none hs (hR.known t hmem)).mpr (hR.no_handler t hmem)
    · exact hst
  · intro t ht
    rcases hA.mem_or_new ht with hmem | ⟨-, -, -, hl⟩
    · rw [(hdata t hmem).priority]
      exact hR.level t hmem
    · exact hl
  · intro p l t ht
    -- a task in a queue is somewhere, so it has not been deallocated
    have hkept : t ∈ m.admitted → t ∈ m'.admitted := fun hmem =>
      (hA.mem_or_nowhere hmem).resolve_right fun ⟨st, hv⟩ => ready_somewhere (step_inv hI hs) ht st hv
    have hold : t ∈ m.admitted → (m.tasks t).home = p → cfg.level (m.tasks t).priority = some l →
        t ∈ m'.admitted ∧ (m'.tasks t).home = p ∧ cfg.level (m'.tasks t).priority = some l := by
      intro hmem hp hl
      rw [hhome t hmem, (hdata t hmem).priority]
      exact ⟨hkept hmem, hp, hl⟩
    rcases step_ready hs ht with hmem | henters
    · obtain ⟨hmem, hp, hl⟩ := hR.ready p l t hmem
      exact hold hmem hp hl
    · cases henters with
      | back he hp hl => exact hold (hR.of_enqueues hg.1 he) hp hl
      | new hadm hp hl => exact ⟨hadm, hp, hl⟩

/-! ### Putting a task back -/

/-- Where there is room for every admitted task, one that is in no queue can be put back. -/
theorem push_task_ne_none (hI : Inv m) (hR : Registered m) (hmem : t ∈ m.admitted) (hout : ∀ p l, t ∉ m.ready p l) :
    m.push_task t ≠ none := by
  obtain ⟨l, hl⟩ := hR.level t hmem
  have hsub : t :: m.ready (m.home t) l ⊆
      m.admitted.filter fun u => (m.tasks u).home = m.home t ∧ cfg.level (m.tasks u).priority = some l := by
    intro u hu
    rw [List.mem_filter, decide_eq_true_eq]
    rcases List.mem_cons.mp hu with rfl | hu
    · exact ⟨hmem, rfl, hl⟩
    · exact hR.ready _ l u hu
  have hnd : (t :: m.ready (m.home t) l).Nodup :=
    List.nodup_cons.mpr ⟨hout _ _, Exclusivity.ready_nodup hI _ _⟩
  have hlen := (List.subperm_of_subset hnd hsub).length_le
  rw [List.length_cons, ← List.countP_eq_length_filter] at hlen
  have hroom : (m.ready (m.home t) l).length < cfg.ready_queue_size := lt_of_lt_of_le hlen (hR.bounded _ l)
  simp [push_task, hl, hroom]

theorem ready_full_next (hs : m.step a = some m') (hc : m'.pc c = .panicked .ready_full)
    (hno : m.pc c ≠ .panicked .ready_full) : ∃ t, m.enqueues a = some t ∧ m.push_task t = none := by
  have hcpu : a.cpu = some c := cpu_of_pc_ne hs (by rw [hc]; exact hno.symm)
  cases (panic_cause hs hc).resolve_left hno with
  | push_prev hpc h =>
    obtain rfl := eq_next hs hcpu (by simp [in_code, hpc]) (by simp [hpc, Pc.in_function])
    exact ⟨_, by simp [enqueues, hpc], h⟩
  | wake item t hpc h₀ h =>
    obtain rfl := eq_next hs hcpu (by simp [in_code, h₀]) (by simp [hpc, Pc.in_function])
    exact ⟨t, by simp [enqueues, hpc, h₀], h⟩

/-- The invariant of a run whose steps meet both conditions. -/
structure Roomy (m : Machine cfg) : Prop where
  inv : Inv m
  staffed : Staffed m
  registered : Registered m
  not_full : ∀ c, m.pc c ≠ .panicked .ready_full

theorem step_roomy (h : Roomy m) (hg : Reenqueues m a ∧ Room m a) (hs : m.step a = some m') : Roomy m' where
  inv := step_inv h.inv hs
  staffed := step_staffed h.inv h.staffed hs
  registered := step_registered h.inv h.staffed h.registered hg hs
  not_full := by
    intro c hc
    obtain ⟨t, he, hnone⟩ := ready_full_next hs hc (h.not_full c)
    exact push_task_ne_none h.inv h.registered (h.registered.of_enqueues hg.1 he) (enqueues_not_ready h.inv he) hnone

theorem start_roomy (b : Boot cfg) : Roomy b.machine where
  inv := b.inv
  staffed := b.staffed
  registered := by constructor <;> simp [Boot.machine, population]
  not_full := by simp [Boot.machine]

/-- As long as no task arrives at a level that has as many admitted tasks as places, a task that was
    accepted once can always be put back. -/
theorem put_back_never_fails (b : Boot cfg) (acts : List (Act cfg)) (m : Machine cfg)
    (hrun : Runs.run step b.machine acts = some m) (hre : Runs.Along step Reenqueues b.machine acts)
    (hroom : Runs.Along step Room b.machine acts) (c : Cpu cfg) : m.pc c ≠ .panicked .ready_full := by
  have hR : Roomy m := Runs.along_invariant (fun _ _ _ h hg hs => step_roomy h hg hs) acts (start_roomy b)
    (hre.and hroom) hrun
  exact hR.not_full c

/-- A kernel thread of the highest priority. -/
def kernel_thread : Task solo := ⟨.ready, 0, false, true, .kernel⟩

/-- Task 10 arrives; the init task blocks itself, and task 10 runs. -/
def dispatched : List (Act solo) :=
  [.arrive 10 kernel_thread, .set_self solo_cpu .blocking, .leave solo_cpu false,
    .pop_ready solo_cpu .kernel .top, .next solo_cpu, .next solo_cpu]

/-- The running task is interrupted. -/
def preempted (c : Cpu cfg) : List (Act cfg) := [.irq c, .next c, .next c, .next c]

theorem put_back_never_fails_preempted : ∃ m : Machine solo,
    Runs.run step (Boot.plain solo).machine (dispatched ++ preempted solo_cpu) = some m ∧
    10 ∈ m.ready .kernel .top ∧ m.pc solo_cpu ≠ .panicked .ready_full := by
  have hrun : ((Runs.run step (Boot.plain solo).machine (dispatched ++ preempted solo_cpu)).map fun m =>
      decide (10 ∈ m.ready .kernel .top)) = some true := by decide +kernel
  obtain ⟨m, hm, hready⟩ := Option.map_eq_some_iff.mp hrun
  exact ⟨m, hm, of_decide_eq_true hready, put_back_never_fails (Boot.plain solo) _ m hm (by decide +kernel)
    (by decide +kernel) solo_cpu⟩

/-! ### A level with more tasks than places -/

theorem push_task_eq_none_congr (hprio : (m'.tasks t).priority = (m.tasks t).priority) (hhome : m'.home t = m.home t)
    (hready : m'.ready = m.ready) (h : m.push_task t = none) : m'.push_task t = none := by
  simp only [push_task, hprio, hhome, hready] at h ⊢
  cases hl : cfg.level (m.tasks t).priority with
  | none => rfl
  | some l => simpa [hl] using h

/-- A running task whose queue is full cannot be preempted. -/
theorem preempted_panics (hcode : m.in_code c = true) (hst : (m.tasks (m.current_task c)).state = .running)
    (hsl : m.is_sleeping c = false) (htraps : (m.traps c).length < cfg.trap_wait_queue_size)
    (hfull : m.push_task (m.current_task c) = none) : ∃ m', Runs.run step m (preempted c) = some m' ∧
      m'.pc c = .panicked .ready_full ∧
      (m.entered (m.current_task c) = true → Runs.Along step Reenqueues m (preempted c)) := by
  obtain ⟨m₁, hm₁⟩ : ∃ m₁, m₁ = (((m.save_context (m.current_task c) false).set_in_kernel c true).set_sleeping c
    false).set_pc c (.irq_push false) := ⟨_, rfl⟩
  have h₁ : m.step (.irq c) = some m₁ := by simp [step, irq, hcode, hsl, hm₁]
  have hpc₁ : m₁.pc c = .irq_push false := by simp [hm₁, set_pc]
  obtain ⟨m₂, hp⟩ : ∃ m₂, m₁.push_trap c none = some m₂ := by
    simp [push_trap, hm₁, set_pc, set_sleeping, set_in_kernel, save_context, htraps]
  obtain ⟨m₃, hm₃⟩ : ∃ m₃, m₃ = m₂.set_pc c .irq_state := ⟨_, rfl⟩
  have h₂ : m₁.step (.next c) = some m₃ := by simp [step, next, hpc₁, hp, hm₃]
  have hpc₃ : m₃.pc c = .irq_state := by simp [hm₃, set_pc]
  -- trap context and trap queue do not matter for `push_task`
  have hcur : m₃.current_task c = m.current_task c := by
    rw [hm₃, push_trap_eq_some hp, hm₁]
    rfl
  have htask : m₃.tasks (m.current_task c) = { m.tasks (m.current_task c) with is_coroutine := false } := by
    rw [hm₃, push_trap_eq_some hp, hm₁]
    simp [set_pc, set_sleeping, set_in_kernel, save_context]
  have hready : m₃.ready = m.ready := by
    rw [hm₃, push_trap_eq_some hp, hm₁]
    rfl
  obtain ⟨m₄, hm₄⟩ : ∃ m₄, m₄ = (m₃.set_state (m.current_task c) .ready).set_pc c .push_prev := ⟨_, rfl⟩
  have h₃ : m₃.step (.next c) = some m₄ := by simp [step, next, hpc₃, hcur, htask, hst, hm₄]
  have hpc₄ : m₄.pc c = .push_prev := by simp [hm₄, set_pc]
  have hcur₄ : m₄.current_task c = m.current_task c := by rw [hm₄]; exact hcur
  have hfull₄ : m₄.push_task (m.current_task c) = none := by
    refine push_task_eq_none_congr ?_ ?_ ?_ hfull
    · simp [hm₄, set_pc, set_state, Tasks.set_state, htask]
    · simp [hm₄, home, set_pc, set_state, Tasks.set_state, htask]
    · rw [hm₄]
      exact hready
  have h₄ : m₄.step (.next c) = some (m₄.set_pc c (.panicked .ready_full)) := by
    simp [step, next, hpc₄, hcur₄, hfull₄]
  have hentered : m₄.entered = m.entered := by
    rw [hm₄, hm₃, push_trap_eq_some hp, hm₁]
    rfl
  refine ⟨m₄.set_pc c (.panicked .ready_full), ?_, by simp [set_pc], fun hin => ?_⟩
  · simp only [preempted, Runs.run_cons, h₁, h₂, h₃, h₄, Option.bind_some, Runs.run_nil]
  · simp only [preempted, Runs.Along, h₁, h₂, h₃, h₄, Option.some.injEq, forall_eq', and_true]
    refine ⟨?_, ?_, ?_, ?_⟩
    · simp [Reenqueues, enqueues]
    · simp [Reenqueues, enqueues, hpc₁]
    · simp [Reenqueues, enqueues, hpc₃]
    · simpa [Reenqueues, enqueues, hpc₄, hcur₄, hentered] using hin

/-- `n` tasks have arrived at a level; the tasks that were there and the CPUs are as before. -/
structure Filled (m m' : Machine cfg) (p : Pid cfg) (l : Level cfg) (n : ℕ) : Prop where
  length : (m'.ready p l).length = (m.ready p l).length + n
  pc : m'.pc = m.pc
  current_task : m'.current_task = m.current_task
  is_sleeping : m'.is_sleeping = m.is_sleeping
  traps : m'.traps = m.traps
  kept : ∀ u, m.known u = true → m'.known u = true ∧ m'.tasks u = m.tasks u ∧ m'.stage u = m.stage u ∧
    m'.entered u = m.entered u

theorem arrive_filled {task : Task cfg} (hst : task.state = .ready) (hl : cfg.level task.priority = some l)
    (hk : m.known t = false) (hroom : (m.ready task.home l).length < cfg.ready_queue_size) :
    ∃ m', m.step (.arrive t task) = some m' ∧ Filled m m' task.home l 1 ∧ ∀ u, u ≠ t → m'.known u = m.known u := by
  have htask : (m.create t task none).tasks t = task := by simp [create]
  have hhome : (m.create t task none).home t = task.home := by
    simp only [home, htask]
    rfl
  have hpush : (m.create t task none).push_task t =
      some ((m.create t task none).set_ready task.home l (m.ready task.home l ++ [t])) := by
    have hroom' : ((m.create t task none).ready task.home l).length < cfg.ready_queue_size := hroom
    simp only [push_task, htask, hl, hhome, Option.bind_some, if_pos hroom']
    rfl
  refine ⟨_, by simp only [step, arrive, hk, hst, and_self, if_true, hpush]; rfl, ?_, fun u hu => ?_⟩
  · refine ⟨by simp [set_ready], rfl, rfl, rfl, rfl, fun u hu => ?_⟩
    have hne : u ≠ t := by
      rintro rfl
      simp [hk] at hu
    simp [set_ready, create, hne, hu]
  · simp [set_ready, create, hu]

theorem arrive_all_filled {task : Task cfg} (hst : task.state = .ready) (hl : cfg.level task.priority = some l) :
    ∀ (ts : List TaskPtr) (m : Machine cfg), ts.Nodup → (∀ t ∈ ts, m.known t = false) →
      (m.ready task.home l).length + ts.length ≤ cfg.ready_queue_size →
      ∃ m', Runs.run step m (ts.map (fun t => Act.arrive t task)) = some m' ∧ Filled m m' task.home l ts.length ∧
        Runs.Along step Reenqueues m (ts.map (fun t => Act.arrive t task)) := by
  intro ts
  induction ts with
  | nil =>
    intro m _ _ _
    exact ⟨m, rfl, ⟨rfl, rfl, rfl, rfl, rfl, fun _ hu => ⟨hu, rfl, rfl, rfl⟩⟩, trivial⟩
  | cons t ts ih =>
    intro m hnd hk hroom
    rw [List.length_cons] at hroom
    obtain ⟨hnot, hnd⟩ := List.nodup_cons.mp hnd
    obtain ⟨m₁, h₁, hf, hsame⟩ := arrive_filled hst hl (hk t List.mem_cons_self) (by omega)
    have hk₁ : ∀ u ∈ ts, m₁.known u = false := by
      intro u hu
      rw [hsame u (ne_of_mem_of_not_mem hu hnot)]
      exact hk u (List.mem_cons_of_mem t hu)
    obtain ⟨m', hm', hf', halong⟩ := ih m₁ hnd hk₁ (by rw [hf.length]; omega)
    refine ⟨m', by simp [h₁, hm'], ⟨?_, ?_, ?_, ?_, ?_, fun u hu => ?_⟩, fun s hs => ?_⟩
    · rw [hf'.length, hf.length, List.length_cons]
      omega
    · rw [hf'.pc, hf.pc]
    · rw [hf'.current_task, hf.current_task]
    · rw [hf'.is_sleeping, hf.is_sleeping]
    · rw [hf'.traps, hf.traps]
    · obtain ⟨hk, ht, hs, he⟩ := hf.kept u hu
      obtain ⟨hk', ht', hs', he'⟩ := hf'.kept u hk
      exact ⟨hk', ht'.trans ht, hs'.trans hs, he'.trans he⟩
    · rw [h₁] at hs
      obtain rfl := Option.some.inj hs
      exact ⟨by simp [Reenqueues, enqueues], halong⟩

/-- While task 10 runs, 256 other tasks of its level arrive; then it is interrupted. -/
def overfill : List (Act solo) :=
  dispatched ++ ((List.range' 100 256).map (fun t => Act.arrive t kernel_thread) ++ preempted solo_cpu)

theorem overfill_panics : ∃ m : Machine solo, Runs.run step (Boot.plain solo).machine overfill = some m ∧
    Runs.Along step Reenqueues (Boot.plain solo).machine overfill ∧ m.pc solo_cpu = .panicked .ready_full := by
  have hrun : ((Runs.run step (Boot.plain solo).machine dispatched).map fun m =>
      decide (m.in_code solo_cpu = true ∧ m.current_task solo_cpu = 10 ∧
        m.tasks 10 = { kernel_thread with state := .running } ∧
        m.stage 10 = none ∧ m.known 10 = true ∧ m.entered 10 = true ∧ m.is_sleeping solo_cpu = false ∧
        m.traps solo_cpu = [] ∧ m.ready .kernel .top = [] ∧ ∀ t ∈ List.range' 100 256, m.known t = false)) =
      some true := by decide +kernel
  obtain ⟨m, hm, hfacts⟩ := Option.map_eq_some_iff.mp hrun
  obtain ⟨hcode, hcur, htask, hstage, hk, hin, hsl, htraps, hready, hunknown⟩ := of_decide_eq_true hfacts
  have hlevel : solo.level kernel_thread.priority = some .top := by decide
  obtain ⟨m₁, hm₁, hf, halong⟩ := arrive_all_filled rfl hlevel (List.range' 100 256) m (List.nodup_range') hunknown (by
      show (m.ready .kernel .top).length + _ ≤ 256
      simp [hready])
  obtain ⟨-, htask₁, hstage₁, hin₁⟩ := hf.kept 10 hk
  have hcur₁ : m₁.current_task solo_cpu = 10 := by rw [hf.current_task, hcur]
  have hcode₁ : m₁.in_code solo_cpu = true := by
    simp only [in_code, hcur, hstage] at hcode
    simp only [in_code, hcur₁, hstage₁, hstage, hf.pc, hcode]
  have hlen : (m₁.ready .kernel .top).length = 256 := by
    have hlen := hf.length
    simp only [show kernel_thread.home = (.kernel : Pid solo) from rfl, hready] at hlen
    simpa using hlen
  have hfull : m₁.push_task 10 = none := by
    have hlevel : solo.level (m₁.tasks 10).priority = some .top := by
      rw [htask₁, htask]
      decide
    have hhome : m₁.home 10 = .kernel := by
      simp only [home, htask₁, htask]
      rfl
    have hno : ¬ (m₁.ready (m₁.home 10) .top).length < solo.ready_queue_size := by
      rw [hhome, hlen]
      exact lt_irrefl 256
    simp [push_task, hlevel, hno]
  obtain ⟨m', hm', hpc, halong'⟩ := preempted_panics (m := m₁) (c := solo_cpu) hcode₁ (by rw [hcur₁, htask₁, htask])
    (by rw [hf.is_sleeping, hsl]) (by rw [hf.traps, htraps]; decide) (by rw [hcur₁]; exact hfull)
  refine ⟨m', ?_, ?_, hpc⟩
  · rw [overfill, Runs.run_append, hm, Option.bind_some, Runs.run_append, hm₁, Option.bind_some, hm']
  · refine Runs.Along.append (by decide +kernel) fun s hs => ?_
    obtain rfl := Option.some.inj (hm.symm.trans hs)
    refine halong.append fun s hs => ?_
    obtain rfl := Option.some.inj (hm₁.symm.trans hs)
    exact halong' (by rw [hcur₁, hin₁, hin])

end Machine

end Vsched2
