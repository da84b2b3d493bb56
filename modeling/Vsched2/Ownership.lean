import Vsched2.TaskView
import Vsched2.ControlFlow
import Vsched2.Effects
import Mathlib.Data.List.Nodup
import Mathlib.Data.List.FinRange

/-! No step of the schedule loop brings two occurrences of a task together.

    `Inv` says that every task has a legitimate view. Each access is looked at once: the view of the
    task it moves is computed, and all others stay as they are. -/

namespace Vsched2

variable {cfg : Config}

theorem Legit.of_eq {v v' : View cfg} (h : v = v') (hv : Legit v') : Legit v := h ▸ hv

theorem Pc.waits_for_of_owner {cur t : TaskPtr} : ∀ {pc : Pc cfg}, pc.owner cur = some t → pc.waits_for = none
  | .busy_wait _ _, h => by simp [Pc.owner] at h
  | .run, _ | .own, _ | .sync_push, _ | .irq_push _, _ | .irq_state, _ | .push_prev, _
  | .dealloc_prev, _ | .sched _, _ | .idle_handler _, _ | .no_handler _, _ | .set_pid _ _, _
  | .popped _ _, _ | .run_task, _ | .krun_utask, _ | .user_run_task, _ | .wait_context, _
  | .wait_sleeping, _ | .wait_check, _ | .wait_clear, _ | .wait_irqs, _ | .idle_push, _
  | .idle_resched, _ | .panicked _, _ => rfl

namespace Machine

/-- Every task is in one place. A task with a stage exists, and a CPU that waits has published that
    it sleeps. -/
structure Inv (m : Machine cfg) : Prop where
  legit : ∀ t, Legit (m.view t)
  staged : ∀ h, m.stage h ≠ none → m.known h = true
  asleep : ∀ c, m.pc c = .wait_check ∨ m.pc c = .wait_irqs → m.is_sleeping c = true

variable {m m₁ m' : Machine cfg} {c : Cpu cfg} {t u h : TaskPtr} {pc pc' : Pc cfg}

/-- The view of a task after a step: legitimate, and changed only if the task was somewhere. The
    view of a task in the hands of a handler changes only with the stage of the handler, and while
    the handler executes `handle`. -/
structure Follows (m m' : Machine cfg) (u : TaskPtr) : Prop where
  legit : Legit (m'.view u)
  kept : m'.view u = m.view u ∨ (m.view u).Free ∨
    ∃ h st, (m.view u).hand h = some st ∧ (m'.stage h ≠ m.stage h ∨ ∃ item, st = .handle item)

theorem Follows.of_eq (hI : Inv m) (h : m'.view u = m.view u) : Follows m m' u :=
  ⟨h ▸ hI.legit u, Or.inl h⟩

/-- A task that is nowhere stays nowhere. -/
theorem Follows.nowhere (hF : Follows m m' u) {st : TaskState} (hv : m.view u = .off true st false) :
    m'.view u = .off true st false := by
  rcases hF.kept with h | hfree | ⟨h, stage, hhand, -⟩
  · exact h.trans hv
  · exact absurd hv (hfree.1 st)
  · simp [hv] at hhand

/-! ### Frames -/

theorem owner_of_pc (hpc : m.pc c = pc) : m.owner c = pc.owner (m.current_task c) := hpc ▸ rfl

theorem view_cpu_self (ho : m.owner c = some t) : (m.view t).cpu c = some (m.pc c) := if_pos ho

theorem Inv.owner_view (hI : Inv m) (ho : m.owner c = some t) (hne : m.pc c ≠ .idle_resched) :
    OwnerState (m.pc c) (m.tasks t).state (m.waits t) ∧
    m.view t = (View.off true (m.tasks t).state (m.waits t)).set_cpu c (some (m.pc c)) := by
  obtain ⟨st, w, hst, hv⟩ := (hI.legit t).of_cpu (view_cpu_self ho) hne
  obtain rfl : (m.tasks t).state = st := congrArg View.state hv
  obtain rfl : m.waits t = w := congrArg View.waits hv
  exact ⟨hst, hv⟩

/-- The task of a CPU that stands at `pc`. -/
theorem Inv.view_at (hI : Inv m) (hpc : m.pc c = pc) (ho : pc.owner (m.current_task c) = some t)
    (hne : pc ≠ .idle_resched) : OwnerState pc (m.tasks t).state (m.waits t) ∧
    m.view t = (View.off true (m.tasks t).state (m.waits t)).set_cpu c (some pc) := by
  subst hpc
  exact hI.owner_view ho hne

theorem Inv.state_at (hI : Inv m) (hpc : m.pc c = pc) (ho : pc.owner (m.current_task c) = some t)
    (hne : pc ≠ .idle_resched) : OwnerState pc (m.tasks t).state (m.waits t) :=
  (hI.view_at hpc ho hne).1

/-- CPU `c` moves to `pc'` after an access that concerned `t` only. -/
theorem frame_move (hI : Inv m) (hs : some (m₁.set_pc c pc') = some m')
    (hv : ∀ u, u ≠ t → m₁.view u = m.view u)
    (hold : ∀ u, u ≠ t → m.owner c ≠ some u) (hnew : ∀ u, u ≠ t → pc'.owner (m₁.current_task c) ≠ some u)
    (hspin : ∀ u, u ≠ t → (m.pc c).waits_for ≠ some u) (hspin' : ∀ u, u ≠ t → pc'.waits_for ≠ some u)
    (hfree : (m.view t).Free)
    (ht : Legit (((m₁.view t).set_cpu c
      (if pc'.owner (m₁.current_task c) = some t then some pc' else none)).set_spin c
        (decide (pc'.waits_for = some t))))
    (u : TaskPtr) : Follows m m' u := by
  obtain rfl := Option.some.inj hs
  rcases eq_or_ne u t with rfl | hu
  · exact ⟨by rw [view_set_pc]; exact ht, Or.inr (Or.inl hfree)⟩
  · refine Follows.of_eq hI ?_
    rw [view_set_pc, if_neg (hnew u hu), hv u hu, View.set_cpu_eq_self (view_cpu_of_ne (hold u hu))]
    exact View.set_spin_eq_self (by simp [view, hspin u hu, hspin' u hu])

theorem frame_set_pc (hI : Inv m) (hs : some (m₁.set_pc c pc') = some m')
    (hv : ∀ u, u ≠ t → m₁.view u = m.view u) (hpc : m₁.pc c = m.pc c)
    (hold : ∀ u, u ≠ t → m.owner c ≠ some u) (hnew : ∀ u, u ≠ t → pc'.owner (m₁.current_task c) ≠ some u)
    (hspin : (m.pc c).waits_for = none) (hspin' : pc'.waits_for = none) (hfree : (m.view t).Free)
    (ht : Legit ((m₁.view t).set_cpu c (if pc'.owner (m₁.current_task c) = some t then some pc' else none)))
    (u : TaskPtr) : Follows m m' u := by
  refine frame_move hI hs hv hold hnew (by simp [hspin]) (by simp [hspin']) hfree ?_ u
  rw [hspin', View.set_spin_eq_self (by simp [view, hpc, hspin])]
  exact ht

/-- A CPU that is responsible for no task moves to a place where it is responsible for none. -/
theorem frame_idle (hI : Inv m) (hs : some (m₁.set_pc c pc') = some m') (hpc : m.pc c = pc)
    (hv : ∀ u, m₁.view u = m.view u)
    (hold : pc.owner (m.current_task c) = none) (hnew : pc'.owner (m₁.current_task c) = none)
    (hspin : pc.waits_for = none) (hspin' : pc'.waits_for = none) (u : TaskPtr) :
    Follows m m' u := by
  have hcpu : (m.view u).cpu c = none := view_cpu_of_ne (by simp [owner_of_pc hpc, hold])
  have hoff : (m.view u).spin c = false := by simp [view, hpc, hspin]
  obtain rfl := Option.some.inj hs
  refine Follows.of_eq hI ?_
  rw [view_set_pc, hnew, hspin', if_neg (by simp), hv, View.set_cpu_eq_self hcpu]
  exact View.set_spin_eq_self (by simpa using hoff)

/-- The task of CPU `c` changes its state, and the CPU stays responsible for it. -/
theorem frame_own (st' : TaskState) (w' : Bool) (hI : Inv m) (hs : some (m₁.set_pc c pc') = some m')
    (ho : m.owner c = some t)
    (hne : m.pc c ≠ .idle_resched) (hv : ∀ u, u ≠ t → m₁.view u = m.view u)
    (hvt : m₁.view t = (m.view t).set_task st' w') (hpc : m₁.pc c = m.pc c)
    (hnew : pc'.owner (m₁.current_task c) = some t) (hst : OwnerState pc' st' w') (u : TaskPtr) :
    Follows m m' u := by
  refine frame_set_pc (t := t) hI hs hv hpc (fun v hv => by simp [ho, Ne.symm hv])
    (fun v hv => by simp [hnew, Ne.symm hv]) (Pc.waits_for_of_owner ho) (Pc.waits_for_of_owner hnew)
    ((hI.legit t).free_of_cpu (view_cpu_self ho)) ?_ u
  rw [hvt, (hI.owner_view ho hne).2, if_pos hnew]
  simp only [View.set_cpu_set_task, View.off_set_task, View.set_cpu_set_cpu]
  exact Legit.cpu c pc' st' w' hst

/-- CPU `c` leaves its task to the place an access brought it to. -/
theorem frame_pass_on (hI : Inv m) (hs : some (m₁.set_pc c pc') = some m') (ho : m.owner c = some t)
    (hv : ∀ u, u ≠ t → m₁.view u = m.view u) (hpc : m₁.pc c = m.pc c)
    (hnew : pc'.owner (m₁.current_task c) = none) (hspin' : pc'.waits_for = none)
    (ht : Legit ((m₁.view t).set_cpu c none)) (u : TaskPtr) : Follows m m' u := by
  refine frame_set_pc (t := t) hI hs hv hpc (fun v hv => by simp [ho, Ne.symm hv])
    (by simp [hnew]) (Pc.waits_for_of_owner ho) hspin' ((hI.legit t).free_of_cpu (view_cpu_self ho)) ?_ u
  rw [if_neg (by simp [hnew])]
  exact ht

/-- The task of CPU `c` changes its state, and the CPU gives it up. -/
theorem frame_give_up (st' : TaskState) (w' : Bool) (hI : Inv m) (hs : some (m₁.set_pc c pc') = some m')
    (ho : m.owner c = some t)
    (hne : m.pc c ≠ .idle_resched) (hv : ∀ u, u ≠ t → m₁.view u = m.view u)
    (hvt : m₁.view t = (m.view t).set_task st' w') (hpc : m₁.pc c = m.pc c)
    (hnew : pc'.owner (m₁.current_task c) = none) (hspin' : pc'.waits_for = none)
    (hst : Legit (View.off true st' w' : View cfg)) (u : TaskPtr) :
    Follows m m' u := by
  refine frame_pass_on hI hs ho hv hpc hnew hspin' ?_ u
  rw [hvt, (hI.owner_view ho hne).2]
  simp only [View.set_cpu_set_task, View.off_set_task, View.set_cpu_set_cpu]
  rw [View.set_cpu_eq_self (by rfl)]
  exact hst

theorem view_same (m : Machine cfg) (t : TaskPtr) :
    m.view t = (m.view t).set_task (m.tasks t).state (m.waits t) := rfl

/-- No task changes, and CPU `c` stays responsible for its own. -/
theorem frame_carry (hI : Inv m) (hs : some (m₁.set_pc c pc') = some m') (ho : m.owner c = some t)
    (hne : m.pc c ≠ .idle_resched) (hv : ∀ u, m₁.view u = m.view u) (hpc : m₁.pc c = m.pc c)
    (hnew : pc'.owner (m₁.current_task c) = some t) (hst : OwnerState pc' (m.tasks t).state (m.waits t))
    (u : TaskPtr) : Follows m m' u :=
  frame_own _ _ hI hs ho hne (fun v _ => hv v) ((hv t).trans (view_same m t)) hpc hnew hst u

/-- No task changes, and CPU `c` drops its own, which waits for nobody. -/
theorem frame_drop (hI : Inv m) (hs : some (m₁.set_pc c pc') = some m') (ho : m.owner c = some t)
    (hne : m.pc c ≠ .idle_resched) (hw : m.waits t = false) (hv : ∀ u, m₁.view u = m.view u)
    (hpc : m₁.pc c = m.pc c) (hnew : pc'.owner (m₁.current_task c) = none) (hspin' : pc'.waits_for = none)
    (u : TaskPtr) : Follows m m' u := by
  refine frame_give_up _ _ hI hs ho hne (fun v _ => hv v) ((hv t).trans (view_same m t)) hpc hnew hspin' ?_ u
  rw [hw]
  exact Legit.nowhere _

/-- An access that concerns `t` only and leaves the places of the CPUs alone. -/
theorem frame_one (hI : Inv m) (hv : ∀ u, u ≠ t → m₁.view u = m.view u) (hfree : (m.view t).Free)
    (ht : Legit (m₁.view t)) (u : TaskPtr) : Follows m m₁ u := by
  rcases eq_or_ne u t with rfl | hu
  · exact ⟨ht, Or.inr (Or.inl hfree)⟩
  · exact Follows.of_eq hI (hv u hu)

/-! ### Task code and traps -/

theorem owner_of_run (hpc : m.pc c = .run) : m.owner c = some (m.current_task c) := owner_of_pc hpc

theorem Inv.run_state (hI : Inv m) (hpc : m.pc c = .run) :
    (m.tasks (m.current_task c)).state = .running ∧ m.waits (m.current_task c) = false :=
  hI.state_at hpc rfl (by simp)

theorem irq_follows (hI : Inv m) (hs : m.irq c = some m') (u : TaskPtr) : Follows m m' u := by
  simp only [irq] at hs
  split at hs
  · rename_i hcode
    have hpc := run_of_in_code hcode
    have ho := owner_of_run hpc
    have hsame := view_save_context (m := m) (t := m.current_task c) false
    cases hsl : m.is_sleeping c with
    | false =>
      rw [hsl] at hs
      exact frame_carry hI hs ho (by simp [hpc]) hsame (by rfl) (by rfl) (hI.run_state hpc) u
    | true =>
      rw [hsl] at hs
      exact frame_drop hI hs ho (by simp [hpc]) (hI.run_state hpc).2 hsame (by rfl) (by rfl) (by rfl) u
  · split at hs
    · rename_i hpc
      rw [hI.asleep c (Or.inr hpc)] at hs
      exact frame_idle hI hs hpc (by simp) rfl rfl rfl rfl u
    · cases hs

theorem trap_follows (hI : Inv m) (hs : m.trap c = some m') (u : TaskPtr) : Follows m m' u := by
  simp only [trap] at hs
  split at hs
  · rename_i hcode
    have hpc := run_of_in_code hcode
    have ho := owner_of_run hpc
    obtain ⟨hst, hw⟩ := hI.run_state hpc
    have hsame := view_save_context (m := m) (t := m.current_task c) false
    split at hs
    · exact frame_drop hI hs ho (by simp [hpc]) hw hsame (by rfl) (by rfl) (by rfl) u
    · refine frame_own .blocked (m.waits (m.current_task c)) hI hs ho (by simp [hpc]) (fun v hv => ?_) ?_
        (by rfl) (by rfl) ?_ u
      · rw [view_set_state_of_ne _ hv]
        exact hsame v
      · rw [view_set_state_self]
        exact congrArg (View.set_task · _ _) (hsame _)
      · exact ⟨rfl, hw⟩
  · cases hs

theorem set_self_follows {st : TaskState} (hI : Inv m) (hs : m.set_self c st = some m') (u : TaskPtr) :
    Follows m m' u := by
  simp only [set_self] at hs
  split at hs
  · rename_i hcode
    have hpc := run_of_in_code hcode.1
    refine frame_own _ _ hI hs (owner_of_run hpc) (by simp [hpc]) (fun v hv => view_set_wait_of_ne _ _ hv)
      (view_set_wait_self _ _) rfl rfl ?_ u
    rcases hcode.2 with rfl | rfl | rfl <;> simp [OwnerState]
  · cases hs

/-- A task that leaves its CPU: it has not set its state, or it has. -/
theorem Inv.leave_state (hI : Inv m) (hpc : m.in_code c = true ∨ m.pc c = .own) :
    m.owner c = some (m.current_task c) ∧ m.pc c ≠ .idle_resched ∧
    ((m.tasks (m.current_task c)).state = .running ∨
      (m.tasks (m.current_task c)).state = .blocking ∧ m.waits (m.current_task c) = true ∨
      ((m.tasks (m.current_task c)).state = .ready ∨ (m.tasks (m.current_task c)).state = .exited) ∧
        m.waits (m.current_task c) = false) := by
  rcases hpc with hcode | hpc
  · have hpc := run_of_in_code hcode
    exact ⟨owner_of_run hpc, by simp [hpc], Or.inl (hI.run_state hpc).1⟩
  · exact ⟨owner_of_pc hpc, by simp [hpc], Or.inr (hI.state_at hpc rfl (by simp))⟩

theorem leave_follows {b : Bool} (hI : Inv m) (hs : m.leave c b = some m') (u : TaskPtr) :
    Follows m m' u := by
  simp only [leave] at hs
  split at hs
  · rename_i hcode
    obtain ⟨ho, hne, hst⟩ := hI.leave_state hcode
    have hkeep : ((m.save_context (m.current_task c) b).tasks (m.current_task c)).state =
        (m.tasks (m.current_task c)).state := congrArg View.state (view_save_context b _)
    have hv : ∀ st, ∀ v, v ≠ m.current_task c →
        ((m.save_context (m.current_task c) b).set_state (m.current_task c) st).view v = m.view v :=
      fun st v hv => by rw [view_set_state_of_ne _ hv, view_save_context]
    have hvt : ∀ st, ((m.save_context (m.current_task c) b).set_state (m.current_task c) st).view
        (m.current_task c) = (m.view (m.current_task c)).set_task st (m.waits (m.current_task c)) :=
      fun st => by rw [view_set_state_self, view_save_context]; rfl
    rcases hst with hst | ⟨hst, hw⟩ | ⟨hst | hst, hw⟩
    all_goals
      simp only [phase2, show (m.save_context (m.current_task c) b).current_task c = m.current_task c from rfl,
        hkeep, hst] at hs
    · -- it has not set its state, and waits for a waker from now on
      refine frame_give_up _ _ hI hs ho hne (fun v hv => ?_) ?_ (by rfl) (by rfl) (by rfl) Legit.parked u
      · rw [view_set_wait_of_ne _ _ hv, view_save_context]
      · rw [view_set_wait_self, view_save_context]
        rfl
    · refine frame_give_up _ _ hI hs ho hne (hv _) (hvt _) (by rfl) (by rfl) (by rfl) ?_ u
      rw [hw]
      exact Legit.parked
    · refine frame_own _ _ hI hs ho hne (hv _) (hvt _) (by rfl) (by rfl) ?_ u
      exact ⟨rfl, hw⟩
    · refine frame_own _ _ hI hs ho hne (hv _) (hvt _) (by rfl) (by rfl) ?_ u
      exact ⟨rfl, hw⟩
  · cases hs

theorem poll_ready_follows (hI : Inv m) (hs : m.poll_ready c = some m') (u : TaskPtr) :
    Follows m m' u := by
  simp only [poll_ready] at hs
  split at hs
  · rename_i hcode
    obtain ⟨ho, hne, -⟩ := hI.leave_state hcode
    refine frame_own _ _ hI hs ho hne (fun v hv => view_set_wait_of_ne _ _ hv) (view_set_wait_self _ _) (by rfl)
      (by rfl) ?_ u
    exact ⟨rfl, rfl⟩
  · cases hs

/-! ### Arrival and wake-up -/

theorem view_create_of_ne {task : Task cfg} {stage : Option Stage} (hI : Inv m) (hk : m.known t = false)
    (hst : ∀ st, stage = some st → st.holds ≠ some u) (hu : u ≠ t) :
    (m.create t task stage).view u = m.view u := by
  have hno : m.stage t = none := by
    by_contra hst
    simpa [hk] using hI.staged t hst
  ext g
  all_goals try rfl
  · simp [view, create, hu]
  · simp [view, create, hu]
  · rcases eq_or_ne g t with rfl | hg
    · simp only [view, create, Function.update_self, hno, Option.filter_none]
      cases stage with
      | none => rfl
      | some st => simp [Option.filter, hst st rfl]
    · simp [view, create, hg]

theorem view_create_self {task : Task cfg} {stage : Option Stage} (hI : Inv m) (hk : m.known t = false)
    (hst : ∀ st, stage = some st → st.holds ≠ some t) :
    (m.create t task stage).view t = View.off true task.state false := by
  have hno : m.stage t = none := by
    by_contra hst
    simpa [hk] using hI.staged t hst
  obtain ⟨st, hv⟩ := (hI.legit t).of_unknown hk
  have hkeep : (m.create t task stage).view t = { m.view t with known := true, state := task.state } := by
    ext g
    all_goals try rfl
    · simp [view, create]
    · simp [view, create]
    · rcases eq_or_ne g t with rfl | hg
      · simp only [view, create, Function.update_self, hno, Option.filter_none]
        cases stage with
        | none => rfl
        | some st => simp [Option.filter, hst st rfl]
      · simp [view, create, hg]
  rw [hkeep, hv]
  rfl

theorem arrive_follows {task : Task cfg} (hI : Inv m) (hs : m.arrive t task = some m') (u : TaskPtr) :
    Follows m m' u := by
  simp only [arrive] at hs
  split at hs
  · rename_i hnew
    obtain ⟨m₁, hp, rfl⟩ := Option.map_eq_some_iff.mp hs
    obtain ⟨l, -, -, rfl⟩ := push_task_eq_some hp
    have hself : (m.create t task none).view t = View.off true task.state false :=
      view_create_self hI hnew.1 (by simp)
    refine frame_one (t := t) hI (fun v hv => ?_) ((hI.legit t).free_of_unknown hnew.1) ?_ u
    · exact (view_push_of_ne hv).trans (view_create_of_ne hI hnew.1 (by simp) hv)
    · have hview := view_push_self (m := m.create t task none) (t := t)
        (p := (m.create t task none).home t) (l := l) (by rw [hself]; rfl)
      refine Legit.of_eq (hview.trans ?_) (Legit.ready ((m.create t task none).home t) l)
      rw [hself, hnew.2]
  · cases hs

theorem wake_follows (hI : Inv m) (u : TaskPtr) : Follows m (m.wake t) u := by
  simp only [wake]
  split
  · rename_i hw
    rcases (hI.legit t).of_waits hw with hv | ⟨c, hv⟩
    · -- it has left its CPU: the waker takes it
      have hst : (m.tasks t).state = .blocked := congrArg View.state hv
      have h0 : m.waking.count t = 0 := congrArg View.waking hv
      simp only [hst]
      refine frame_one (t := t) hI (fun v hne => ?_) ((hI.legit t).free_of_waits hw) ?_ u
      · refine Eq.trans ?_ (view_set_wait_of_ne (m := m) .ready false hne)
        exact View.ext rfl rfl rfl rfl rfl rfl rfl (by simp [view, set_wait, Ne.symm hne]) rfl rfl
      · have hview : { m.set_wait t .ready false with waking := m.waking ++ [t] }.view t =
            { (m.set_wait t .ready false).view t with waking := 1 } :=
          View.ext rfl rfl rfl rfl rfl rfl rfl (by simp [view, h0]) rfl rfl
        rw [hview, view_set_wait_self, hv]
        exact Legit.waking
    · have hst : (m.tasks t).state = .blocking := congrArg View.state hv
      simp only [hst]
      refine frame_one (t := t) hI (fun v hne => view_set_wait_of_ne _ _ hne) ((hI.legit t).free_of_waits hw) ?_ u
      rw [view_set_wait_self, hv]
      exact Legit.cpu c .own .ready false (Or.inr ⟨Or.inl rfl, rfl⟩)
  · exact Follows.of_eq hI rfl

theorem wake_push_follows (hI : Inv m) (hs : m.wake_push t = some m') (u : TaskPtr) : Follows m m' u := by
  simp only [wake_push] at hs
  split at hs
  · rename_i hmem
    obtain ⟨m₁, hp, rfl⟩ := Option.map_eq_some_iff.mp hs
    obtain ⟨l, -, -, rfl⟩ := push_task_eq_some hp
    have hv : m.view t = { View.off true .ready false with waking := 1 } :=
      (hI.legit t).of_waking (by simpa [view, List.count_eq_zero] using hmem)
    have h1 : m.waking.count t = 1 := congrArg View.waking hv
    have hfree : (m.view t).Free := (hI.legit t).free_of_waking (by rw [hv]; simp)
    refine frame_one (t := t) hI (fun v hne => ?_) hfree ?_ u
    · refine Eq.trans ?_ (view_push_of_ne (m := m) (p := m.home t) (l := l) hne)
      exact View.ext rfl rfl rfl rfl rfl rfl rfl (List.count_erase_of_ne hne) rfl rfl
    · have hview : { m.set_ready (m.home t) l (m.ready (m.home t) l ++ [t]) with
          waking := m.waking.erase t }.view t =
          { (m.set_ready (m.home t) l (m.ready (m.home t) l ++ [t])).view t with waking := 0 } :=
        View.ext rfl rfl rfl rfl rfl rfl rfl (by simp [view, List.count_erase_self, h1]) rfl rfl
      refine Legit.of_eq (hview.trans ?_) (Legit.ready (m.home t) l)
      rw [view_push_self (by rw [hv]; rfl), hv]
      rfl
  · cases hs

/-! ### The schedule loop -/

/-- The first task of a ready queue moves into the hands of CPU `c`. -/
theorem frame_pop {p : Pid cfg} {l : Level cfg} {rest : List TaskPtr} (target : Target) (hI : Inv m)
    (hs : some (m₁.set_pc c (.popped t target)) = some m') (hr : m.ready p l = t :: rest)
    (hv : ∀ u, m₁.view u = (m.set_ready p l rest).view u)
    (hpc : m₁.pc c = m.pc c) (hold : m.owner c = none) (hspin : (m.pc c).waits_for = none) (u : TaskPtr) :
    Follows m m' u := by
  have hself : m.view t = (View.off true .ready false).set_ready p l 1 :=
    (hI.legit t).of_ready (p := p) (l := l) (by simp [view, hr])
  have h1 : (m.ready p l).count t = 1 := by
    have h : (m.view t).ready p l = 1 := by rw [hself]; simp [View.set_ready]
    exact h
  have h0 : rest.count t = 0 := by simpa [hr] using h1
  refine frame_set_pc (t := t) hI hs (fun v hne => ?_) hpc (by simp [hold])
    (fun v hne => by simp [Pc.owner, Ne.symm hne]) hspin rfl
    ((hI.legit t).free_of_ready (p := p) (l := l) (by simp [view, hr])) ?_ u
  · rw [hv, view_set_ready_of_eq (by simp [hr, Ne.symm hne])]
  · rw [if_pos (by rfl), hv, view_set_ready, h0, hself]
    refine Legit.of_eq ?_ (Legit.cpu c (.popped t target) .ready false (And.intro rfl rfl))
    simp [View.set_ready, View.set_cpu, View.off]

theorem pop_ready_follows {p : Pid cfg} {l : Level cfg} (hI : Inv m) (hs : m.pop_ready c p l = some m')
    (u : TaskPtr) : Follows m m' u := by
  simp only [pop_ready] at hs
  split at hs
  · rename_i b t rest hpc hr
    have hold : m.owner c = none := owner_of_pc hpc
    have hspin : (m.pc c).waits_for = none := by simp [hpc, Pc.waits_for]
    split at hs
    · split at hs
      · exact frame_pop .kernel hI hs hr (fun _ => rfl) (by rfl) hold hspin u
      · exact frame_pop .krun hI hs hr (fun _ => rfl) (by rfl) hold hspin u
    · split at hs
      · exact frame_pop .user hI hs hr (fun _ => rfl) (by rfl) hold hspin u
      · cases hs
  · cases hs

theorem take_trap_follows (hI : Inv m) (hs : m.take_trap c = some m') (u : TaskPtr) : Follows m m' u := by
  simp only [take_trap] at hs
  split at hs
  · rename_i hpc _
    split at hs
    · exact frame_idle hI hs hpc (fun _ => rfl) rfl rfl rfl rfl u
    · cases hs
  · cases hs

theorem fail_follows {p : Pid cfg} (hI : Inv m) (hs : m.fail c p = some m') (u : TaskPtr) : Follows m m' u := by
  simp only [fail] at hs
  split at hs
  · rename_i hpc
    split at hs
    · exact frame_idle hI hs hpc (fun _ => rfl) rfl rfl rfl rfl u
    · cases hs
  · cases hs

theorem into_kernel_follows {p : Pid cfg} (hI : Inv m) (hs : m.into_kernel c p = some m') (u : TaskPtr) :
    Follows m m' u := by
  simp only [into_kernel] at hs
  split at hs
  · rename_i hpc
    split at hs
    · cases hs
    · exact frame_idle hI hs hpc (fun _ => rfl) rfl rfl rfl rfl u
  · cases hs

theorem check_follows {b : Bool} (hI : Inv m) (hs : m.check c b = some m') (u : TaskPtr) :
    Follows m m' u := by
  simp only [check] at hs
  split at hs
  · rename_i hpc
    exact frame_idle hI hs hpc (fun _ => rfl) rfl (by cases b <;> rfl) rfl (by cases b <;> rfl) u
  · cases hs

theorem wait_return_follows (hI : Inv m) (hs : m.wait_return c = some m') (u : TaskPtr) :
    Follows m m' u := by
  simp only [wait_return] at hs
  split at hs
  · rename_i hpc
    exact frame_idle hI hs hpc (fun _ => rfl) rfl rfl rfl rfl u
  · cases hs

theorem new_handler_follows {task : Task cfg} (hI : Inv m) (hs : m.new_handler c h task = some m')
    (u : TaskPtr) : Follows m m' u := by
  simp only [new_handler] at hs
  split at hs
  · rename_i pid hpc
    have hold : m.owner c = none := owner_of_pc hpc
    have hspin : (m.pc c).waits_for = none := by simp [hpc, Pc.waits_for]
    split at hs
    · rename_i hnew
      have htop : ∀ v st, some Stage.top = some st → st.holds ≠ some v := by
        intro v st hst
        rw [← Option.some.inj hst]
        simp [Stage.holds]
      have hself : (m.create h task (some .top)).view h = View.off true task.state false :=
        view_create_self hI hnew.1 (htop h)
      have hne : ∀ v, v ≠ h → (m.create h task (some .top)).view v = m.view v :=
        fun v hv => view_create_of_ne hI hnew.1 (htop v) hv
      split at hs
      · refine frame_set_pc (t := h) hI hs hne (by rfl) (by simp [hold]) (by simp [Pc.owner]) hspin rfl
          ((hI.legit h).free_of_unknown hnew.1) ?_ u
        exact Legit.of_eq (by rw [hself]; exact View.set_cpu_eq_self rfl) (Legit.nowhere task.state)
      · rename_i ts hcreate
        obtain rfl := create_new_handler_eq hcreate
        refine frame_set_pc (t := h) hI hs (fun v hv => ?_) (by rfl) (by simp [hold])
          (fun v hv => by simp [Pc.owner, Ne.symm hv]) hspin rfl ((hI.legit h).free_of_unknown hnew.1) ?_ u
        · exact (view_set_state_of_ne (m := m.create h task (some .top)) .ready hv).trans (hne v hv)
        · have hview := view_set_state_self (m := m.create h task (some .top)) (t := h) .ready
          rw [hself] at hview
          have hw : (m.create h task (some .top)).waits h = false := congrArg View.waits hself
          rw [hw] at hview
          refine Legit.of_eq ?_ (Legit.cpu c (.set_pid h pid) .ready false (And.intro rfl rfl))
          simp only [Pc.owner, if_true]
          exact congrArg (View.set_cpu · c _) hview
    · cases hs
  · cases hs

/-! ### `trap_handler` -/

variable {item : TrapItem} {st₀ st : Stage}

/-- A handler moves to the stage `st`; the access concerned only the task it held or holds. -/
theorem frame_set_stage (hI : Inv m) (hs : some (m₁.set_stage h st) = some m') (h₀ : m.stage h = some st₀)
    (hne : st ≠ st₀) (hv : ∀ u, st₀.holds ≠ some u → st.holds ≠ some u → m₁.view u = m.view u)
    (hfree : ∀ t, st₀.holds ≠ some t → st.holds = some t → (m.view t).Free)
    (ht : ∀ t, st₀.holds = some t ∨ st.holds = some t →
      Legit ((m₁.view t).set_hand h (if st.holds = some t then some st else none))) (u : TaskPtr) :
    Follows m m' u := by
  obtain rfl := Option.some.inj hs
  by_cases hu₀ : st₀.holds = some u
  · refine ⟨by rw [view_set_stage]; exact ht u (Or.inl hu₀), Or.inr (Or.inr ⟨h, st₀, ?_, Or.inl ?_⟩)⟩
    · rw [view_hand h₀, if_pos hu₀]
    · simp [set_stage, h₀, hne]
  · by_cases hu₁ : st.holds = some u
    · exact ⟨by rw [view_set_stage]; exact ht u (Or.inr hu₁), Or.inr (Or.inl (hfree u hu₀ hu₁))⟩
    · have hnone : (m.view u).hand h = none := by rw [view_hand h₀, if_neg hu₀]
      refine Follows.of_eq hI ?_
      rw [view_set_stage, if_neg hu₁, hv u hu₀ hu₁, View.set_hand_eq_self hnone]

/-- The task a handler holds. -/
theorem Inv.hand_view (hI : Inv m) (h₀ : m.stage h = some st₀) (ht : st₀.holds = some t) :
    HandState st₀ (m.tasks t).state ∧
    m.view t = (View.off true (m.tasks t).state false).set_hand h (some st₀) := by
  have hhand : (m.view t).hand h = some st₀ := (view_hand h₀).trans (if_pos ht)
  obtain ⟨st, hst, hv⟩ := (hI.legit t).of_hand hhand
  obtain rfl : (m.tasks t).state = st := congrArg View.state hv
  exact ⟨hst, hv⟩

theorem Inv.hand_waits (hI : Inv m) (h₀ : m.stage h = some st₀) (ht : st₀.holds = some t) :
    m.waits t = false := congrArg View.waits (hI.hand_view h₀ ht).2

theorem handle_exits_follows (hI : Inv m) (hs : m.handle_exits c = some m') (u : TaskPtr) :
    Follows m m' u := by
  simp only [handle_exits] at hs
  split at hs
  · rename_i info t hpc h₀
    rw [← Option.some.inj hs]
    rcases eq_or_ne u t with rfl | hu
    · refine ⟨?_, Or.inr (Or.inr ⟨_, _, (view_hand h₀).trans (if_pos rfl), Or.inr ⟨_, rfl⟩⟩)⟩
      rw [view_set_state_self, hI.hand_waits h₀ rfl, (hI.hand_view h₀ rfl).2]
      exact Legit.hand _ .exited _ (Or.inr rfl)
    · exact Follows.of_eq hI (view_set_state_of_ne _ hu)
  · cases hs

/-- The handler takes the first trap of its CPU. -/
theorem pop_trap_follows {rest : List TrapItem} (hI : Inv m)
    (hs : some (m₁.set_stage h (.taken item)) = some m') (h₀ : m.stage h = some .top)
    (hq : m.traps c = item :: rest)
    (hv : ∀ u, m₁.view u = { m with traps := Function.update m.traps c rest }.view u) (u : TaskPtr) :
    Follows m m' u := by
  have hcount : ∀ t, { m with traps := Function.update m.traps c rest }.view t =
      (m.view t).set_trapped c ((rest.filterMap TrapItem.task).count t) := by
    intro t
    ext d
    all_goals try rfl
    rcases eq_or_ne d c with rfl | hd <;> simp [view, View.set_trapped, *]
  have htrapped : ∀ t, (Stage.taken item).holds = some t → (m.view t).trapped c ≠ 0 := by
    intro t hitem
    simp [view, hq, show item.task = some t from hitem]
  refine frame_set_stage hI hs h₀ (by simp) (fun v _ hne => ?_)
    (fun t _ hitem => (hI.legit t).free_of_trapped (htrapped t hitem)) (fun t ht => ?_) u
  · rw [hv, hcount]
    have hsame : (rest.filterMap TrapItem.task).count v = (m.view v).trapped c := by
      cases hitem : item.task with
      | none => simp [view, hq, hitem]
      | some w =>
        have hne' : w ≠ v := by
          rintro rfl
          exact hne hitem
        simp [view, hq, hitem, hne']
    rw [hsame]
    simp [View.set_trapped]
  · have hitem : (Stage.taken item).holds = some t := by
      rcases ht with ht | ht
      · cases ht
      · exact ht
    have hself := (hI.legit t).of_trapped (htrapped t hitem)
    have h1 : ((m.traps c).filterMap TrapItem.task).count t = 1 := by
      have h : (m.view t).trapped c = 1 := by rw [hself]; simp
      exact h
    have h0 : (rest.filterMap TrapItem.task).count t = 0 := by
      simpa [hq, show item.task = some t from hitem] using h1
    rw [hv, hcount, h0, hself, if_pos hitem]
    refine Legit.of_eq ?_ (Legit.hand h .blocked (.taken item) rfl)
    simp [View.set_trapped, View.set_hand, View.off]

/-- A handler between two stages that hold the same task. -/
theorem frame_keep (hI : Inv m) (hs : some (m₁.set_stage h st) = some m') (h₀ : m.stage h = some st₀)
    (hne : st ≠ st₀) (hhold : st.holds = st₀.holds) (hv : ∀ u, st₀.holds ≠ some u → m₁.view u = m.view u)
    (ht : ∀ t, st₀.holds = some t → ∃ st', m₁.view t = (m.view t).set_task st' false ∧ HandState st st')
    (u : TaskPtr) : Follows m m' u := by
  refine frame_set_stage hI hs h₀ hne (fun v hv₀ _ => hv v hv₀) (fun t hn h' => absurd (hhold ▸ h') hn)
    (fun t ht' => ?_) u
  have hold : st₀.holds = some t := ht'.elim id fun h' => hhold ▸ h'
  obtain ⟨st', hview, hst⟩ := ht t hold
  rw [if_pos (hhold.trans hold), hview, (hI.hand_view h₀ hold).2]
  simp only [View.set_hand_set_task, View.off_set_task, View.set_hand_set_hand]
  exact Legit.hand h st' st hst

/-- A handler that holds no task any more. -/
theorem frame_release (hI : Inv m) (hs : some (m₁.set_stage h st) = some m') (h₀ : m.stage h = some st₀)
    (hne : st ≠ st₀) (hhold : st.holds = none) (hv : ∀ u, m₁.view u = m.view u) (u : TaskPtr) :
    Follows m m' u := by
  refine frame_set_stage hI hs h₀ hne (fun v _ _ => hv v) (fun t _ h' => by simp [hhold] at h') (fun t ht' => ?_) u
  have hold : st₀.holds = some t := ht'.elim id fun h' => by simp [hhold] at h'
  rw [hhold, if_neg (by simp), hv, (hI.hand_view h₀ hold).2, View.set_hand_set_hand, View.set_hand_eq_self (by rfl)]
  exact Legit.nowhere _

theorem handled_follows (hI : Inv m)
    (h₀ : m.stage (m.current_task c) = some (.handled item))
    (hs : some (m.handler_next c (.handled item)) = some m') (u : TaskPtr) : Follows m m' u := by
  cases hitem : item.task with
  | none =>
    simp only [handler_next, hitem] at hs
    exact frame_release hI hs h₀ (by simp) rfl (fun _ => rfl) u
  | some t =>
    have hw := hI.hand_waits h₀ hitem
    have hother : ∀ s, ∀ v, Stage.holds (.handled item) ≠ some v → (m.set_state t s).view v = m.view v :=
      fun s v hv => view_set_state_of_ne _ (by rintro rfl; exact hv hitem)
    have hself : ∀ s, (m.set_state t s).view t = (m.view t).set_task s false :=
      fun s => by rw [view_set_state_self, hw]
    rcases (hI.hand_view h₀ hitem).1 with hst | hst <;> simp only [handler_next, hitem, hst] at hs
    · refine frame_keep hI hs h₀ (by simp) hitem.symm (hother _) (fun t' ht' => ?_) u
      obtain rfl : t = t' := Option.some.inj (hitem.symm.trans ht')
      exact ⟨_, hself _, rfl⟩
    · refine frame_keep hI hs h₀ (by simp) hitem.symm (hother _) (fun t' ht' => ?_) u
      obtain rfl : t = t' := Option.some.inj (hitem.symm.trans ht')
      exact ⟨_, hself _, rfl⟩

theorem wake_task_follows (hI : Inv m) (hpc : m.pc c = .run)
    (h₀ : m.stage (m.current_task c) = some (.wake item t))
    (hs : some (m.handler_next c (.wake item t)) = some m') (u : TaskPtr) : Follows m m' u := by
  have ho := owner_of_run hpc
  obtain ⟨hst, hself⟩ := hI.hand_view h₀ (t := t) rfl
  simp only [handler_next] at hs
  cases hp : m.push_task t with
  | none =>
    simp only [hp] at hs
    exact frame_drop hI hs ho (by simp [hpc]) (hI.run_state hpc).2 (fun _ => rfl) (by rfl) (by rfl) (by rfl) u
  | some m₁ =>
    simp only [hp] at hs
    obtain ⟨l, -, -, rfl⟩ := push_task_eq_some hp
    refine frame_set_stage hI hs h₀ (by simp) (fun v hv _ => ?_)
      (fun _ _ h' => by simp [Stage.holds] at h') (fun t' ht' => ?_) u
    · refine (view_push_of_ne (m := m) (p := m.home t) (l := l) (t := t) ?_)
      rintro rfl
      exact hv rfl
    obtain rfl : t = t' := Option.some.inj (ht'.elim id (by simp [Stage.holds]))
    have hview := view_push_self (m := m) (t := t) (p := m.home t) (l := l) (by rw [hself]; rfl)
    refine Legit.of_eq ?_ (Legit.ready (m.home t) l)
    rw [if_neg (by simp [Stage.holds])]
    refine (congrArg (View.set_hand · (m.current_task c) none) hview).trans ?_
    rw [hself, hst]
    simp [View.set_hand, View.set_ready, View.off]

theorem handler_next_follows (hI : Inv m) (hpc : m.pc c = .run) (h₀ : m.stage (m.current_task c) = some st₀)
    (hs : some (m.handler_next c st₀) = some m') (u : TaskPtr) : Follows m m' u := by
  have hsame : ∀ t, st₀.holds = some t → m.view t = (m.view t).set_task (m.tasks t).state false :=
    fun t ht => by rw [← hI.hand_waits h₀ ht]; exact view_same m t
  cases st₀ with
  | top =>
    simp only [handler_next] at hs
    split at hs
    · rename_i item rest hq
      exact pop_trap_follows hI hs h₀ hq (fun _ => rfl) u
    · -- nothing to do: into the pool
      refine frame_own .blocking (m.waits (m.current_task c)) hI hs (owner_of_run hpc) (by simp [hpc])
        (fun v hv => ?_) ?_ (by rfl) (by rfl) ?_ u
      · exact (view_set_state_of_ne _ hv).trans (view_set_pid .kernel v)
      · refine (view_set_state_self (m := { m with tasks := m.tasks.set_pid _ .kernel }) _).trans ?_
        rw [view_set_pid]
      · exact ⟨rfl, (hI.run_state hpc).2⟩
  | taken item =>
    have hpid : ∀ v, { m with tasks := m.tasks.set_pid (m.current_task c) (item.pid m.tasks) }.view v =
        m.view v := view_set_pid _
    exact frame_keep hI hs h₀ (by simp) rfl (fun v _ => hpid v)
      (fun t ht => ⟨_, (hpid t).trans (hsame t ht), Or.inl (hI.hand_view h₀ ht).1⟩) u
  | handle item =>
    exact frame_keep hI hs h₀ (by simp) rfl (fun _ _ => rfl)
      (fun t ht => ⟨_, hsame t ht, (hI.hand_view h₀ ht).1⟩) u
  | handled item => exact handled_follows hI h₀ hs u
  | wake item t => exact wake_task_follows hI hpc h₀ hs u
  | exited item t => exact frame_release hI hs h₀ (by simp) rfl (fun _ => rfl) u
  | dealloc item => exact frame_release hI hs h₀ (by simp) rfl (fun _ => rfl) u

/-! ### The other accesses of a CPU -/

/-- `push_trap` of a task that occurs nowhere else. -/
theorem view_push_trap {task : Option TaskPtr} (hp : m.push_trap c task = some m₁) (u : TaskPtr) :
    m₁.view u = (m.view u).set_trapped c ((m.view u).trapped c + if task = some u then 1 else 0) := by
  simp only [push_trap] at hp
  split at hp
  · rw [← Option.some.inj hp]
    ext d
    all_goals try rfl
    rcases eq_or_ne d c with rfl | hd
    · cases task <;> simp [view, View.set_trapped, List.count_singleton]
    · simp [view, View.set_trapped, hd]
  · cases hp

theorem push_trap_pc {task : Option TaskPtr} (hp : m.push_trap c task = some m₁) :
    m₁.pc = m.pc ∧ m₁.current_task = m.current_task := by
  simp only [push_trap] at hp
  split at hp
  · rw [← Option.some.inj hp]
    exact ⟨rfl, rfl⟩
  · cases hp

theorem view_push_trap_of_ne {task : Option TaskPtr} (hp : m.push_trap c task = some m₁) (hu : task ≠ some u) :
    m₁.view u = m.view u := by
  rw [view_push_trap hp, if_neg hu]
  simp [View.set_trapped]

theorem sync_push_follows (hI : Inv m) (hpc : m.pc c = .sync_push) (hs : m.next c = some m') (u : TaskPtr) :
    Follows m m' u := by
  have ho : m.owner c = some (m.current_task c) := owner_of_pc hpc
  have hne : m.pc c ≠ .idle_resched := by simp [hpc]
  obtain ⟨hst, hself⟩ := hI.view_at hpc rfl (by simp)
  simp only [next, hpc] at hs
  split at hs
  · exact frame_drop hI hs ho hne hst.2 (fun _ => rfl) (by rfl) (by rfl) (by rfl) u
  · rename_i m₁ hp
    obtain ⟨hpc₁, -⟩ := push_trap_pc hp
    refine frame_pass_on hI hs ho (fun v hv => view_push_trap_of_ne hp (by simpa using Ne.symm hv)) (by rw [hpc₁])
      (by rfl) (by rfl) ?_ u
    rw [view_push_trap hp, if_pos rfl, hself, hst.1, hst.2]
    refine Legit.of_eq ?_ (Legit.trapped c)
    simp [View.set_trapped, View.set_cpu, View.off]

theorem irq_push_follows {b : Bool} (hI : Inv m) (hpc : m.pc c = .irq_push b) (hs : m.next c = some m')
    (u : TaskPtr) : Follows m m' u := by
  simp only [next, hpc] at hs
  split at hs
  · cases b with
    | true =>
      exact frame_idle hI hs hpc (fun _ => rfl) rfl rfl rfl rfl u
    | false =>
      have hst := hI.state_at hpc rfl (by simp)
      exact frame_drop hI hs (owner_of_pc hpc) (by simp [hpc]) hst.2 (fun _ => rfl) (by rfl) (by rfl) (by rfl) u
  · rename_i m₁ hp
    obtain ⟨hpc₁, hcur⟩ := push_trap_pc hp
    have hsame : ∀ v, m₁.view v = m.view v := fun v => view_push_trap_of_ne hp (by simp)
    cases b with
    | true =>
      exact frame_idle hI hs hpc hsame rfl rfl rfl rfl u
    | false =>
      have hst := hI.state_at hpc rfl (by simp)
      refine frame_carry hI hs (owner_of_pc hpc) (by simp [hpc]) hsame (by rw [hpc₁]) ?_ hst u
      simp [Pc.owner, hcur]

theorem push_prev_follows (hI : Inv m) (hpc : m.pc c = .push_prev) (hs : m.next c = some m') (u : TaskPtr) :
    Follows m m' u := by
  have ho : m.owner c = some (m.current_task c) := owner_of_pc hpc
  have hne : m.pc c ≠ .idle_resched := by simp [hpc]
  obtain ⟨hst, hself⟩ := hI.view_at hpc rfl (by simp)
  simp only [next, hpc] at hs
  split at hs
  · exact frame_drop hI hs ho hne hst.2 (fun _ => rfl) (by rfl) (by rfl) (by rfl) u
  · rename_i m₁ hp
    obtain ⟨l, -, -, rfl⟩ := push_task_eq_some hp
    refine frame_pass_on hI hs ho (fun v hv => view_push_of_ne hv) (by rfl) (by rfl) (by rfl) ?_ u
    rw [view_push_self (by rw [hself]; rfl), hself, hst.1, hst.2]
    refine Legit.of_eq ?_ (Legit.ready (m.home (m.current_task c)) l)
    simp [View.set_ready, View.set_cpu, View.off]

/-! ### The pool of idle handlers -/

/-- The first handler of the pool is taken out and its state changes. -/
theorem view_take_idle {rest : List TaskPtr} (hidle : m.idle_handlers = h :: rest) (st : TaskState) :
    (∀ v, v ≠ h → { m with idle_handlers := rest, tasks := m.tasks.set_state h st }.view v = m.view v) ∧
    (m.idle_handlers.count h = 1 →
      { m with idle_handlers := rest, tasks := m.tasks.set_state h st }.view h =
        ((m.view h).set_task st (m.waits h)).set_idle 0) := by
  constructor
  · intro v hv
    refine Eq.trans ?_ (view_set_state_of_ne (m := m) st hv)
    exact view_set_idle_of_eq (m := m.set_state h st) (by simp [set_state, hidle, Ne.symm hv])
  · intro h1
    rw [hidle, List.count_cons_self] at h1
    refine (view_set_idle (m := m.set_state h st) rest h).trans ?_
    rw [view_set_state_self, Nat.succ.inj h1]

theorem get_idle_handler_follows {pid : Pid cfg} (hI : Inv m) (hpc : m.pc c = .idle_handler pid)
    (hs : m.next c = some m') (u : TaskPtr) : Follows m m' u := by
  have hold : m.owner c = none := owner_of_pc hpc
  have hspin : (m.pc c).waits_for = none := by simp [hpc, Pc.waits_for]
  simp only [next, hpc] at hs
  cases hidle : m.idle_handlers with
  | nil =>
    simp only [hidle, get_idle_handler] at hs
    rw [← hidle] at hs
    exact frame_idle hI hs hpc (fun _ => rfl) rfl rfl rfl rfl u
  | cons h rest =>
    have hcount : m.idle_handlers.count h ≠ 0 := by simp [hidle]
    rcases (hI.legit h).of_idle hcount with hv | ⟨d, hv⟩
    · -- `Blocked`: it is `Ready` now, in the hands of this CPU
      have hst : (m.tasks h).state = .blocked := congrArg View.state hv
      have hw : m.waits h = false := congrArg View.waits hv
      have h1 : m.idle_handlers.count h = 1 := congrArg View.idle hv
      obtain ⟨hne, hself⟩ := view_take_idle hidle .ready
      simp only [hidle, get_idle_handler, hst] at hs
      refine frame_set_pc (t := h) hI hs hne (by rfl) (by simp [hold])
        (fun v hv => by simp [Pc.owner, Ne.symm hv]) hspin rfl ((hI.legit h).free_of_idle hcount) ?_ u
      refine Legit.of_eq ?_ (Legit.cpu c (.set_pid h pid) .ready false (And.intro rfl rfl))
      rw [if_pos (by rfl)]
      refine (congrArg (View.set_cpu · c _) (hself h1)).trans ?_
      rw [hv, hw]
      rfl
    · -- `Blocking`: this CPU waits for the one that saves the context
      have hst : (m.tasks h).state = .blocking := congrArg View.state hv
      have hw : m.waits h = false := congrArg View.waits hv
      have h1 : m.idle_handlers.count h = 1 := congrArg View.idle hv
      obtain ⟨hne, hself⟩ := view_take_idle hidle .blocking
      simp only [hidle, get_idle_handler, hst] at hs
      refine frame_move (t := h) hI hs hne (by simp [hold]) (by simp [Pc.owner]) (by simp [hspin])
        (fun v hv => by simp [Pc.waits_for, Ne.symm hv]) ((hI.legit h).free_of_idle hcount) ?_ u
      have hcpu : (m.view h).cpu c = none := view_cpu_of_ne (by simp [hold])
      rw [if_neg (by simp [Pc.owner]), View.set_cpu_eq_self (by exact hcpu)]
      refine Legit.of_eq ?_ (Legit.leaving_spun d c)
      refine (congrArg (View.set_spin · c _) (hself h1)).trans ?_
      rw [hv, hw]
      simp [Pc.waits_for, View.set_spin, View.set_cpu, View.set_idle, View.off, View.set_task]

theorem busy_wait_follows {pid : Pid cfg} (hI : Inv m) (hpc : m.pc c = .busy_wait h pid)
    (hs : m.next c = some m') (u : TaskPtr) : Follows m m' u := by
  simp only [next, hpc] at hs
  have hold : m.owner c = none := owner_of_pc hpc
  have hspin : (m.view h).spin c = true := by simp [view, hpc, Pc.waits_for]
  rcases (hI.legit h).of_spin hspin with hv | ⟨d, hv⟩
  · have hst : (m.tasks h).state = .blocked := congrArg View.state hv
    have hw : m.waits h = false := congrArg View.waits hv
    simp only [hst, if_true] at hs
    refine frame_move (t := h) hI hs (fun v hne => view_set_state_of_ne _ hne) (by simp [hold])
      (fun v hne => by simp [Pc.owner, Ne.symm hne]) (fun v hne => by simp [hpc, Pc.waits_for, Ne.symm hne])
      (by simp [Pc.waits_for]) ((hI.legit h).free_of_spin hspin) ?_ u
    rw [view_set_state_self, hv, hw, if_pos (by rfl)]
    refine Legit.of_eq ?_ (Legit.cpu c (.set_pid h pid) .ready false (And.intro rfl rfl))
    simp [Pc.waits_for, View.set_spin, View.set_cpu, View.off, View.set_task, TaskState.wake_blocked,
      TaskState.match_set]
  · -- the handler has not left its CPU: nothing happens
    have hst : (m.tasks h).state = .blocking := congrArg View.state hv
    simp only [hst, reduceCtorEq, if_false] at hs
    have hsame : (m.set_state h TaskState.blocking.wake_blocked).view u = m.view u := by
      rcases eq_or_ne u h with rfl | hu
      · rw [view_set_state_self, view_same m, hst]
        rfl
      · exact view_set_state_of_ne _ hu
    refine Follows.of_eq hI ?_
    rw [← Option.some.inj hs, view_set_pc, if_neg (by simp [Pc.owner]), hsame,
      View.set_cpu_eq_self (view_cpu_of_ne (by simp [hold]))]
    exact View.set_spin_eq_self (by simp [view, hpc])

theorem idle_push_follows (hI : Inv m) (hpc : m.pc c = .idle_push) (hs : m.next c = some m') (u : TaskPtr) :
    Follows m m' u := by
  have ho : m.owner c = some (m.current_task c) := owner_of_pc hpc
  have hne : m.pc c ≠ .idle_resched := by simp [hpc]
  obtain ⟨hst, hself⟩ := hI.view_at hpc rfl (by simp)
  simp only [next, hpc] at hs
  split at hs
  · have h0 : m.idle_handlers.count (m.current_task c) = 0 := congrArg View.idle hself
    refine frame_set_pc (t := m.current_task c) hI hs (fun v hv => ?_) (by rfl) (fun v hv => by simp [ho, Ne.symm hv])
      (fun v hv => by simp [Pc.owner, Ne.symm hv]) (by simp [hpc, Pc.waits_for]) rfl
      ((hI.legit _).free_of_cpu (view_cpu_self ho)) ?_ u
    · exact view_set_idle_of_eq (by simp [Ne.symm hv])
    · rw [view_set_idle, if_pos (by rfl), List.count_append, h0, hself, hst.1, hst.2]
      refine Legit.of_eq ?_ (Legit.leaving_idle c)
      simp [View.set_cpu, View.set_idle]
  · exact frame_drop hI hs ho hne hst.2 (fun _ => rfl) (by rfl) (by rfl) (by rfl) u

theorem idle_resched_follows (hI : Inv m) (hpc : m.pc c = .idle_resched) (hs : m.next c = some m')
    (u : TaskPtr) : Follows m m' u := by
  have ho : m.owner c = some (m.current_task c) := owner_of_pc hpc
  have hcpu : (m.view (m.current_task c)).cpu c = some .idle_resched := (view_cpu_self ho).trans (by rw [hpc])
  have hsame := view_save_context (m := m) (t := m.current_task c) false
  have hview := (hI.legit (m.current_task c)).of_resched hcpu
  have hst : (m.tasks (m.current_task c)).state = .blocking := by
    rcases hview with hv | ⟨d, hv⟩ <;> exact congrArg View.state hv
  have hw : m.waits (m.current_task c) = false := by
    rcases hview with hv | ⟨d, hv⟩ <;> exact congrArg View.waits hv
  have hst' : ((m.save_context (m.current_task c) false).tasks (m.current_task c)).state = .blocking :=
    (congrArg View.state (hsame _)).trans hst
  simp only [next, hpc, phase2,
    show (m.save_context (m.current_task c) false).current_task c = m.current_task c from rfl, hst'] at hs
  refine frame_pass_on hI hs ho (fun v hv => ?_) (by rfl) (by rfl) (by rfl) ?_ u
  · rw [view_set_state_of_ne _ hv, hsame]
  · rw [view_set_state_self, hsame,
      show (m.save_context (m.current_task c) false).waits (m.current_task c) = false from hw]
    rcases hview with hv | ⟨d, hv⟩
    · refine Legit.of_eq ?_ Legit.idle
      simp [hv, View.set_cpu, View.set_idle, View.set_task, View.off, TaskState.leave, TaskState.match_set]
    · refine Legit.of_eq ?_ (Legit.spun d)
      simp [hv, View.set_cpu, View.set_spin, View.set_task, View.off, TaskState.leave, TaskState.match_set]

/-! ### Dispatch and the wait -/

theorem run_current_follows (hI : Inv m) (hpc : m.pc c = .run_task ∨ m.pc c = .user_run_task)
    (hs : some (m.run_current c) = some m') (u : TaskPtr) : Follows m m' u := by
  have ho : m.owner c = some (m.current_task c) := by rcases hpc with h | h <;> simp [owner, h, Pc.owner]
  have hne : m.pc c ≠ .idle_resched := by rcases hpc with h | h <;> simp [h]
  have hst := (hI.owner_view ho hne).1
  have hw : m.waits (m.current_task c) = false := by rcases hpc with h | h <;> rw [h] at hst <;> exact hst.2
  simp only [run_current] at hs
  split at hs
  · refine frame_own _ _ hI hs ho hne (fun v hv => view_set_state_of_ne _ hv) (view_set_state_self _) (by rfl)
      (by rfl) ?_ u
    exact ⟨rfl, hw⟩
  · refine frame_give_up _ _ hI hs ho hne (fun v hv => view_set_state_of_ne _ hv) (view_set_state_self _) (by rfl)
      (by rfl) (by rfl) ?_ u
    rw [hw]
    exact Legit.nowhere _

theorem popped_follows {target : Target} (hI : Inv m) (hpc : m.pc c = .popped t target)
    (hs : m.next c = some m') (u : TaskPtr) : Follows m m' u := by
  have ho : m.owner c = some t := owner_of_pc hpc
  have hne : m.pc c ≠ .idle_resched := by simp [hpc]
  have hst := hI.state_at hpc rfl (by simp)
  have hsame : ∀ v, (m.set_current c t).view v = m.view v := view_set_current (by simp [owner, hpc, Pc.owner])
  have hsame' : ∀ v, ((m.set_vspace c (m.tasks t).pid).set_current c t).view v = m.view v := hsame
  cases target <;> simp only [next, hpc] at hs
  · refine frame_carry hI hs ho hne hsame' (by rfl) ?_ hst u
    simp [Pc.owner, set_current]
  · refine frame_carry hI hs ho hne hsame (by rfl) ?_ hst u
    simp [Pc.owner, set_current]
  · refine frame_carry hI hs ho hne hsame (by rfl) ?_ hst u
    simp [Pc.owner, set_current]

theorem next_follows (hI : Inv m) (hs : m.next c = some m') (u : TaskPtr) : Follows m m' u := by
  cases hpc : m.pc c with
  | run =>
    simp only [next, hpc, Option.map_eq_some_iff] at hs
    obtain ⟨st, h₀, rfl⟩ := hs
    exact handler_next_follows hI hpc h₀ rfl u
  | sync_push => exact sync_push_follows hI hpc hs u
  | irq_push b => exact irq_push_follows hI hpc hs u
  | push_prev => exact push_prev_follows hI hpc hs u
  | idle_handler pid => exact get_idle_handler_follows hI hpc hs u
  | busy_wait h pid => exact busy_wait_follows hI hpc hs u
  | idle_push => exact idle_push_follows hI hpc hs u
  | idle_resched => exact idle_resched_follows hI hpc hs u
  | popped t target => exact popped_follows hI hpc hs u
  | run_task =>
    simp only [next, hpc] at hs
    exact run_current_follows hI (Or.inl hpc) hs u
  | user_run_task =>
    simp only [next, hpc] at hs
    exact run_current_follows hI (Or.inr hpc) hs u
  | irq_state =>
    have hst := hI.state_at hpc rfl (by simp)
    simp only [next, hpc, hst.1, if_true] at hs
    refine frame_own _ _ hI hs (owner_of_pc hpc) (by simp [hpc]) (fun v hv => view_set_state_of_ne _ hv)
      (view_set_state_self _)
      (by rfl) (by rfl) ?_ u
    exact ⟨rfl, hst.2⟩
  | dealloc_prev =>
    have hst := hI.state_at hpc rfl (by simp)
    simp only [next, hpc] at hs
    exact frame_drop hI hs (owner_of_pc hpc) (by simp [hpc]) hst.2 (fun _ => rfl) (by rfl) (by rfl) (by rfl) u
  | set_pid h pid =>
    have hst := hI.state_at hpc rfl (by simp)
    simp only [next, hpc] at hs
    exact frame_carry hI hs (owner_of_pc hpc) (by simp [hpc]) (view_set_pid pid) (by rfl) (by rfl) hst u
  | krun_utask =>
    have hst := hI.state_at hpc rfl (by simp)
    simp only [next, hpc] at hs
    refine frame_own .running (m.waits (m.current_task c)) hI hs (owner_of_pc hpc) (by simp [hpc])
      (fun v hv => view_set_state_of_ne (m := m) .running hv) (view_set_state_self (m := m) .running) (by rfl)
      ?_ ?_ u
    · split <;> rfl
    · split <;> exact ⟨rfl, hst.2⟩
  | wait_context =>
    simp only [next, hpc] at hs
    refine frame_idle hI hs hpc (view_set_current ?_) rfl rfl rfl rfl u
    simp [owner, hpc, Pc.owner]
  | wait_sleeping =>
    simp only [next, hpc] at hs
    exact frame_idle hI hs hpc (fun _ => rfl) rfl rfl rfl rfl u
  | wait_clear =>
    simp only [next, hpc] at hs
    exact frame_idle hI hs hpc (fun _ => rfl) rfl rfl rfl rfl u
  | own | sched _ | no_handler _ | wait_check | wait_irqs | panicked _ => simp [next, hpc] at hs

/-! ### Runs -/

theorem step_follows {a : Act cfg} (hI : Inv m) (hs : m.step a = some m') (u : TaskPtr) : Follows m m' u := by
  cases a with
  | irq c => exact irq_follows hI hs u
  | trap c => exact trap_follows hI hs u
  | set_self c st => exact set_self_follows hI hs u
  | leave c b => exact leave_follows hI hs u
  | poll_ready c => exact poll_ready_follows hI hs u
  | arrive t task => exact arrive_follows hI hs u
  | wake t =>
    rw [← Option.some.inj hs]
    exact wake_follows hI u
  | wake_push t => exact wake_push_follows hI hs u
  | pop_ready c p l => exact pop_ready_follows hI hs u
  | take_trap c => exact take_trap_follows hI hs u
  | fail c p => exact fail_follows hI hs u
  | into_kernel c p => exact into_kernel_follows hI hs u
  | new_handler c h task => exact new_handler_follows hI hs u
  | check c b => exact check_follows hI hs u
  | wait_return c => exact wait_return_follows hI hs u
  | handle_exits c => exact handle_exits_follows hI hs u
  | next c => exact next_follows hI hs u

theorem step_staged {a : Act cfg} (hI : Inv m) (hs : m.step a = some m') (h : TaskPtr) (hst : m'.stage h ≠ none) :
    m'.known h = true := by
  cases step_staging hs with
  | same hk hst' =>
    rw [hk]
    exact hI.staged h (hst' ▸ hst)
  | arrive t task _ _ hk hst' | new_handler _ t task _ _ _ hk hst' =>
    rw [hst'] at hst
    rw [hk]
    rcases eq_or_ne h t with rfl | hne
    · simp
    · rw [Function.update_of_ne hne] at hst ⊢
      exact hI.staged h hst
  | advance c st _ _ h₀ hm =>
    rw [hm] at hst ⊢
    rw [(handler_next_kept m c st).1]
    rcases eq_or_ne h (m.current_task c) with rfl | hne
    · exact hI.staged _ (by simp [h₀])
    · exact hI.staged h (by rwa [handler_next_stage_of_ne st hne] at hst)

theorem step_asleep {a : Act cfg} (hI : Inv m) (hs : m.step a = some m') (d : Cpu cfg)
    (hd : (m'.loc d).pc = .wait_check ∨ (m'.loc d).pc = .wait_irqs) : (m'.loc d).is_sleeping = true := by
  have hold : (m.loc d).pc = .wait_check ∨ (m.loc d).pc = .wait_irqs → (m.loc d).is_sleeping = true := hI.asleep d
  rcases step_loc hs d with heq | ⟨-, hmove⟩
  · rw [heq] at hd ⊢
    exact hold hd
  · generalize m'.loc d = l at hmove hd ⊢
    cases hmove with
    | wait_sleeping => rfl
    | flow hf =>
      -- only from the second check to the wait
      rcases hd with rfl | rfl
      · exact hf.not_to_wait_check.elim
      · exact hold (Or.inl hf.to_wait_irqs)
    | set_current t target pc' _ h => rcases h with rfl | rfl <;> simp at hd
    | take_idle g pid pc' _ _ h => rcases h with rfl | rfl <;> simp at hd
    | krun_utask => split at hd <;> simp at hd
    | _ => simp at hd

theorem step_inv {a : Act cfg} (hI : Inv m) (hs : m.step a = some m') : Inv m' where
  legit := fun t => (step_follows hI hs t).legit
  staged := step_staged hI hs
  asleep := step_asleep hI hs

end Machine

namespace Boot

variable (b : Boot cfg)

theorem view_eq (t : TaskPtr) : b.machine.view t =
    { View.off (b.machine.known t) (b.machine.tasks t).state false with
      cpu := fun c => if b.init_task c = t then some .run else none
      idle := ((List.finRange cfg.cpu_num).map b.handlers).count t } := by
  ext g
  all_goals try rfl
  · simp [Machine.view, machine, Pc.owner]
  · simp only [Machine.view, machine]
    split <;> simp [Option.filter, Stage.holds]

theorem init_task_legit (c : Cpu cfg) : Legit (b.machine.view (b.init_task c)) := by
  have hne : ∀ d, b.handlers d ≠ b.init_task c := fun d h => b.init_ne_handler c d h.symm
  refine Legit.of_eq (b.view_eq _) (Legit.of_eq ?_ (Legit.cpu c .run .running false ⟨rfl, rfl⟩))
  have hk : b.machine.known (b.init_task c) = true := by
    simp only [machine, decide_eq_true_eq]
    exact ⟨c, Or.inl rfl⟩
  have hst : (b.machine.tasks (b.init_task c)).state = .running := by simp [machine, hne, b.init_running]
  have hidle : ((List.finRange cfg.cpu_num).map b.handlers).count (b.init_task c) = 0 :=
    List.count_eq_zero.mpr (by simp [hne])
  rw [hk, hst, hidle]
  ext d
  all_goals try rfl
  rcases eq_or_ne d c with rfl | hd
  · simp
  · simp [hd, b.init_inj.eq_iff]

theorem handler_legit (c : Cpu cfg) : Legit (b.machine.view (b.handlers c)) := by
  refine Legit.of_eq (b.view_eq _) (Legit.of_eq ?_ Legit.idle)
  have hk : b.machine.known (b.handlers c) = true := by
    simp only [machine, decide_eq_true_eq]
    exact ⟨c, Or.inr (Or.inr rfl)⟩
  have hst : (b.machine.tasks (b.handlers c)).state = .blocked := by simp [machine]
  have hidle : ((List.finRange cfg.cpu_num).map b.handlers).count (b.handlers c) = 1 :=
    List.count_eq_one_of_mem ((List.nodup_finRange _).map b.handlers_inj)
      (List.mem_map_of_mem (List.mem_finRange c))
  rw [hk, hst, hidle]
  ext d
  all_goals try rfl
  simp [b.init_ne_handler d c]

/-- A task that is neither an init task nor a handler is nowhere: a wait context, or no task yet. -/
theorem view_of_ne {t : TaskPtr} (hi : ∀ c, b.init_task c ≠ t) (hh : ∀ c, b.handlers c ≠ t) :
    b.machine.view t = View.off (b.machine.known t) (b.machine.tasks t).state false := by
  have hidle : ((List.finRange cfg.cpu_num).map b.handlers).count t = 0 :=
    List.count_eq_zero.mpr (by simp [hh])
  rw [b.view_eq, hidle]
  ext d
  all_goals try rfl
  simp [hi]

theorem inv : Machine.Inv b.machine where
  legit := by
    intro t
    by_cases hi : ∃ c, b.init_task c = t
    · obtain ⟨c, rfl⟩ := hi
      exact b.init_task_legit c
    · by_cases hh : ∃ c, b.handlers c = t
      · obtain ⟨c, rfl⟩ := hh
        exact b.handler_legit c
      · rw [b.view_of_ne (not_exists.mp hi) (not_exists.mp hh)]
        cases b.machine.known t
        · exact Legit.fresh _
        · exact Legit.nowhere _
  staged := by
    intro h hst
    have hh : ∃ c, b.handlers c = h := by
      by_contra hno
      simp [machine, hno] at hst
    obtain ⟨c, rfl⟩ := hh
    simp only [machine, decide_eq_true_eq]
    exact ⟨c, Or.inr (Or.inr rfl)⟩
  asleep := by
    intro c h
    simp [machine] at h

theorem run_inv {acts : List (Machine.Act cfg)} {m : Machine cfg}
    (hrun : Runs.run Machine.step b.machine acts = some m) : Machine.Inv m :=
  Runs.run_invariant (fun _ _ _ hI hs => Machine.step_inv hI hs) acts b.inv hrun

end Boot

end Vsched2
