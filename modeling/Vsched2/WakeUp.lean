import Vsched2.Machine
import Mathlib.Data.List.Count

/-! A task blocks itself while others wake it.

    The task joins a wait queue in the state `Blocking`. Its CPU then leaves it, and whoever finds it
    `Blocked` puts it back, or the CPU does if it has become `Ready` on the way. `Duty` says whose turn
    it is. -/

namespace Vsched2

namespace WakeUp

/-- The state map of a waker: it wakes a `Blocked` and a `Blocking` task and leaves the others alone. -/
def waker_map : TaskState → TaskState := TaskState.match_set .ready .running .ready .exited .ready

/-- The CPU of the task: in its code, on the way to `match_set_state` of `thread_entry_phase2` or of the
    `Pending` branch of `run_coroutine`, and with the old state in its hands before `push_prev_task`. -/
inductive CpuPlace where
  | code | entering | left (prev_state : TaskState) | done | panicked (why : Panic)
  deriving DecidableEq

/-- A waker, and with the old state in its hands. It is done, or `push_task` has returned `false` to it. -/
inductive WakerPlace where
  | start | woke (prev_state : TaskState) | done | refused
  deriving DecidableEq

/-- The waker has made its calls. -/
def WakerPlace.Finished (w : WakerPlace) : Prop := w = .done ∨ w = .refused

instance (w : WakerPlace) : Decidable w.Finished := inferInstanceAs (Decidable (_ ∨ _))

/-- The waker owes nothing, and has left nothing undone. -/
def WakerPlace.Clear (w : WakerPlace) : Prop := w ≠ .woke .blocked ∧ w ≠ .refused

structure Race (n : ℕ) where
  state : TaskState
  ready : List TaskPtr
  cpu : CpuPlace
  waker : Fin n → WakerPlace

inductive Act (n : ℕ) where
  | cpu
  | waker (i : Fin n)
  | push_other (u : TaskPtr)
  | pop_other
  deriving DecidableEq

variable {n size : ℕ} {t : TaskPtr}

/-- The next access of the task's CPU. -/
def cpu_step (size : ℕ) (t : TaskPtr) (s : Race n) : Option (Race n) :=
  match s.cpu with
  | .code => some { s with state := .blocking, cpu := .entering }
  | .entering => some { s with state := s.state.leave, cpu := .left s.state }
  | .left .ready =>
    if s.ready.length < size then some { s with ready := s.ready ++ [t], cpu := .done }
    else some { s with cpu := .panicked .ready_full }
  | .left .blocked => some { s with cpu := .panicked .task_blocked }
  | .left _ => some { s with cpu := .done }
  | .done | .panicked _ => none

/-- The next access of a waker: `match_set_state`, and `push_task` if the task was `Blocked`. A full ready
    queue refuses the task. -/
def waker_step (size : ℕ) (t : TaskPtr) (s : Race n) (i : Fin n) : Option (Race n) :=
  match s.waker i with
  | .start => some { s with state := waker_map s.state, waker := Function.update s.waker i (.woke s.state) }
  | .woke .blocked =>
    if s.ready.length < size then
      some { s with ready := s.ready ++ [t], waker := Function.update s.waker i .done }
    else some { s with waker := Function.update s.waker i .refused }
  | .woke _ => some { s with waker := Function.update s.waker i .done }
  | .done | .refused => none

/-- The steps; other tasks come and go, while the task itself is not dispatched. -/
def step (size : ℕ) (t : TaskPtr) (s : Race n) : Act n → Option (Race n)
  | .cpu => cpu_step size t s
  | .waker i => waker_step size t s i
  | .push_other u => if u ≠ t ∧ s.ready.length < size then some { s with ready := s.ready ++ [u] } else none
  | .pop_other =>
    match s.ready with
    | u :: rest => if u ≠ t then some { s with ready := rest } else none
    | [] => none

/-- The task runs, and nobody has woken it. -/
def start (n : ℕ) (ready : List TaskPtr) : Race n where
  state := .running
  ready := ready
  cpu := .code
  waker := fun _ => .start

/-- A waker finds the task in the wait queue, which the task joins once it is `Blocking`. -/
def Joined (s : Race n) : Act n → Prop
  | .waker _ => s.cpu ≠ .code
  | _ => True

instance (s : Race n) : DecidablePred (Joined s)
  | .waker _ => inferInstanceAs (Decidable (_ ≠ _))
  | .cpu | .push_other _ | .pop_other => isTrue trivial

/-- No waker has to put the task back, or has failed to. -/
def AllClear (s : Race n) : Prop := ∀ i, (s.waker i).Clear

/-- Who has to put the task back. -/
inductive Duty (t : TaskPtr) (s : Race n) : Prop where
  | running (hst : s.state = .running) (hcpu : s.cpu = .code) (hw : ∀ i, s.waker i = .start) (hr : s.ready.count t = 0)
  | blocking (hst : s.state = .blocking) (hcpu : s.cpu = .entering) (hw : ∀ i, s.waker i = .start)
      (hr : s.ready.count t = 0)
  | blocked (hst : s.state = .blocked) (hcpu : s.cpu = .left .blocking ∨ s.cpu = .done) (hw : ∀ i, s.waker i = .start)
      (hr : s.ready.count t = 0)
  | woken (hst : s.state = .ready) (hcpu : s.cpu = .entering) (hw : AllClear s) (hr : s.ready.count t = 0)
  | cpu (hst : s.state = .ready) (hcpu : s.cpu = .left .ready) (hw : AllClear s) (hr : s.ready.count t = 0)
  | waker (hst : s.state = .ready) (hcpu : s.cpu = .left .blocking ∨ s.cpu = .done) (i : Fin n)
      (hi : s.waker i = .woke .blocked) (hw : ∀ j, j ≠ i → (s.waker j).Clear) (hr : s.ready.count t = 0)
  | enqueued (hst : s.state = .ready) (hcpu : s.cpu = .left .blocking ∨ s.cpu = .done) (hw : AllClear s)
      (hr : s.ready.count t = 1)
  | refused (hst : s.state = .ready) (hcpu : s.cpu = .left .blocking ∨ s.cpu = .done) (i : Fin n)
      (hi : s.waker i = .refused) (hw : ∀ j, j ≠ i → (s.waker j).Clear) (hr : s.ready.count t = 0)
  | panicked (hcpu : s.cpu = .panicked .ready_full)

theorem start_duty {ready : List TaskPtr} (h : t ∉ ready) : Duty t (start n ready) :=
  .running rfl rfl (fun _ => rfl) (List.count_eq_zero.mpr h)

/-- A waker that stays clear changes nothing for those that were. -/
theorem clear_update {s : Race n} {P : Fin n → Prop} {i : Fin n} {w : WakerPlace}
    (hw : ∀ j, P j → (s.waker j).Clear) (hc : w.Clear) (j : Fin n) (hj : P j) :
    (Function.update s.waker i w j).Clear := by
  rcases eq_or_ne j i with rfl | hne
  · simpa using hc
  · simpa [hne] using hw j hj

theorem all_clear_update {s : Race n} {i : Fin n} {w : WakerPlace} (hw : AllClear s) (hc : w.Clear) (j : Fin n) :
    (Function.update s.waker i w j).Clear :=
  clear_update (P := fun _ => True) (fun j _ => hw j) hc j trivial

theorem all_clear_of_start {s : Race n} (hw : ∀ i, s.waker i = .start) : AllClear s := by
  intro i
  simp [hw i, WakerPlace.Clear]

theorem cpu_step_duty {s s' : Race n} (hd : Duty t s) (hs : cpu_step size t s = some s') : Duty t s' := by
  cases hd with
  | running hst hcpu hw hr =>
    simp only [cpu_step, hcpu] at hs
    rw [← Option.some.inj hs]
    exact .blocking rfl rfl hw hr
  | blocking hst hcpu hw hr =>
    simp only [cpu_step, hcpu] at hs
    rw [← Option.some.inj hs, hst]
    exact .blocked rfl (Or.inl rfl) hw hr
  | woken hst hcpu hw hr =>
    simp only [cpu_step, hcpu] at hs
    rw [← Option.some.inj hs, hst]
    exact .cpu rfl rfl hw hr
  | cpu hst hcpu hw hr =>
    simp only [cpu_step, hcpu] at hs
    split at hs <;> rw [← Option.some.inj hs]
    · exact .enqueued hst (Or.inr rfl) hw (by simp [List.count_append, hr])
    · exact .panicked rfl
  | blocked hst hcpu hw hr =>
    rcases hcpu with hcpu | hcpu <;> simp only [cpu_step, hcpu] at hs
    · rw [← Option.some.inj hs]
      exact .blocked hst (Or.inr rfl) hw hr
    · cases hs
  | waker hst hcpu i hi hw hr =>
    rcases hcpu with hcpu | hcpu <;> simp only [cpu_step, hcpu] at hs
    · rw [← Option.some.inj hs]
      exact .waker hst (Or.inr rfl) i hi hw hr
    · cases hs
  | enqueued hst hcpu hw hr =>
    rcases hcpu with hcpu | hcpu <;> simp only [cpu_step, hcpu] at hs
    · rw [← Option.some.inj hs]
      exact .enqueued hst (Or.inr rfl) hw hr
    · cases hs
  | refused hst hcpu i hi hw hr =>
    rcases hcpu with hcpu | hcpu <;> simp only [cpu_step, hcpu] at hs
    · rw [← Option.some.inj hs]
      exact .refused hst (Or.inr rfl) i hi hw hr
    · cases hs
  | panicked hcpu => simp [cpu_step, hcpu] at hs

/-- Once the task is `Ready`, a waker that does not owe a push does not come to owe one. -/
theorem waker_step_ready {s s' : Race n} {j : Fin n} (hst : s.state = .ready) (hj : s.waker j ≠ .woke .blocked)
    (hs : waker_step size t s j = some s') :
    ∃ w, w.Clear ∧ s' = { s with waker := Function.update s.waker j w } := by
  simp only [waker_step] at hs
  split at hs
  · refine ⟨.woke .ready, by simp [WakerPlace.Clear], ?_⟩
    rw [← Option.some.inj hs, hst]
    congr 1
  · rename_i howes
    exact absurd howes hj
  · exact ⟨.done, by simp [WakerPlace.Clear], (Option.some.inj hs).symm⟩
  all_goals cases hs

theorem waker_step_start {s s' : Race n} {j : Fin n} (hj : s.waker j = .start)
    (hs : waker_step size t s j = some s') :
    s' = { s with state := waker_map s.state, waker := Function.update s.waker j (.woke s.state) } := by
  simp only [waker_step, hj] at hs
  exact (Option.some.inj hs).symm

/-- A waker that has been refused makes no step. -/
theorem waker_step_refused {s s' : Race n} {j : Fin n} (hs : waker_step size t s j = some s') :
    s.waker j ≠ .refused := by
  intro hj
  simp [waker_step, hj] at hs

theorem waker_step_cpu {s s' : Race n} {j : Fin n} (hs : waker_step size t s j = some s') : s'.cpu = s.cpu := by
  simp only [waker_step] at hs
  split at hs
  · rw [← Option.some.inj hs]
  · split at hs <;> rw [← Option.some.inj hs]
  · rw [← Option.some.inj hs]
  all_goals cases hs

/-- The waker that owes the push makes it, or is refused. -/
theorem waker_step_owes {s s' : Race n} {j : Fin n} (hst : s.state = .ready)
    (hcpu : s.cpu = .left .blocking ∨ s.cpu = .done) (hj : s.waker j = .woke .blocked)
    (hw : ∀ k, k ≠ j → (s.waker k).Clear) (hr : s.ready.count t = 0) (hs : waker_step size t s j = some s') :
    Duty t s' := by
  simp only [waker_step, hj] at hs
  split at hs <;> rw [← Option.some.inj hs]
  · refine .enqueued hst hcpu (fun k => ?_) (by simp [List.count_append, hr])
    rcases eq_or_ne k j with rfl | hk
    · simp [WakerPlace.Clear]
    · simpa [hk] using hw k hk
  · refine .refused hst hcpu j (by simp) (fun k hk => ?_) hr
    simpa [hk] using hw k hk

theorem waker_step_duty {s s' : Race n} {j : Fin n} (hd : Duty t s) (hjoined : s.cpu ≠ .code)
    (hs : waker_step size t s j = some s') : Duty t s' := by
  cases hd with
  | running _ hcpu => exact absurd hcpu hjoined
  | blocking hst hcpu hw hr =>
    rw [waker_step_start (hw j) hs, hst]
    exact .woken rfl hcpu (all_clear_update (all_clear_of_start hw) (by simp [WakerPlace.Clear])) hr
  | blocked hst hcpu hw hr =>
    rw [waker_step_start (hw j) hs, hst]
    refine .waker rfl hcpu j (by simp) (fun k hk => ?_) hr
    simp [hk, hw k, WakerPlace.Clear]
  | woken hst hcpu hw hr =>
    obtain ⟨w, hc, rfl⟩ := waker_step_ready hst (hw j).1 hs
    exact .woken hst hcpu (all_clear_update hw hc) hr
  | cpu hst hcpu hw hr =>
    obtain ⟨w, hc, rfl⟩ := waker_step_ready hst (hw j).1 hs
    exact .cpu hst hcpu (all_clear_update hw hc) hr
  | waker hst hcpu i hi hw hr =>
    rcases eq_or_ne j i with rfl | hji
    · exact waker_step_owes hst hcpu hi hw hr hs
    · obtain ⟨w, hc, rfl⟩ := waker_step_ready hst (hw j hji).1 hs
      exact .waker hst hcpu i (by simpa [hji.symm] using hi) (clear_update hw hc) hr
  | enqueued hst hcpu hw hr =>
    obtain ⟨w, hc, rfl⟩ := waker_step_ready hst (hw j).1 hs
    exact .enqueued hst hcpu (all_clear_update hw hc) hr
  | refused hst hcpu i hi hw hr =>
    have hji : j ≠ i := fun h => waker_step_refused hs (h ▸ hi)
    obtain ⟨w, hc, rfl⟩ := waker_step_ready hst (hw j hji).1 hs
    exact .refused hst hcpu i (by simpa [hji.symm] using hi) (clear_update hw hc) hr
  | panicked hcpu => exact .panicked ((waker_step_cpu hs).trans hcpu)

/-- Other tasks do not matter. -/
theorem Duty.congr {s : Race n} {ready : List TaskPtr} (hd : Duty t s) (hr : ready.count t = s.ready.count t) :
    Duty t { s with ready := ready } := by
  cases hd with
  | running hst hcpu hw h => exact .running hst hcpu hw (hr.trans h)
  | blocking hst hcpu hw h => exact .blocking hst hcpu hw (hr.trans h)
  | blocked hst hcpu hw h => exact .blocked hst hcpu hw (hr.trans h)
  | woken hst hcpu hw h => exact .woken hst hcpu hw (hr.trans h)
  | cpu hst hcpu hw h => exact .cpu hst hcpu hw (hr.trans h)
  | waker hst hcpu i hi hw h => exact .waker hst hcpu i hi hw (hr.trans h)
  | enqueued hst hcpu hw h => exact .enqueued hst hcpu hw (hr.trans h)
  | refused hst hcpu i hi hw h => exact .refused hst hcpu i hi hw (hr.trans h)
  | panicked hcpu => exact .panicked hcpu

theorem step_duty {s s' : Race n} {a : Act n} (hd : Duty t s) (hjoined : Joined s a)
    (hs : step size t s a = some s') : Duty t s' := by
  cases a with
  | cpu => exact cpu_step_duty hd hs
  | waker i => exact waker_step_duty hd hjoined hs
  | push_other u =>
    simp only [step] at hs
    split at hs
    · rename_i hu
      rw [← Option.some.inj hs]
      exact hd.congr (by simp [List.count_append, hu.1])
    · cases hs
  | pop_other =>
    simp only [step] at hs
    split at hs
    · rename_i u rest hr
      split at hs
      · rename_i hu
        rw [← Option.some.inj hs]
        exact hd.congr (by simp [hr, hu])
      · cases hs
    · cases hs

/-- For any number of wakers and every interleaving in which they find the task in the wait queue: once
    the task's CPU and the wakers are done, the task is `Ready`, and in its ready queue once if and only if
    `push_task` has refused it to none of them. The CPU never finds it `Blocked`. -/
theorem no_lost_wake_up (n size : ℕ) (hn : 0 < n) (t : TaskPtr) (ready : List TaskPtr) (hready : t ∉ ready)
    (acts : List (Act n)) (s : Race n) (hrun : Runs.run (step size t) (start n ready) acts = some s)
    (hjoined : Runs.Along (step size t) Joined (start n ready) acts) :
    (s.cpu = .done → (∀ i, (s.waker i).Finished) →
      s.state = .ready ∧ s.ready.count t ≤ 1 ∧ (s.ready.count t = 1 ↔ ∀ i, s.waker i ≠ .refused)) ∧
    s.cpu ≠ .panicked .task_blocked := by
  have hd : Duty t s :=
    Runs.along_invariant (fun _ _ _ hd ha hs => step_duty hd ha hs) acts (start_duty hready) hjoined hrun
  constructor
  · intro hcpu hw
    have hdone := hw ⟨0, hn⟩
    cases hd with
    | running _ _ h | blocking _ _ h | blocked _ _ h => simp [h, WakerPlace.Finished] at hdone
    | woken _ h | cpu _ h | panicked h => simp [h] at hcpu
    | waker _ _ i hi => simpa [hi, WakerPlace.Finished] using hw i
    | enqueued hst _ hclear hr => exact ⟨hst, hr.le, iff_of_true hr fun i => (hclear i).2⟩
    | refused hst _ i hi _ hr => exact ⟨hst, by simp [hr], iff_of_false (by simp [hr]) fun h => h i hi⟩
  · intro hcpu
    cases hd with
    | blocked _ h | waker _ h | enqueued _ h | refused _ h => rcases h with h | h <;> simp [h] at hcpu
    | running _ h | blocking _ h | woken _ h | cpu _ h | panicked h => simp [h] at hcpu

/-- The first waker finds the task `Blocked`, and the second comes before the first has pushed it. -/
def two_wakers : List (Act 2) :=
  let first : Fin 2 := ⟨0, Nat.two_pos⟩
  let second : Fin 2 := ⟨1, Nat.one_lt_two⟩
  [.cpu, .cpu, .waker first, .waker second, .cpu, .push_other 8, .waker second, .waker first]

theorem no_lost_wake_up_two : ∃ s : Race 2, Runs.run (step 256 7) (start 2 []) two_wakers = some s ∧
    s.state = .ready ∧ s.ready.count 7 = 1 := by
  have hrun : ((Runs.run (step 256 7) (start 2 []) two_wakers).map fun s =>
      decide (s.cpu = .done ∧ (∀ i, (s.waker i).Finished) ∧ ∀ i, s.waker i ≠ .refused)) = some true := by decide
  obtain ⟨s, hs, hdone⟩ := Option.map_eq_some_iff.mp hrun
  obtain ⟨hcpu, hw, hno⟩ := of_decide_eq_true hdone
  obtain ⟨hst, -, hcount⟩ := (no_lost_wake_up 2 256 (by decide) 7 [] (by simp) _ s hs (by decide)).1 hcpu hw
  exact ⟨s, hs, hst, hcount.mpr hno⟩

/-- The ready queue is full when the only waker calls `push_task`: the task is `Ready` and in no queue. A
    waker that comes before the task is `Blocking` wakes nobody. -/
theorem wake_up_lost :
    (∃ s : Race 1, Runs.run (step 256 7) (start 1 (List.replicate 256 8))
        [.cpu, .cpu, .cpu, .waker 0, .waker 0] = some s ∧
      s.cpu = .done ∧ (∀ i, (s.waker i).Finished) ∧ s.state = .ready ∧ s.ready.count 7 = 0) ∧
    ∃ s : Race 1, Runs.run (step 256 7) (start 1 []) [.waker 0, .waker 0, .cpu, .cpu, .cpu] = some s ∧
      s.cpu = .done ∧ (∀ i, (s.waker i).Finished) ∧ s.state = .blocked ∧ s.ready.count 7 = 0 := by
  constructor
  · have hrun : ((Runs.run (step 256 7) (start 1 (List.replicate 256 8)) [.cpu, .cpu, .cpu, .waker 0, .waker 0]).map
        fun s => decide (s.cpu = .done ∧ (∀ i, (s.waker i).Finished) ∧ s.state = .ready ∧ s.ready.count 7 = 0)) =
        some true := by decide +kernel
    obtain ⟨s, hs, h⟩ := Option.map_eq_some_iff.mp hrun
    exact ⟨s, hs, of_decide_eq_true h⟩
  · have hrun : ((Runs.run (step 256 7) (start 1 []) [.waker 0, .waker 0, .cpu, .cpu, .cpu]).map
        fun s => decide (s.cpu = .done ∧ (∀ i, (s.waker i).Finished) ∧ s.state = .blocked ∧ s.ready.count 7 = 0)) =
        some true := by decide
    obtain ⟨s, hs, h⟩ := Option.map_eq_some_iff.mp hrun
    exact ⟨s, hs, of_decide_eq_true h⟩

end WakeUp

end Vsched2
