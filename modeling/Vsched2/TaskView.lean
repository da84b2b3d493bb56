import Vsched2.Effects
import Mathlib.Data.List.Count
import Mathlib.Tactic.Simps.Basic

/-! Every task is in one place.

    `view m t` collects where a task occurs: in which ready queues, on which CPUs, in which trap
    queues, in whose hands, in the pool. `Legit` lists the views a task can have. No step brings two
    occurrences of a task together, which is proved by looking at one task at a time. -/

namespace Vsched2

variable {cfg : Config}

/-- The task a CPU is responsible for: the one it runs, and on the way in and out. -/
def Pc.owner (current : TaskPtr) : Pc cfg → Option TaskPtr
  | .run | .own | .sync_push | .irq_push false | .irq_state | .push_prev | .dealloc_prev | .run_task
  | .krun_utask | .user_run_task | .idle_push | .idle_resched => some current
  | .set_pid h _ => some h
  | .popped t _ => some t
  | _ => none

/-- The handler a CPU waits for. -/
def Pc.waits_for : Pc cfg → Option TaskPtr
  | .busy_wait h _ => some h
  | _ => none

/-- The trapped task a handler has to give back. -/
def Stage.holds : Stage → Option TaskPtr
  | .taken item | .handle item | .handled item => item.task
  | .wake _ t | .exited _ t => some t
  | .top | .dealloc _ => none

/-- The occurrences of one task. -/
@[ext] structure View (cfg : Config) where
  known : Bool
  state : TaskState
  waits : Bool
  ready : Pid cfg → Level cfg → ℕ
  cpu : Cpu cfg → Option (Pc cfg)
  spin : Cpu cfg → Bool
  idle : ℕ
  waking : ℕ
  trapped : Cpu cfg → ℕ
  hand : TaskPtr → Option Stage

namespace Machine

/-- The task CPU `c` is responsible for. -/
def owner (m : Machine cfg) (c : Cpu cfg) : Option TaskPtr := (m.pc c).owner (m.current_task c)

def view (m : Machine cfg) (t : TaskPtr) : View cfg where
  known := m.known t
  state := (m.tasks t).state
  waits := m.waits t
  ready := fun p l => (m.ready p l).count t
  cpu := fun c => if (m.pc c).owner (m.current_task c) = some t then some (m.pc c) else none
  spin := fun c => decide ((m.pc c).waits_for = some t)
  idle := m.idle_handlers.count t
  waking := m.waking.count t
  trapped := fun c => ((m.traps c).filterMap TrapItem.task).count t
  hand := fun h => (m.stage h).filter fun st => st.holds = some t

end Machine

namespace View

/-- A task that occurs nowhere. -/
@[simps] def off (known : Bool) (state : TaskState) (waits : Bool) : View cfg where
  known := known
  state := state
  waits := waits
  ready := fun _ _ => 0
  cpu := fun _ => none
  spin := fun _ => false
  idle := 0
  waking := 0
  trapped := fun _ => 0
  hand := fun _ => none

/-- Changes the state and the flag `waits`. -/
@[simps] def set_task (v : View cfg) (st : TaskState) (w : Bool) : View cfg := { v with state := st, waits := w }

/-- Changes the count of one ready queue. -/
@[simps] def set_ready (v : View cfg) (p : Pid cfg) (l : Level cfg) (n : ℕ) : View cfg :=
  { v with ready := Function.update v.ready p (Function.update (v.ready p) l n) }

@[simps] def set_cpu (v : View cfg) (c : Cpu cfg) (pc : Option (Pc cfg)) : View cfg :=
  { v with cpu := Function.update v.cpu c pc }

@[simps] def set_spin (v : View cfg) (c : Cpu cfg) (b : Bool) : View cfg :=
  { v with spin := Function.update v.spin c b }

@[simps] def set_idle (v : View cfg) (n : ℕ) : View cfg := { v with idle := n }

@[simps] def set_waking (v : View cfg) (n : ℕ) : View cfg := { v with waking := n }

@[simps] def set_trapped (v : View cfg) (c : Cpu cfg) (n : ℕ) : View cfg :=
  { v with trapped := Function.update v.trapped c n }

@[simps] def set_hand (v : View cfg) (h : TaskPtr) (st : Option Stage) : View cfg :=
  { v with hand := Function.update v.hand h st }

variable {v : View cfg}

@[simp] theorem off_set_task (k st w st' w') : (off k st w : View cfg).set_task st' w' = off k st' w' := rfl

@[simp] theorem set_cpu_set_task (c : Cpu cfg) (x st w) :
    (v.set_cpu c x).set_task st w = (v.set_task st w).set_cpu c x := rfl

@[simp] theorem set_hand_set_task (h x st w) :
    (v.set_hand h x).set_task st w = (v.set_task st w).set_hand h x := rfl

@[simp] theorem set_cpu_set_cpu (c : Cpu cfg) (x y) : (v.set_cpu c x).set_cpu c y = v.set_cpu c y := by
  simp [set_cpu]

@[simp] theorem set_hand_set_hand (h x y) : (v.set_hand h x).set_hand h y = v.set_hand h y := by
  simp [set_hand]

@[simp] theorem set_spin_set_spin (c : Cpu cfg) (x y) : (v.set_spin c x).set_spin c y = v.set_spin c y := by
  simp [set_spin]

theorem set_cpu_eq_self {c : Cpu cfg} {x} (h : v.cpu c = x) : v.set_cpu c x = v := by
  simp [set_cpu, ← h]

theorem set_spin_eq_self {c : Cpu cfg} {b} (h : v.spin c = b) : v.set_spin c b = v := by
  simp [set_spin, ← h]

theorem set_hand_eq_self {h x} (hx : v.hand h = x) : v.set_hand h x = v := by
  simp [set_hand, ← hx]

end View

/-- The states, with the flag `waits`, a task has while a CPU that is responsible for it stands at a
    `Pc`. -/
def OwnerState : Pc cfg → TaskState → Bool → Prop
  | .run, st, w | .irq_push _, st, w | .irq_state, st, w | .user_run_task, st, w => st = .running ∧ w = false
  | .own, st, w => (st = .blocking ∧ w = true) ∨ ((st = .ready ∨ st = .exited) ∧ w = false)
  | .sync_push, st, w => st = .blocked ∧ w = false
  | .push_prev, st, w | .set_pid _ _, st, w | .popped _ _, st, w | .run_task, st, w
  | .krun_utask, st, w => st = .ready ∧ w = false
  | .dealloc_prev, st, w => st = .exited ∧ w = false
  | .idle_push, st, w => st = .blocking ∧ w = false
  | _, _, _ => False

/-- The states of a trapped task while its handler stands at a stage. -/
def HandState : Stage → TaskState → Prop
  | .taken _, st => st = .blocked
  | .handle _, st | .handled _, st => st = .blocked ∨ st = .exited
  | .wake _ _, st => st = .ready
  | .exited _ _, st => st = .exited
  | _, _ => False

/-- The views a task can have. A handler that leaves its CPU is in the pool, or waited for by
    another CPU, before the CPU has saved its context. -/
inductive Legit : View cfg → Prop where
  | nowhere (st) : Legit (.off true st false)
  | fresh (st) : Legit (.off false st false)
  | parked : Legit (.off true .blocked true)
  | ready (p l) : Legit ((View.off true .ready false).set_ready p l 1)
  | waking : Legit ((View.off true .ready false).set_waking 1)
  | trapped (c) : Legit ((View.off true .blocked false).set_trapped c 1)
  | hand (h st stage) (hst : HandState stage st) : Legit ((View.off true st false).set_hand h (some stage))
  | cpu (c pc st w) (hst : OwnerState pc st w) : Legit ((View.off true st w).set_cpu c (some pc))
  | leaving_idle (c) :
      Legit (((View.off true .blocking false).set_cpu c (some .idle_resched)).set_idle 1)
  | leaving_spun (c d) :
      Legit (((View.off true .blocking false).set_cpu c (some .idle_resched)).set_spin d true)
  | idle : Legit ((View.off true .blocked false).set_idle 1)
  | spun (d) : Legit ((View.off true .blocked false).set_spin d true)

/-! ### What an access does to a view -/

namespace Machine

variable {m : Machine cfg} {c : Cpu cfg} {t u h : TaskPtr}

theorem view_set_pc (m : Machine cfg) (c : Cpu cfg) (pc : Pc cfg) (u : TaskPtr) :
    (m.set_pc c pc).view u = ((m.view u).set_cpu c
      (if pc.owner (m.current_task c) = some u then some pc else none)).set_spin c
        (decide (pc.waits_for = some u)) := by
  ext d
  all_goals try rfl
  · rcases eq_or_ne d c with rfl | hd <;> simp [view, set_pc, View.set_cpu, View.set_spin, *]
  · rcases eq_or_ne d c with rfl | hd <;> simp [view, set_pc, View.set_cpu, View.set_spin, *]

theorem view_cpu_of_ne (hu : m.owner c ≠ some u) : (m.view u).cpu c = none := if_neg hu

theorem view_set_current (h : (m.pc c).owner t = m.owner c) (u : TaskPtr) :
    (m.set_current c t).view u = m.view u := by
  ext d
  all_goals try rfl
  rcases eq_or_ne d c with rfl | hd
  · simp only [view, set_current, Function.update_self, h]; rfl
  · simp [view, set_current, hd]

theorem view_set_state_of_ne (st : TaskState) (hu : u ≠ t) : (m.set_state t st).view u = m.view u :=
  View.ext rfl (congrArg Task.state (Tasks.set_state_of_ne _ _ hu)) rfl rfl rfl rfl rfl rfl rfl rfl

@[simp] theorem view_set_state_self (st : TaskState) :
    (m.set_state t st).view t = (m.view t).set_task st (m.waits t) :=
  View.ext rfl (Tasks.set_state_self _ _ _) rfl rfl rfl rfl rfl rfl rfl rfl

theorem view_set_wait_of_ne (st : TaskState) (w : Bool) (hu : u ≠ t) :
    (m.set_wait t st w).view u = m.view u :=
  View.ext rfl (congrArg Task.state (Tasks.set_state_of_ne _ _ hu)) (Function.update_of_ne hu _ _)
    rfl rfl rfl rfl rfl rfl rfl

@[simp] theorem view_set_wait_self (st : TaskState) (w : Bool) :
    (m.set_wait t st w).view t = (m.view t).set_task st w :=
  View.ext rfl (Tasks.set_state_self _ _ _) (Function.update_self _ _ _) rfl rfl rfl rfl rfl rfl rfl

/-- Changes of the tasks that keep all states. -/
theorem view_set_tasks {ts : Tasks cfg} (h : ∀ u, (ts u).state = (m.tasks u).state) (u : TaskPtr) :
    { m with tasks := ts }.view u = m.view u :=
  View.ext rfl (h u) rfl rfl rfl rfl rfl rfl rfl rfl

@[simp] theorem view_save_context (b : Bool) (u : TaskPtr) : (m.save_context t b).view u = m.view u :=
  view_set_tasks (fun v => by rcases eq_or_ne v t with rfl | hv <;> simp [*]) u

@[simp] theorem view_set_pid (pid : Pid cfg) (u : TaskPtr) :
    { m with tasks := m.tasks.set_pid t pid }.view u = m.view u :=
  view_set_tasks (fun v => by simp) u

@[simp] theorem view_set_sleeping (b : Bool) (u : TaskPtr) : (m.set_sleeping c b).view u = m.view u := rfl

@[simp] theorem view_set_in_kernel (b : Bool) (u : TaskPtr) : (m.set_in_kernel c b).view u = m.view u := rfl

@[simp] theorem view_set_vspace (p : Pid cfg) (u : TaskPtr) : (m.set_vspace c p).view u = m.view u := rfl

@[simp] theorem view_emit (e : Event cfg) (u : TaskPtr) : (m.emit e).view u = m.view u := rfl

theorem view_set_stage (st : Stage) (u : TaskPtr) :
    (m.set_stage h st).view u = (m.view u).set_hand h (if st.holds = some u then some st else none) := by
  ext g
  all_goals try rfl
  rcases eq_or_ne g h with rfl | hg
  · simp [view, set_stage, View.set_hand, Option.filter]
  · simp [view, set_stage, View.set_hand, hg]

theorem view_hand {st : Stage} (hst : m.stage h = some st) :
    (m.view u).hand h = if st.holds = some u then some st else none := by
  simp [view, hst, Option.filter]

theorem view_set_ready (p : Pid cfg) (l : Level cfg) (q : List TaskPtr) (u : TaskPtr) :
    (m.set_ready p l q).view u = (m.view u).set_ready p l (q.count u) := by
  ext p' l'
  all_goals try rfl
  rcases eq_or_ne p' p with rfl | hp
  · rcases eq_or_ne l' l with rfl | hl <;> simp [view, set_ready, View.set_ready, *]
  · simp [view, set_ready, View.set_ready, hp]

theorem view_set_ready_of_eq {p : Pid cfg} {l : Level cfg} {q : List TaskPtr}
    (hq : q.count u = (m.ready p l).count u) : (m.set_ready p l q).view u = m.view u := by
  rw [view_set_ready, hq]
  simp [View.set_ready, view]

theorem view_set_idle (q : List TaskPtr) (u : TaskPtr) :
    { m with idle_handlers := q }.view u = (m.view u).set_idle (q.count u) := rfl

theorem view_set_idle_of_eq {q : List TaskPtr} (hq : q.count u = m.idle_handlers.count u) :
    { m with idle_handlers := q }.view u = m.view u :=
  View.ext rfl rfl rfl rfl rfl rfl hq rfl rfl rfl

/-! ### `push_task` -/

theorem view_push_of_ne {p : Pid cfg} {l : Level cfg} (hu : u ≠ t) :
    (m.set_ready p l (m.ready p l ++ [t])).view u = m.view u :=
  view_set_ready_of_eq (by simp [List.count_append, Ne.symm hu])

/-- A task that is in no ready queue is in one after `push_task`. -/
theorem view_push_self {p : Pid cfg} {l : Level cfg} (hz : (m.view t).ready p l = 0) :
    (m.set_ready p l (m.ready p l ++ [t])).view t = (m.view t).set_ready p l 1 := by
  rw [view_set_ready, List.count_append]
  have h0 : (m.ready p l).count t = 0 := hz
  simp [h0]

end Machine

/-! ### Recognising a view -/

variable {v : View cfg}

theorem Legit.of_cpu (h : Legit v) {c : Cpu cfg} {pc : Pc cfg} (hc : v.cpu c = some pc)
    (hne : pc ≠ .idle_resched) :
    ∃ st w, OwnerState pc st w ∧ v = (View.off true st w).set_cpu c (some pc) := by
  cases h with
  | cpu d pc' st w hst =>
    by_cases hcd : c = d
    · subst hcd
      simp only [View.set_cpu_cpu, Function.update_self, Option.some.injEq] at hc
      subst hc
      exact ⟨st, w, hst, rfl⟩
    · simp [hcd] at hc
  | leaving_idle d =>
    by_cases hcd : c = d
    · simp [hcd, Ne.symm hne] at hc
    · simp [hcd] at hc
  | leaving_spun d e =>
    by_cases hcd : c = d
    · simp [hcd, Ne.symm hne] at hc
    · simp [hcd] at hc
  | _ => simp at hc

theorem Legit.of_resched (h : Legit v) {c : Cpu cfg} (hc : v.cpu c = some .idle_resched) :
    v = ((View.off true .blocking false).set_cpu c (some .idle_resched)).set_idle 1 ∨
    ∃ d, v = ((View.off true .blocking false).set_cpu c (some .idle_resched)).set_spin d true := by
  cases h with
  | cpu d pc' st w hst =>
    by_cases hcd : c = d
    · subst hcd
      simp only [View.set_cpu_cpu, Function.update_self, Option.some.injEq] at hc
      subst hc
      exact absurd hst id
    · simp [hcd] at hc
  | leaving_idle d =>
    by_cases hcd : c = d
    · subst hcd; exact Or.inl rfl
    · simp [hcd] at hc
  | leaving_spun d e =>
    by_cases hcd : c = d
    · subst hcd; exact Or.inr ⟨e, rfl⟩
    · simp [hcd] at hc
  | _ => simp at hc

theorem Legit.of_ready (h : Legit v) {p : Pid cfg} {l : Level cfg} (hr : v.ready p l ≠ 0) :
    v = (View.off true .ready false).set_ready p l 1 := by
  cases h with
  | ready p' l' =>
    by_cases hp : p = p'
    · subst hp
      by_cases hl : l = l'
      · subst hl; rfl
      · simp [hl] at hr
    · simp [hp] at hr
  | _ => simp at hr

theorem Legit.of_idle (h : Legit v) (hi : v.idle ≠ 0) :
    v = (View.off true .blocked false).set_idle 1 ∨
    ∃ c, v = ((View.off true .blocking false).set_cpu c (some .idle_resched)).set_idle 1 := by
  cases h with
  | idle => exact Or.inl rfl
  | leaving_idle c => exact Or.inr ⟨c, rfl⟩
  | _ => simp at hi

theorem Legit.of_spin (h : Legit v) {d : Cpu cfg} (hd : v.spin d = true) :
    v = (View.off true .blocked false).set_spin d true ∨
    ∃ c, v = ((View.off true .blocking false).set_cpu c (some .idle_resched)).set_spin d true := by
  cases h with
  | spun e =>
    by_cases hde : d = e
    · subst hde; exact Or.inl rfl
    · simp [hde] at hd
  | leaving_spun c e =>
    by_cases hde : d = e
    · subst hde; exact Or.inr ⟨c, rfl⟩
    · simp [hde] at hd
  | _ => simp at hd

theorem Legit.of_waking (h : Legit v) (hw : v.waking ≠ 0) :
    v = (View.off true .ready false).set_waking 1 := by
  cases h with
  | waking => rfl
  | _ => simp at hw

theorem Legit.of_trapped (h : Legit v) {c : Cpu cfg} (hc : v.trapped c ≠ 0) :
    v = (View.off true .blocked false).set_trapped c 1 := by
  cases h with
  | trapped d =>
    by_cases hcd : c = d
    · subst hcd; rfl
    · simp [hcd] at hc
  | _ => simp at hc

theorem Legit.of_hand (h : Legit v) {g : TaskPtr} {stage : Stage} (hg : v.hand g = some stage) :
    ∃ st, HandState stage st ∧ v = (View.off true st false).set_hand g (some stage) := by
  cases h with
  | hand g' st stage' hst =>
    by_cases hgg : g = g'
    · subst hgg
      simp only [View.set_hand_hand, Function.update_self, Option.some.injEq] at hg
      subst hg
      exact ⟨st, hst, rfl⟩
    · simp [hgg] at hg
  | _ => simp at hg

theorem Legit.of_unknown (h : Legit v) (hk : v.known = false) : ∃ st, v = View.off false st false := by
  cases h with
  | fresh st => exact ⟨st, rfl⟩
  | _ => simp at hk

/-- A task with the flag `waits` has blocked itself, or is about to leave its CPU. -/
theorem Legit.of_waits (h : Legit v) (hw : v.waits = true) :
    v = View.off true .blocked true ∨ ∃ c, v = (View.off true .blocking true).set_cpu c (some .own) := by
  cases h with
  | parked => exact Or.inl rfl
  | cpu c pc st w hst =>
    obtain rfl : w = true := hw
    cases pc <;> simp [OwnerState] at hst
    subst hst
    exact Or.inr ⟨c, rfl⟩
  | _ => simp at hw

/-- A task that is somewhere, but in the hands of no handler. -/
def View.Free (v : View cfg) : Prop := (∀ st, v ≠ .off true st false) ∧ ∀ h, v.hand h = none

theorem Legit.free_of_cpu (h : Legit v) {c : Cpu cfg} {pc : Pc cfg} (hc : v.cpu c = some pc) : v.Free := by
  refine ⟨fun st hv => by simp [hv] at hc, fun g => ?_⟩
  cases h <;> first | rfl | simp at hc

theorem Legit.free_of_ready (h : Legit v) {p : Pid cfg} {l : Level cfg} (hr : v.ready p l ≠ 0) : v.Free := by
  rw [h.of_ready hr]
  exact ⟨fun st hv => by simpa using congrFun (congrFun (congrArg View.ready hv) p) l, fun _ => rfl⟩

theorem Legit.free_of_idle (h : Legit v) (hi : v.idle ≠ 0) : v.Free := by
  refine ⟨fun st hv => by simp [hv] at hi, fun g => ?_⟩
  rcases h.of_idle hi with rfl | ⟨c, rfl⟩ <;> rfl

theorem Legit.free_of_spin (h : Legit v) {d : Cpu cfg} (hd : v.spin d = true) : v.Free := by
  refine ⟨fun st hv => by simp [hv] at hd, fun g => ?_⟩
  rcases h.of_spin hd with rfl | ⟨c, rfl⟩ <;> rfl

theorem Legit.free_of_waking (h : Legit v) (hw : v.waking ≠ 0) : v.Free := by
  refine ⟨fun st hv => by simp [hv] at hw, fun g => ?_⟩
  rw [h.of_waking hw]
  rfl

theorem Legit.free_of_trapped (h : Legit v) {c : Cpu cfg} (hc : v.trapped c ≠ 0) : v.Free := by
  refine ⟨fun st hv => by simp [hv] at hc, fun g => ?_⟩
  rw [h.of_trapped hc]
  rfl

theorem Legit.free_of_unknown (h : Legit v) (hk : v.known = false) : v.Free := by
  obtain ⟨st, rfl⟩ := h.of_unknown hk
  exact ⟨fun st' hv => by simpa using congrArg View.known hv, fun _ => rfl⟩

theorem Legit.free_of_waits (h : Legit v) (hw : v.waits = true) : v.Free := by
  refine ⟨fun st hv => by simp [hv] at hw, fun g => ?_⟩
  rcases h.of_waits hw with rfl | ⟨c, rfl⟩ <;> rfl

end Vsched2
