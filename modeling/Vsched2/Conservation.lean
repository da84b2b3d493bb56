import Vsched2.Handlers
import Vsched2.TrapHistory

/-! No task is lost.

    Every task that exists, except the wait contexts and those that have exited, is in exactly one
    place. Each kind of place is looked at once: the step that takes a task out of it puts the task
    somewhere else. The only other way out is an interrupt in task code that finds IS_SLEEPING set. -/

namespace Vsched2

variable {cfg : Config}

/-- Where a task can be: on a CPU, in a ready queue, with a waker, waiting for one, in the trap queue of
    a CPU, with the handler of its trap, in the pool of idle handlers, or awaited by a CPU. -/
inductive TaskPlace (cfg : Config) where
  | cpu (c : Cpu cfg)
  | ready (p : Pid cfg) (l : Level cfg)
  | waking
  | waiting
  | trapped (c : Cpu cfg)
  | hand (handler : TaskPtr)
  | idle
  | awaited (c : Cpu cfg)

namespace Machine

/-- A handler on its way out of a CPU is in the pool already, or awaited. -/
def At (m : Machine cfg) (t : TaskPtr) : TaskPlace cfg → Prop
  | .cpu c => m.owner c = some t ∧ m.pc c ≠ .idle_resched
  | .ready p l => t ∈ m.ready p l
  | .waking => t ∈ m.waking
  | .waiting => m.waits t = true ∧ (m.tasks t).state = .blocked
  | .trapped c => ∃ item ∈ m.traps c, item.task = some t
  | .hand h => ∃ st, m.stage h = some st ∧ st.holds = some t
  | .idle => t ∈ m.idle_handlers
  | .awaited c => (m.pc c).waits_for = some t

end Machine

/-! ### One place at most -/

namespace View

def At (v : View cfg) : TaskPlace cfg → Prop
  | .cpu c => ∃ pc, v.cpu c = some pc ∧ pc ≠ .idle_resched
  | .ready p l => v.ready p l ≠ 0
  | .waking => v.waking ≠ 0
  | .waiting => v.waits = true ∧ v.state = .blocked
  | .trapped c => v.trapped c ≠ 0
  | .hand h => ∃ st, v.hand h = some st
  | .idle => v.idle ≠ 0
  | .awaited c => v.spin c = true

end View

theorem Machine.at_iff {m : Machine cfg} {t : TaskPtr} {P : TaskPlace cfg} : m.At t P ↔ (m.view t).At P := by
  cases P with
  | cpu c =>
    by_cases ho : m.owner c = some t
    · simp [Machine.At, View.At, Machine.view_cpu_self ho, ho]
    · simp [Machine.At, View.At, Machine.view_cpu_of_ne ho, ho]
  | trapped c => simp [Machine.At, View.At, Machine.view, List.count_eq_zero]
  | hand h => simp [Machine.At, View.At, Machine.view, Option.filter_eq_some_iff]
  | awaited c => simp [Machine.At, View.At, Machine.view]
  | _ => simp [Machine.At, View.At, Machine.view, List.count_eq_zero]

theorem View.off_not_at {k : Bool} {st : TaskState} {P : TaskPlace cfg} : ¬ (View.off k st false : View cfg).At P := by
  cases P <;> simp [View.At]

/-- A legitimate view shows one place, or nothing at all. -/
theorem Legit.place {v : View cfg} (h : Legit v) : (∃! P, v.At P) ∨ ∃ k st, v = .off k st false := by
  have hone : ∀ P, v.At P → (∀ Q, v.At Q → Q = P) → (∃! P, v.At P) ∨ ∃ k st, v = .off k st false :=
    fun P hP hQ => Or.inl ⟨P, hP, hQ⟩
  cases h with
  | nowhere st | fresh st => exact Or.inr ⟨_, st, rfl⟩
  | parked => exact hone .waiting ⟨rfl, rfl⟩ fun Q hQ => by cases Q <;> simp_all [View.At]
  | ready p l =>
    refine hone (.ready p l) (by simp [View.At]) fun Q hQ => ?_
    cases Q with
    | ready q k =>
      by_cases hq : q = p
      · subst hq
        by_cases hk : k = l
        · rw [hk]
        · simp [View.At, hk] at hQ
      · simp [View.At, hq] at hQ
    | _ => simp [View.At] at hQ
  | waking => exact hone .waking (by simp [View.At]) fun Q hQ => by cases Q <;> simp_all [View.At]
  | trapped c =>
    refine hone (.trapped c) (by simp [View.At]) fun Q hQ => ?_
    cases Q with
    | trapped d =>
      by_cases hd : d = c
      · rw [hd]
      · simp [View.At, hd] at hQ
    | _ => simp [View.At] at hQ
  | hand g st stage hst =>
    refine hone (.hand g) ⟨stage, by simp⟩ fun Q hQ => ?_
    cases Q with
    | hand g' =>
      by_cases hg : g' = g
      · rw [hg]
      · simp [View.At, hg] at hQ
    | _ => simp [View.At] at hQ
  | cpu c pc st w hst =>
    have hne : pc ≠ .idle_resched := by
      rintro rfl
      exact hst
    refine hone (.cpu c) ⟨pc, by simp, hne⟩ fun Q hQ => ?_
    cases Q with
    | cpu d =>
      by_cases hd : d = c
      · rw [hd]
      · simp [View.At, hd] at hQ
    | waiting =>
      obtain ⟨hw, hst'⟩ : w = true ∧ st = .blocked := hQ
      subst hw hst'
      cases pc <;> simp [OwnerState] at hst
    | _ => simp [View.At] at hQ
  | leaving_idle c =>
    refine hone .idle (by simp [View.At]) fun Q hQ => ?_
    cases Q with
    | cpu d =>
      obtain ⟨pc, hpc, hne⟩ := hQ
      by_cases hd : d = c
      · subst hd
        simp [Ne.symm hne] at hpc
      · simp [hd] at hpc
    | idle => rfl
    | _ => simp [View.At] at hQ
  | leaving_spun c d =>
    refine hone (.awaited d) (by simp [View.At]) fun Q hQ => ?_
    cases Q with
    | cpu e =>
      obtain ⟨pc, hpc, hne⟩ := hQ
      by_cases he : e = c
      · subst he
        simp [Ne.symm hne] at hpc
      · simp [he] at hpc
    | awaited e =>
      by_cases he : e = d
      · rw [he]
      · simp [View.At, he] at hQ
    | _ => simp [View.At] at hQ
  | idle => exact hone .idle (by simp [View.At]) fun Q hQ => by cases Q <;> simp_all [View.At]
  | spun d =>
    refine hone (.awaited d) (by simp [View.At]) fun Q hQ => ?_
    cases Q with
    | awaited e =>
      by_cases he : e = d
      · rw [he]
      · simp [View.At, he] at hQ
    | _ => simp [View.At] at hQ

namespace Machine

variable {m m' : Machine cfg} {a : Act cfg} {c : Cpu cfg} {t : TaskPtr} {P : TaskPlace cfg}

theorem Inv.at_unique (hI : Inv m) (hP : m.At t P) : ∃! Q, m.At t Q := by
  simp only [at_iff] at hP ⊢
  refine (hI.legit t).place.resolve_right ?_
  rintro ⟨k, st, hv⟩
  rw [hv] at hP
  exact View.off_not_at hP

/-- A task that exists and is in no place has a view without any occurrence. -/
theorem Inv.nowhere_view (hI : Inv m) (hk : m.known t = true) (hno : ∀ P, ¬ m.At t P) :
    m.view t = .off true (m.tasks t).state false := by
  rcases (hI.legit t).place with ⟨P, hP, -⟩ | ⟨k, st, hv⟩
  · exact absurd (at_iff.mpr hP) (hno P)
  · obtain rfl : m.known t = k := congrArg View.known hv
    obtain rfl : (m.tasks t).state = st := congrArg View.state hv
    rw [hv, hk]

theorem not_at_of_view {s : TaskState} (hv : m.view t = .off true s false) (P : TaskPlace cfg) : ¬ m.At t P := by
  rw [at_iff, hv]
  exact View.off_not_at

/-- A task that has come to be nowhere stays nowhere. -/
theorem run_nowhere {acts : List (Act cfg)} (hI : Inv m) (hk : m.known t = true) (hno : ∀ P, ¬ m.At t P)
    (hrun : Runs.run step m acts = some m') (P : TaskPlace cfg) : ¬ m'.At t P := by
  have h := Runs.run_invariant (I := fun s => Inv s ∧ s.view t = .off true (m.tasks t).state false)
    (fun s a s' hs h => ⟨step_inv hs.1 h, (step_follows hs.1 h t).nowhere hs.2⟩) acts
    ⟨hI, hI.nowhere_view hk hno⟩ hrun
  exact not_at_of_view h.2 P

/-! ### What leaves a queue -/

/-- The steps that take a task out of a ready queue, from a waker, out of its wait, or out of the pool. -/
structure Keeps (m : Machine cfg) (a : Act cfg) (m' : Machine cfg) : Prop where
  ready : ∀ t p l, t ∈ m.ready p l → t ∈ m'.ready p l ∨ ∃ c target, m'.pc c = .popped t target
  waking : ∀ t ∈ m.waking, t ∈ m'.waking ∨ a = .wake_push t
  waits : ∀ t, m.waits t = true → (∀ c, m.owner c ≠ some t) → m'.waits t = true ∨ a = .wake t
  idle : ∀ t ∈ m.idle_handlers, t ∈ m'.idle_handlers ∨ ∃ c pid, m'.pc c = .set_pid t pid ∨ m'.pc c = .busy_wait t pid

theorem Keeps.of_le (hr : ∀ p l, m.ready p l ⊆ m'.ready p l) (hk : m'.waking = m.waking)
    (hw : ∀ t, (∀ c, m.owner c ≠ some t) → m'.waits t = m.waits t) (hi : m.idle_handlers ⊆ m'.idle_handlers) :
    Keeps m a m' where
  ready := fun _ p l h => Or.inl (hr p l h)
  waking := fun _ h => Or.inl (hk ▸ h)
  waits := fun t h ho => Or.inl ((hw t ho).trans h)
  idle := fun _ h => Or.inl (hi h)

theorem Keeps.same (hr : m'.ready = m.ready) (hk : m'.waking = m.waking) (hw : m'.waits = m.waits)
    (hi : m'.idle_handlers = m.idle_handlers) : Keeps m a m' :=
  Keeps.of_le (fun p l => by rw [hr]; exact List.Subset.refl _) hk (fun t _ => by rw [hw])
    (by rw [hi]; exact List.Subset.refl _)

/-- The task of a CPU sets its own flag. -/
theorem Keeps.own {w : Bool} (ho : m.owner c = some t) (hr : m'.ready = m.ready) (hk : m'.waking = m.waking)
    (hw : m'.waits = Function.update m.waits t w) (hi : m'.idle_handlers = m.idle_handlers) : Keeps m a m' :=
  Keeps.of_le (fun p l => by rw [hr]; exact List.Subset.refl _) hk
    (fun u hu => by
      rw [hw]
      exact Function.update_of_ne (by rintro rfl; exact hu c ho) _ _)
    (by rw [hi]; exact List.Subset.refl _)

theorem subset_push {p : Pid cfg} {l : Level cfg} (q : Pid cfg) (k : Level cfg) :
    m.ready q k ⊆ (m.set_ready p l (m.ready p l ++ [t])).ready q k := by
  intro u hu
  by_cases hq : q = p
  · subst hq
    by_cases hk : k = l
    · subst hk
      simp [set_ready, hu]
    · simpa [set_ready, hk] using hu
  · simpa [set_ready, hq] using hu

/-- A task is put into a ready queue. -/
theorem Keeps.push {p : Pid cfg} {l : Level cfg} (hr : m'.ready = (m.set_ready p l (m.ready p l ++ [t])).ready)
    (hk : m'.waking = m.waking) (hw : m'.waits = m.waits) (hi : m'.idle_handlers = m.idle_handlers) :
    Keeps m a m' :=
  Keeps.of_le (fun q k => by rw [hr]; exact subset_push q k) hk (fun t _ => by rw [hw])
    (by rw [hi]; exact List.Subset.refl _)

theorem phase2_keeps (b : Bool) (ho : m.owner c = some (m.current_task c)) :
    Keeps m a ((m.save_context (m.current_task c) b).phase2 c) := by
  simp only [phase2]
  split
  · exact .same rfl rfl rfl rfl
  · exact .own ho rfl rfl rfl rfl
  · exact .same rfl rfl rfl rfl
  · exact .same rfl rfl rfl rfl
  · exact .same rfl rfl rfl rfl

theorem handler_next_keeps (st : Stage) : Keeps m a (m.handler_next c st) := by
  cases st with
  | top =>
    simp only [handler_next]
    split <;> exact .same rfl rfl rfl rfl
  | handled item =>
    simp only [handler_next]
    split
    · exact .same rfl rfl rfl rfl
    · split <;> exact .same rfl rfl rfl rfl
  | wake item t =>
    simp only [handler_next]
    split
    · exact .same rfl rfl rfl rfl
    · rename_i m₁ hp
      obtain ⟨l, -, -, rfl⟩ := push_task_eq_some hp
      exact .push rfl rfl rfl rfl
  | _ => exact .same rfl rfl rfl rfl

theorem get_idle_handler_keeps {pid : Pid cfg} (hpc : m.pc c = .idle_handler pid) (hs : m.next c = some m') :
    Keeps m a m' := by
  have htake : ∀ {m₁ : Machine cfg} {g rest pc}, m.idle_handlers = g :: rest → m₁.ready = m.ready →
      m₁.waking = m.waking → m₁.waits = m.waits → m₁.idle_handlers = rest → 
      (pc = .set_pid g pid ∨ pc = .busy_wait g pid) → Keeps m a (m₁.set_pc c pc) := by
    intro m₁ g rest pc hidle hr hk hw hi hpc'
    refine ⟨fun _ _ _ h => Or.inl (hr ▸ h), fun _ h => Or.inl (hk ▸ h), fun _ h _ => Or.inl (hw ▸ h), fun t ht => ?_⟩
    rcases List.mem_cons.mp (hidle ▸ ht) with rfl | ht
    · exact Or.inr ⟨c, pid, hpc'.imp (by simp [set_pc, ·]) (by simp [set_pc, ·])⟩
    · exact Or.inl (hi ▸ ht)
  simp only [next, hpc, get_idle_handler] at hs
  cases hidle : m.idle_handlers with
  | nil =>
    simp only [hidle] at hs
    rw [← Option.some.inj hs]
    exact .same rfl rfl rfl hidle.symm
  | cons h rest =>
    simp only [hidle] at hs
    cases hst : (m.tasks h).state <;> simp only [hst] at hs <;> rw [← Option.some.inj hs]
    · exact .same rfl rfl rfl rfl
    · exact .same rfl rfl rfl rfl
    · exact htake hidle rfl rfl rfl rfl (Or.inl rfl)
    · exact .same rfl rfl rfl rfl
    · exact htake hidle rfl rfl rfl rfl (Or.inr rfl)

theorem next_keeps (hs : m.next c = some m') : Keeps m a m' := by
  cases hpc : m.pc c with
  | run =>
    simp only [next, hpc, Option.map_eq_some_iff] at hs
    obtain ⟨st, -, rfl⟩ := hs
    exact handler_next_keeps st
  | sync_push | irq_push _ =>
    simp only [next, hpc] at hs
    split at hs <;> rw [← Option.some.inj hs]
    · exact .same rfl rfl rfl rfl
    · rename_i m₁ hp
      obtain rfl := push_trap_eq_some hp
      exact .same rfl rfl rfl rfl
  | push_prev =>
    simp only [next, hpc] at hs
    split at hs <;> rw [← Option.some.inj hs]
    · exact .same rfl rfl rfl rfl
    · rename_i m₁ hp
      obtain ⟨l, -, -, rfl⟩ := push_task_eq_some hp
      exact .push rfl rfl rfl rfl
  | idle_handler pid => exact get_idle_handler_keeps hpc hs
  | idle_push =>
    simp only [next, hpc] at hs
    split at hs <;> rw [← Option.some.inj hs]
    · exact .of_le (fun _ _ => List.Subset.refl _) rfl (fun _ _ => rfl) (List.subset_append_left _ _)
    · exact .same rfl rfl rfl rfl
  | popped t target =>
    cases target <;> simp only [next, hpc] at hs <;> rw [← Option.some.inj hs] <;> exact .same rfl rfl rfl rfl
  | idle_resched =>
    simp only [next, hpc] at hs
    rw [← Option.some.inj hs]
    exact phase2_keeps false (owner_of_pc hpc)
  | own | sched _ | no_handler _ | wait_check | wait_irqs | panicked _ => simp [next, hpc] at hs
  | _ =>
    simp only [next, hpc] at hs
    rw [← Option.some.inj hs]
    exact .same rfl rfl rfl rfl

theorem pop_ready_keeps {p : Pid cfg} {l : Level cfg} (hs : m.pop_ready c p l = some m') : Keeps m a m' := by
  have hpop : ∀ {m₁ : Machine cfg} {t rest target}, m.ready p l = t :: rest →
      m₁.ready = (m.set_ready p l rest).ready → m₁.waking = m.waking → m₁.waits = m.waits →
      m₁.idle_handlers = m.idle_handlers → Keeps m a (m₁.set_pc c (.popped t target)) := by
    intro m₁ t rest target hq hr hk hw hi
    refine ⟨fun u q k hu => ?_, fun _ h => Or.inl (hk ▸ h), fun _ h _ => Or.inl (hw ▸ h), fun _ h => Or.inl (hi ▸ h)⟩
    by_cases hut : u = t
    · exact Or.inr ⟨c, target, by simp [set_pc, hut]⟩
    · left
      have hr' : (m₁.set_pc c (.popped t target)).ready = (m.set_ready p l rest).ready := hr
      rw [hr']
      by_cases hqp : q = p
      · subst hqp
        by_cases hkl : k = l
        · subst hkl
          simpa [set_ready, hq, hut] using hu
        · simpa [set_ready, hkl] using hu
      · simpa [set_ready, hqp] using hu
  simp only [pop_ready] at hs
  split at hs
  · rename_i hpc hq
    split at hs
    · split at hs <;> rw [← Option.some.inj hs] <;> exact hpop hq rfl rfl rfl rfl
    · split at hs
      · rw [← Option.some.inj hs]
        exact hpop hq rfl rfl rfl rfl
      · cases hs
  · cases hs

theorem wake_keeps (t : TaskPtr) : Keeps m (.wake t) (m.wake t) := by
  have hset : ∀ {m₁ : Machine cfg}, m₁.ready = m.ready → m.waking ⊆ m₁.waking →
      m₁.waits = Function.update m.waits t false → m₁.idle_handlers = m.idle_handlers → Keeps m (.wake t) m₁ := by
    intro m₁ hr hk hw hi
    refine ⟨fun u q k hu => Or.inl (hr ▸ hu), fun u hu => Or.inl (hk hu), fun u hu _ => ?_, fun _ h => Or.inl (hi ▸ h)⟩
    by_cases hut : u = t
    · exact Or.inr (by rw [hut])
    · rw [hw]
      exact Or.inl (by simpa [hut] using hu)
  simp only [wake]
  split
  · split
    · exact hset rfl (List.subset_append_left _ _) rfl rfl
    · exact hset rfl (List.Subset.refl _) rfl rfl
    · exact .same rfl rfl rfl rfl
  · exact .same rfl rfl rfl rfl

theorem step_keeps (hI : Inv m) (hs : m.step a = some m') : Keeps m a m' := by
  cases a with
  | irq c =>
    simp only [step, irq] at hs
    split at hs
    · rw [← Option.some.inj hs]
      exact .same rfl rfl rfl rfl
    · split at hs
      · rw [← Option.some.inj hs]
        exact .same rfl rfl rfl rfl
      · cases hs
  | trap c =>
    simp only [step, trap] at hs
    split at hs
    · split at hs <;> rw [← Option.some.inj hs] <;> exact .same rfl rfl rfl rfl
    · cases hs
  | set_self c st =>
    simp only [step, set_self] at hs
    split at hs
    · rename_i hc
      rw [← Option.some.inj hs]
      exact .own (owner_of_run (run_of_in_code hc.1)) rfl rfl rfl rfl
    · cases hs
  | leave c b =>
    simp only [step, leave] at hs
    split at hs
    · rename_i hc
      rw [← Option.some.inj hs]
      exact phase2_keeps b (hI.leave_state hc).1
    · cases hs
  | poll_ready c =>
    simp only [step, poll_ready] at hs
    split at hs
    · rename_i hc
      rw [← Option.some.inj hs]
      exact .own (hI.leave_state hc).1 rfl rfl rfl rfl
    · cases hs
  | arrive t task =>
    simp only [step, arrive] at hs
    split at hs
    · obtain ⟨m₁, hp, rfl⟩ := Option.map_eq_some_iff.mp hs
      obtain ⟨l, -, -, rfl⟩ := push_task_eq_some hp
      exact .push rfl rfl rfl rfl
    · cases hs
  | wake t =>
    rw [← Option.some.inj hs]
    exact wake_keeps t
  | wake_push t =>
    simp only [step, wake_push] at hs
    split at hs
    · obtain ⟨m₁, hp, rfl⟩ := Option.map_eq_some_iff.mp hs
      obtain ⟨l, -, -, rfl⟩ := push_task_eq_some hp
      refine ⟨fun u q k hu => Or.inl (subset_push q k hu), fun u hu => ?_, fun _ h _ => Or.inl h, fun _ h => Or.inl h⟩
      by_cases hut : u = t
      · exact Or.inr (by rw [hut])
      · exact Or.inl ((List.mem_erase_of_ne hut).mpr hu)
    · cases hs
  | pop_ready c p l => exact pop_ready_keeps hs
  | new_handler c h task =>
    simp only [step, new_handler] at hs
    split at hs
    · split at hs
      · split at hs <;> rw [← Option.some.inj hs] <;> exact .same rfl rfl rfl rfl
      · cases hs
    · cases hs
  | handle_exits c =>
    simp only [step, handle_exits] at hs
    split at hs
    · rw [← Option.some.inj hs]
      exact .same rfl rfl rfl rfl
    · cases hs
  | next c => exact next_keeps hs
  | take_trap c | into_kernel c p | fail c p =>
    simp only [step, take_trap, into_kernel, fail] at hs
    split at hs
    · split at hs
      all_goals first | (rw [← Option.some.inj hs]; exact .same rfl rfl rfl rfl) | cases hs
    · cases hs
  | check c b | wait_return c =>
    simp only [step, check, wait_return] at hs
    split at hs
    · rw [← Option.some.inj hs]
      exact .same rfl rfl rfl rfl
    · cases hs

/-! ### What leaves a CPU -/

/-- Out of task code, to the schedule loop or into the interrupt branch of `trap_entry`. -/
def left : Pc cfg → Bool
  | .sched _ | .irq_push _ => true
  | _ => false

theorem handler_next_left (hpc : m.pc c = .run) (st : Stage) : left ((m.handler_next c st).pc c) = false := by
  cases st with
  | top =>
    simp only [handler_next]
    split
    · simp [set_stage, emit, hpc, left]
    · simp [set_pc, left]
  | handled item =>
    simp only [handler_next]
    split
    · simp [set_stage, hpc, left]
    · split
      · simp [set_stage, set_state, hpc, left]
      · simp [set_stage, set_state, hpc, left]
      · simp [set_pc, left]
  | wake item t =>
    simp only [handler_next]
    split
    · simp [set_pc, left]
    · rename_i m₁ hp
      obtain ⟨l, -, -, rfl⟩ := push_task_eq_some hp
      simp [set_stage, emit, set_ready, hpc, left]
  | _ => simp [handler_next, set_stage, emit, set_vspace, hpc, left]

/-- Only `leave` and an interrupt lead there. -/
theorem left_cases (hs : m.step a = some m') (hpc : m.pc c = .run ∨ m.pc c = .own) (hl : left (m'.pc c) = true) :
    a = .irq c ∨ ∃ b b', a = .leave c b ∧ m'.pc c = .sched b' := by
  have ha : a.cpu = some c := cpu_of_pc_ne hs fun h => by
    rw [h] at hl
    rcases hpc with hpc | hpc <;> simp [hpc, left] at hl
  have hset : ∀ {m₁ : Machine cfg} {pc : Pc cfg}, some (m₁.set_pc c pc) = some m' → left pc = true := by
    intro m₁ pc h
    rw [← Option.some.inj h] at hl
    simpa [set_pc] using hl
  cases a <;> simp only [Act.cpu, Option.some.injEq, reduceCtorEq] at ha <;> subst ha
  case irq => exact Or.inl rfl
  case leave b =>
    simp only [step, leave, phase2] at hs
    repeat' split at hs
    all_goals first
      | simp only [reduceCtorEq] at hs
      | (have h := hset hs; simp only [left, Bool.false_eq_true] at h; done)
      | exact Or.inr ⟨b, false, rfl, by simp [← Option.some.inj hs, set_pc]⟩
  case next =>
    rcases hpc with hpc | hpc <;> simp only [step, next, hpc] at hs
    · obtain ⟨st, -, rfl⟩ := Option.map_eq_some_iff.mp hs
      simp [handler_next_left hpc st] at hl
    · cases hs
  case handle_exits =>
    simp only [step, handle_exits] at hs
    split at hs
    · rw [← Option.some.inj hs] at hl
      rcases hpc with hpc | hpc <;> simp [set_state, hpc, left] at hl
    · cases hs
  -- the others do not start in task code, or go elsewhere
  all_goals
    simp only [step, trap, set_self, poll_ready, pop_ready, take_trap, fail, into_kernel, new_handler, check,
      wait_return] at hs
    repeat' split at hs
    all_goals first
      | simp only [reduceCtorEq] at hs
      | (have h := hset hs; simp only [left, Bool.false_eq_true] at h; done)
      | (rcases hpc with hpc | hpc <;> simp_all)

theorem leave_waits {b b' : Bool} (hI : Inv m) (hs : m.leave c b' = some m') (hpc' : m'.pc c = .sched b) :
    m'.At (m.current_task c) .waiting := by
  simp only [leave] at hs
  split at hs
  · rename_i hc
    obtain ⟨-, -, hst⟩ := hI.leave_state hc
    have hkeep : ((m.save_context (m.current_task c) b').tasks (m.current_task c)).state =
        (m.tasks (m.current_task c)).state := congrArg View.state (view_save_context b' _)
    obtain rfl := Option.some.inj hs
    have hcur : (m.save_context (m.current_task c) b').current_task c = m.current_task c := rfl
    rcases hst with hst | ⟨hst, hw⟩ | ⟨hst | hst, hw⟩
    all_goals simp only [phase2, hcur, hkeep, hst] at hpc' ⊢
    · exact ⟨by simp [set_pc, set_wait], by simp [set_pc, set_wait, TaskState.leave, TaskState.match_set]⟩
    · exact ⟨hw, by simp [set_pc, set_state, TaskState.leave, TaskState.match_set]⟩
    · simp [set_pc] at hpc'
    · simp [set_pc] at hpc'
  · cases hs

/-- From task code straight to the schedule loop: the task waits for a waker. -/
theorem waits_of_sched {b : Bool} (hI : Inv m) (hs : m.step a = some m') (hpc : m.pc c = .run ∨ m.pc c = .own)
    (hpc' : m'.pc c = .sched b) : m'.At (m.current_task c) .waiting := by
  rcases left_cases hs hpc (by simp [hpc', left]) with rfl | ⟨b', -, rfl, -⟩
  · simp only [step, irq] at hs
    repeat' split at hs
    · simp [← Option.some.inj hs, set_pc] at hpc'
    · simp [← Option.some.inj hs, set_pc] at hpc'
    · cases hs
  · exact leave_waits hI hs hpc'

/-- Where the task of a CPU is after the CPU has given it up. -/
theorem next_gives_up (hI : Inv m) (hs : m.next c = some m')
    (hpc : m.pc c = .sync_push ∨ m.pc c = .push_prev ∨ m.pc c = .dealloc_prev ∨ m.pc c = .idle_push)
    (hno : ∀ why, m'.pc c ≠ .panicked why) :
    (∃ P, m'.At (m.current_task c) P) ∨ (m'.tasks (m.current_task c)).state = .exited := by
  rcases hpc with hpc | hpc | hpc | hpc <;> simp only [next, hpc] at hs
  · split at hs <;> obtain rfl := Option.some.inj hs
    · exact absurd (by simp [set_pc]) (hno .trap_full)
    · rename_i m₁ hp
      obtain rfl := push_trap_eq_some hp
      exact Or.inl ⟨.trapped c, ⟨m.next_info, some (m.current_task c)⟩, by simp [set_pc], rfl⟩
  · split at hs <;> obtain rfl := Option.some.inj hs
    · exact absurd (by simp [set_pc]) (hno .ready_full)
    · rename_i m₁ hp
      obtain ⟨l, -, -, rfl⟩ := push_task_eq_some hp
      exact Or.inl ⟨.ready (m.home (m.current_task c)) l, by simp [At, set_pc, set_ready]⟩
  · obtain rfl := Option.some.inj hs
    exact Or.inr (hI.state_at hpc rfl (by simp)).1
  · split at hs <;> obtain rfl := Option.some.inj hs
    · exact Or.inl ⟨.idle, by simp [At, set_pc]⟩
    · exact absurd (by simp [set_pc]) (hno .pool_full)

/-- An interrupt in task code finds IS_SLEEPING cleared. -/
def Awake (m : Machine cfg) (a : Act cfg) : Prop :=
  ∀ c, a = .irq c → m.in_code c = true → m.is_sleeping c = false

instance (m : Machine cfg) (a : Act cfg) : Decidable (Awake m a) :=
  inferInstanceAs (Decidable (∀ c, a = .irq c → m.in_code c = true → m.is_sleeping c = false))

theorem at_cpu_of_loc {l : Local cfg} (hl : m.loc c = l) (ho : l.pc.owner l.current_task = some t)
    (hne : l.pc ≠ .idle_resched) : ∃ P, m.At t P := by
  subst hl
  exact ⟨.cpu c, ho, hne⟩

theorem cpu_step (hI : Inv m) (ha : Awake m a) (hs : m.step a = some m') (hP : m.At t (.cpu c))
    (hno : ∀ why, m'.pc c ≠ .panicked why) : (∃ P, m'.At t P) ∨ (m'.tasks t).state = .exited := by
  obtain ⟨ho, hne⟩ := hP
  have hcpu : ∀ {l : Local cfg}, m'.loc c = l → l.pc.owner l.current_task = some t → l.pc ≠ .idle_resched →
      (∃ P, m'.At t P) ∨ (m'.tasks t).state = .exited := fun hl ho hne => Or.inl (at_cpu_of_loc hl ho hne)
  have hcur : ∀ {pc}, m.pc c = pc → pc.owner (m.current_task c) = some t := fun hpc => hpc ▸ ho
  rcases step_loc hs c with heq | ⟨hac, hmove⟩
  · exact hcpu heq ho hne
  have hgive : m.pc c = .sync_push ∨ m.pc c = .push_prev ∨ m.pc c = .dealloc_prev ∨ m.pc c = .idle_push →
      (∃ P, m'.At t P) ∨ (m'.tasks t).state = .exited := by
    intro hpc
    have hcode : m.in_code c = false := by rcases hpc with h | h | h | h <;> simp [in_code, h]
    obtain rfl : a = .next c :=
      eq_next hs hac hcode (by rcases hpc with h | h | h | h <;> simp [h, Pc.in_function])
    obtain rfl : m.current_task c = t := by
      rcases hpc with h | h | h | h <;> exact Option.some.inj (hcur h)
    exact next_gives_up hI hs hpc hno
  generalize hl : m'.loc c = l at hmove
  have hpc' : m'.pc c = l.pc := congrArg Local.pc hl
  cases hmove with
  | flow hf =>
    rename_i pc'
    generalize hpc : m.pc c = pc at hf
    have ho' := hcur hpc
    cases hf with
    | own | stay | irq_state | irq_push_prev | set_pid => exact hcpu hl ho' (by simp)
    | leave h h' =>
      rcases h with rfl | rfl | rfl
      · rcases h' with rfl | rfl | rfl
        · exact hcpu hl ho' (by simp)
        · exact hcpu hl ho' (by simp)
        · rw [← Option.some.inj ho']
          exact Or.inl ⟨_, waits_of_sched hI hs (Or.inl hpc) hpc'⟩
      · rcases h' with rfl | rfl | rfl
        · exact hcpu hl ho' (by simp)
        · exact hcpu hl ho' (by simp)
        · rw [← Option.some.inj ho']
          exact Or.inl ⟨_, waits_of_sched hI hs (Or.inr hpc) hpc'⟩
      · exact absurd hpc hne
    | idle_resched => exact hgive (by simp [hpc])
    | pushed h =>
      rcases h with rfl | rfl | rfl | rfl
      · exact hgive (by simp [hpc])
      · cases ho'
      · exact hgive (by simp [hpc])
      · exact hgive (by simp [hpc])
    | run h => rcases h with rfl | rfl <;> exact hcpu hl ho' (by simp)
    | _ => cases ho'
  | irq h =>
    have hcode : m.in_code c = true := by
      rcases h with h | h
      · exact h
      · cases hcur h
    have ho' := hcur (run_of_in_code hcode)
    rcases left_cases hs (Or.inl (run_of_in_code hcode)) (by simp [hpc', left]) with rfl | ⟨-, b, -, hb⟩
    · have hsl := ha c rfl hcode
      exact hcpu hl (by rw [hsl]; exact ho') (by simp)
    · simp [hpc'] at hb
  | trap h hsl =>
    have ho' := hcur (run_of_in_code h)
    exact hcpu hl ho' (by simp)
  | stop k h => exact absurd hpc' (hno _)
  | idle_push hpc h₀ =>
    have ho' := hcur hpc
    exact hcpu hl ho' (by simp)
  | take_idle g pid pc' hpc _ _ | into_kernel b hpc _ | fail b hpc _ => cases hcur hpc
  | set_current u target pc' hpc h =>
    obtain rfl := Option.some.inj (hcur hpc)
    rcases h with rfl | rfl <;> exact hcpu hl rfl (by simp)
  | krun_utask hpc =>
    have ho' := hcur hpc
    refine hcpu hl ?_ ?_ <;> dsimp only <;> split
    · exact ho'
    · exact ho'
    · simp
    · simp
  | wait_context hpc | wait_sleeping hpc | wait_clear hpc => cases hcur hpc

/-! ### What leaves the other places -/

theorem at_popped {target : Target} (hpc : m.pc c = .popped t target) : m.At t (.cpu c) :=
  ⟨by simp [owner, hpc, Pc.owner], by simp [hpc]⟩

theorem ready_step {p : Pid cfg} {l : Level cfg} (hI : Inv m) (hs : m.step a = some m') (hP : m.At t (.ready p l)) :
    ∃ P, m'.At t P := by
  rcases (step_keeps hI hs).ready t p l hP with h | ⟨c, target, hpc⟩
  · exact ⟨.ready p l, h⟩
  · exact ⟨.cpu c, at_popped hpc⟩

theorem waking_step (hI : Inv m) (hs : m.step a = some m') (hP : m.At t .waking) : ∃ P, m'.At t P := by
  rcases (step_keeps hI hs).waking t hP with h | rfl
  · exact ⟨.waking, h⟩
  · simp only [step, wake_push] at hs
    split at hs
    · obtain ⟨m₁, hp, rfl⟩ := Option.map_eq_some_iff.mp hs
      obtain ⟨l, -, -, rfl⟩ := push_task_eq_some hp
      exact ⟨.ready (m.home t) l, by simp [At, set_ready]⟩
    · cases hs

/-- A task with the flag `waits` waits, or is on a CPU that it is about to leave. -/
theorem Inv.at_of_waits (hI : Inv m) (hw : m.waits t = true) : ∃ P, m.At t P := by
  rcases (hI.legit t).of_waits hw with hv | ⟨c, hv⟩
  · exact ⟨.waiting, hw, congrArg View.state hv⟩
  · exact ⟨.cpu c, at_iff.mpr (by rw [hv]; exact ⟨.own, by simp, by simp⟩)⟩

theorem waiting_step (hI : Inv m) (hs : m.step a = some m') (hP : m.At t .waiting) : ∃ P, m'.At t P := by
  have hv : m.view t = .off true .blocked true := by
    rcases (hI.legit t).of_waits hP.1 with hv | ⟨c, hv⟩
    · exact hv
    · exact absurd (hP.2.symm.trans (congrArg View.state hv)) (by simp)
  have hno : ∀ c, m.owner c ≠ some t := by
    intro c ho
    simpa [hv] using view_cpu_self ho
  rcases (step_keeps hI hs).waits t hP.1 hno with h | rfl
  · exact (step_inv hI hs).at_of_waits h
  · simp only [step, wake, hP.1, hP.2, if_true] at hs
    rw [← Option.some.inj hs]
    exact ⟨.waking, by simp [At]⟩

theorem trapped_step (hI : Inv m) (hs : m.step a = some m') (hP : m.At t (.trapped c)) : ∃ P, m'.At t P := by
  obtain ⟨item, hmem, ht⟩ := hP
  cases step_trap_effect hI hs with
  | none htr _ _ _ | advance d st es st' _ _ _ htr _ _ _ _ => exact ⟨.trapped c, item, htr ▸ hmem, ht⟩
  | push d task htr _ _ _ _ =>
    refine ⟨.trapped c, item, ?_, ht⟩
    rw [htr]
    rcases eq_or_ne c d with rfl | hcd
    · simp [hmem]
    · simpa [hcd] using hmem
  | pop d item' rest _ _ hq htr _ _ hst =>
    rcases eq_or_ne c d with rfl | hcd
    · rcases List.mem_cons.mp (hq ▸ hmem) with rfl | hmem
      · exact ⟨.hand (m.current_task c), .taken item, by rw [hst]; simp, ht⟩
      · exact ⟨.trapped c, item, by rw [htr]; simpa using hmem, ht⟩
    · exact ⟨.trapped c, item, by rw [htr]; simpa [hcd] using hmem, ht⟩

theorem hand_step {h : TaskPtr} (hI : Inv m) (hs : m.step a = some m') (hP : m.At t (.hand h))
    (hno : ∀ c why, m'.pc c ≠ .panicked why) : (∃ P, m'.At t P) ∨ (m'.tasks t).state = .exited := by
  obtain ⟨st, h₀, ht⟩ := hP
  have hkeep : m'.stage h = some st → (∃ P, m'.At t P) ∨ (m'.tasks t).state = .exited :=
    fun hst => Or.inl ⟨.hand h, st, hst, ht⟩
  cases step_trap_effect hI hs with
  | none _ _ _ hst =>
    exact hkeep ((hst h st (by rintro rfl; simp [Stage.holds] at ht)).mpr h₀)
  | push c task _ _ _ hst _ => exact hkeep (hst ▸ h₀)
  | pop c item rest _ htop _ _ _ _ hst =>
    refine hkeep ?_
    rw [hst, Function.update_of_ne, h₀]
    rintro rfl
    rw [htop] at h₀
    simp [← Option.some.inj h₀, Stage.holds] at ht
  | advance c st₁ es st' _ h₁ hm _ _ _ hst hadv =>
    by_cases hh : h = m.current_task c
    · subst hh
      obtain rfl := Option.some.inj (h₁.symm.trans h₀)
      have hand : st'.holds = some t → (∃ P, m'.At t P) ∨ (m'.tasks t).state = .exited :=
        fun h => Or.inl ⟨.hand (m.current_task c), st', by rw [hst]; simp, h⟩
      cases hadv with
      | handle item | returned item => exact hand ht
      | no_task item hitem => simp [Stage.holds, hitem] at ht
      | blocked item u hitem _ | exited item u hitem _ => exact hand (hitem.symm.trans ht)
      | push_task item u =>
        obtain rfl : u = t := Option.some.inj ht
        simp only [handler_next] at hm
        split at hm
        · exact absurd (by simp [hm, set_pc]) (hno c .ready_full)
        · rename_i m₁ hp
          obtain ⟨l, -, -, rfl⟩ := push_task_eq_some hp
          exact Or.inl ⟨.ready (m.home u) l, by simp [hm, At, set_stage, emit, set_ready]⟩
      | dealloc_task item u =>
        obtain rfl : u = t := Option.some.inj ht
        rw [hm]
        exact Or.inr (hI.hand_view h₀ rfl).1
      | dealloc item => cases ht
    · exact hkeep (by rw [hst, Function.update_of_ne hh, h₀])

theorem waits_for_eq {pc : Pc cfg} (h : pc.waits_for = some t) : ∃ pid, pc = .busy_wait t pid := by
  cases pc with
  | busy_wait g pid => exact ⟨pid, by rw [Option.some.inj h]⟩
  | _ => cases h

theorem awaited_step (hs : m.step a = some m') (hP : m.At t (.awaited c))
    (hno : ∀ why, m'.pc c ≠ .panicked why) : ∃ P, m'.At t P := by
  obtain ⟨pid, hpc⟩ := waits_for_eq hP
  rcases step_loc hs c with heq | ⟨-, hmove⟩
  · refine ⟨.awaited c, ?_⟩
    change (m'.loc c).pc.waits_for = some t
    rw [heq]
    exact hP
  · generalize hl : m'.loc c = l at hmove
    have hpc' : m'.pc c = l.pc := congrArg Local.pc hl
    cases hmove with
    | flow hf =>
      rw [hpc] at hf
      cases hf with
      | leave h _ | pushed h | run h => simp at h
      | spin => exact ⟨.awaited c, by simp [At, hpc', Pc.waits_for]⟩
      | spun => exact ⟨.cpu c, by simp [At, owner, hpc', Pc.owner]⟩
    | stop k h => exact absurd hpc' (hno _)
    | irq h => rcases h with h | h <;> simp [in_code, hpc] at h
    | trap h _ => simp [in_code, hpc] at h
    | idle_push h | take_idle _ _ _ h | into_kernel _ h | fail _ h | set_current _ _ _ h | krun_utask h
    | wait_context h | wait_sleeping h | wait_clear h => simp [hpc] at h

theorem idle_step (hI : Inv m) (hs : m.step a = some m') (hP : m.At t .idle) : ∃ P, m'.At t P := by
  rcases (step_keeps hI hs).idle t hP with h | ⟨c, pid, hpc | hpc⟩
  · exact ⟨.idle, h⟩
  · exact ⟨.cpu c, by simp [At, owner, hpc, Pc.owner]⟩
  · exact ⟨.awaited c, by simp [At, hpc, Pc.waits_for]⟩

theorem at_step (hI : Inv m) (ha : Awake m a) (hs : m.step a = some m') (hP : m.At t P)
    (hno : ∀ c why, m'.pc c ≠ .panicked why) : (∃ Q, m'.At t Q) ∨ (m'.tasks t).state = .exited := by
  cases P with
  | cpu c => exact cpu_step hI ha hs hP (hno c)
  | ready p l => exact Or.inl (ready_step hI hs hP)
  | waking => exact Or.inl (waking_step hI hs hP)
  | waiting => exact Or.inl (waiting_step hI hs hP)
  | trapped c => exact Or.inl (trapped_step hI hs hP)
  | hand h => exact hand_step hI hs hP hno
  | idle => exact Or.inl (idle_step hI hs hP)
  | awaited c => exact Or.inl (awaited_step hs hP (hno c))

/-- A new task is in a ready queue, a new handler in the hands of the CPU that has asked for it. -/
theorem at_of_new (hs : m.step a = some m') (hk : m.known t = false) (hk' : m'.known t = true)
    (hno : ∀ c why, m'.pc c ≠ .panicked why) : ∃ P, m'.At t P := by
  cases step_staging hs with
  | same hkn _ => simp [hkn, hk] at hk'
  | advance c st _ _ _ hm => simp [hm, (handler_next_kept m c st).1, hk] at hk'
  | arrive u task ha _ hkn _ =>
    have htu : t = u := by
      by_contra hne
      simp [hkn, hne, hk] at hk'
    subst ha htu
    simp only [step, arrive] at hs
    split at hs
    · obtain ⟨m₁, hp, rfl⟩ := Option.map_eq_some_iff.mp hs
      obtain ⟨l, -, -, rfl⟩ := push_task_eq_some hp
      exact ⟨.ready ((m.create t task none).home t) l, by simp [At, set_ready]⟩
    · cases hs
  | new_handler c u task ha _ _ hkn _ =>
    have htu : t = u := by
      by_contra hne
      simp [hkn, hne, hk] at hk'
    subst ha htu
    simp only [step, new_handler] at hs
    repeat' split at hs
    · exact absurd (by simp [← Option.some.inj hs, set_pc]) (hno c .new_state)
    · exact ⟨.cpu c, by simp [← Option.some.inj hs, At, owner, set_pc, Pc.owner]⟩
    · cases hs
    · cases hs

/-! ### Runs -/

/-- Every task that exists is somewhere, but for the wait contexts and the tasks that have exited. -/
def Accounted (m : Machine cfg) : Prop :=
  ∀ t, m.known t = true → (∀ c, t ≠ m.scheduler_wait_context c) → (∃ P, m.At t P) ∨ (m.tasks t).state = .exited

/-- A CPU that has stopped does nothing any more. -/
theorem panicked_stays {why : Panic} (hs : m.step a = some m') (hpc : m.pc c = .panicked why) :
    m'.pc c = .panicked why := by
  rcases step_loc hs c with heq | ⟨-, hmove⟩
  · exact (congrArg Local.pc heq).trans hpc
  · generalize m'.loc c = l at hmove
    cases hmove with
    | flow hf =>
      rw [hpc] at hf
      cases hf with
      | leave h _ | pushed h | run h => simp at h
    | irq h => rcases h with h | h <;> simp [in_code, hpc] at h
    | trap h _ => simp [in_code, hpc] at h
    | stop k h => cases h <;> simp_all [in_code]
    | idle_push h | take_idle _ _ _ h | into_kernel _ h | fail _ h | set_current _ _ _ h | krun_utask h
    | wait_context h | wait_sleeping h | wait_clear h => simp [hpc] at h

theorem step_accounted (hI : Inv m) (hA : (∃ c why, m.pc c = .panicked why) ∨ Accounted m) (ha : Awake m a)
    (hs : m.step a = some m') : (∃ c why, m'.pc c = .panicked why) ∨ Accounted m' := by
  rcases hA with ⟨c, why, hpc⟩ | hA
  · exact Or.inl ⟨c, why, panicked_stays hs hpc⟩
  by_cases hno : ∃ c why, m'.pc c = .panicked why
  · exact Or.inl hno
  have hno' : ∀ c why, m'.pc c ≠ .panicked why := fun c why hpc => hno ⟨c, why, hpc⟩
  refine Or.inr fun t hk' hw => ?_
  rw [step_wait_context hs] at hw
  cases hk : m.known t with
  | false => exact Or.inl (at_of_new hs hk hk' hno')
  | true =>
    by_cases hP : ∃ P, m.At t P
    · obtain ⟨P, hP⟩ := hP
      exact at_step hI ha hs hP hno'
    · have hst := (hA t hk hw).resolve_left hP
      have hv := hI.nowhere_view hk (not_exists.mp hP)
      exact Or.inr ((congrArg View.state ((step_follows hI hs t).nowhere hv)).trans hst)

end Machine

namespace Boot

theorem accounted (b : Boot cfg) : Machine.Accounted b.machine := by
  intro t hk hw
  obtain ⟨c, hc⟩ := of_decide_eq_true hk
  rcases hc with rfl | rfl | rfl
  · exact Or.inl ⟨.cpu c, rfl, by simp [machine]⟩
  · exact absurd rfl (hw c)
  · exact Or.inl ⟨.idle, List.mem_map_of_mem (List.mem_finRange c)⟩

theorem wait_context_nowhere (b : Boot cfg) (c : Cpu cfg) (P : TaskPlace cfg) :
    ¬ b.machine.At (b.wait_context c) P := by
  have hk : b.machine.known (b.wait_context c) = true := by
    simp only [machine, decide_eq_true_eq]
    exact ⟨c, Or.inr (Or.inl rfl)⟩
  have hv := b.view_of_ne (fun d => b.init_ne_wait d c) (fun d => b.handler_ne_wait d c)
  rw [hk] at hv
  exact Machine.not_at_of_view hv P

end Boot

namespace Conservation

open Machine

variable {m m' : Machine cfg} {c : Cpu cfg}

theorem run_wait_context (b : Boot cfg) {acts : List (Act cfg)} (hrun : Runs.run step b.machine acts = some m) :
    m.scheduler_wait_context = b.wait_context :=
  Runs.run_invariant (I := fun s => s.scheduler_wait_context = b.wait_context)
    (fun _ _ _ h hs => (step_wait_context hs).trans h) acts rfl hrun

/-- An interrupt in task code that finds IS_SLEEPING set drops the task of the CPU. -/
theorem irq_drops (hI : Inv m) (hcode : m.in_code c = true) (hsl : m.is_sleeping c = true)
    (hs : m.step (.irq c) = some m') (P : TaskPlace cfg) : ¬ m'.At (m.current_task c) P := by
  have hpc := run_of_in_code hcode
  obtain ⟨⟨-, hw⟩, hv⟩ := hI.view_at hpc rfl (by simp)
  simp only [step, irq, hcode, if_true, hsl] at hs
  refine not_at_of_view (s := (m.tasks (m.current_task c)).state) ?_ P
  rw [← Option.some.inj hs, view_set_pc, if_neg (by simp [Pc.owner])]
  simp only [view_set_sleeping, view_set_in_kernel, view_save_context, hv, hw, View.set_cpu_set_cpu]
  rw [View.set_cpu_eq_self (by rfl)]
  exact View.set_spin_eq_self (by simp [Pc.waits_for])

end Conservation

end Vsched2
