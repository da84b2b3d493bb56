import Vsched2.Ownership

/-! What IS_SLEEPING says about a CPU.

    `wait_for_runnable_task` sets the flag and clears it when its second check finds a task;
    `trap_entry` clears it when the wait ends with an interrupt. When `wait_irqs` returns normally
    nobody does, so the next round of the loop runs with the flag set. As long as such a round finds
    no task and waits again, the flag is set exactly while the CPU waits. -/

namespace Vsched2

variable {cfg : Config}

/-- `wait_for_runnable_task`, and the head of the loop after `wait_irqs` has returned normally. -/
def Pc.waiting : Pc cfg → Bool
  | .sched true | .wait_context | .wait_sleeping | .wait_check | .wait_clear | .wait_irqs => true
  | _ => false

/-- The wait goes on, or ends with a second check that found a task; only from the head of the loop
    another way leads out of it. -/
theorem Flow.of_waiting {pc pc' : Pc cfg} (h : Flow pc pc') (hw : pc.waiting = true) :
    pc'.waiting = true ∨ pc = .sched true := by
  cases h with
  | leave h => rcases h with rfl | rfl | rfl <;> simp [Pc.waiting] at hw
  | pushed h => rcases h with rfl | rfl | rfl | rfl <;> simp [Pc.waiting] at hw
  | run h => rcases h with rfl | rfl <;> simp [Pc.waiting] at hw
  | pop_ready b t target => cases b <;> simp [Pc.waiting] at hw ⊢
  | take_trap b pid => cases b <;> simp [Pc.waiting] at hw ⊢
  | found | not_found | returned => exact Or.inl rfl
  | _ => simp [Pc.waiting] at hw

theorem Flow.to_returned {pc : Pc cfg} (h : Flow pc (.sched true)) : pc = .wait_irqs := by
  cases h with
  | leave _ h' => simp at h'
  | returned => rfl

/-- The wait is not entered by a step that leaves the flag alone, but for `fail`. -/
theorem Flow.to_waiting {pc pc' : Pc cfg} (h : Flow pc pc') (hw : pc'.waiting = true) :
    (pc = .wait_check ∨ pc = .wait_irqs) ∧ pc' ≠ .wait_context := by
  cases h with
  | leave _ h' => rcases h' with rfl | rfl | rfl <;> simp [Pc.waiting] at hw
  | pushed _ => simp [Pc.waiting] at hw
  | found | not_found => exact ⟨Or.inl rfl, by simp⟩
  | returned => exact ⟨Or.inr rfl, by simp⟩
  | _ => simp [Pc.waiting] at hw

namespace SleepFlag

open Machine

variable {m m' : Machine cfg} {c : Cpu cfg} {a : Act cfg}

/-- A round of the loop that begins after a normal return of `wait_irqs` finds no task. -/
def FindsNothing (m : Machine cfg) (a : Act cfg) : Prop :=
  ∀ c, a.cpu = some c → m.pc c = .sched true → ∃ p, a = .fail c p

instance (m : Machine cfg) (a : Act cfg) : Decidable (FindsNothing m a) :=
  inferInstanceAs (Decidable (∀ c, a.cpu = some c → m.pc c = .sched true → ∃ p, a = .fail c p))

/-- What holds of a CPU that waits, whatever it finds: CURRENT_TASK is the wait context, and after
    `wait_irqs` the flag is still set. -/
structure Waits (l : Local cfg) (wait_context : TaskPtr) : Prop where
  current : l.pc.waiting = true → l.pc ≠ .wait_context → l.current_task = wait_context
  kernel : l.pc.waiting = true → l.in_kernel = true
  returned : l.pc = .sched true → l.is_sleeping = true

theorem waits_of_not_waiting {l : Local cfg} {w : TaskPtr} (hw : l.pc.waiting = false) : Waits l w where
  current := fun h => by simp [hw] at h
  kernel := fun h => by simp [hw] at h
  returned := fun h => by simp [h, Pc.waiting] at hw

theorem not_waiting_of_cause {why : Panic} (h : Cause m c why) : (m.pc c).waiting = false := by
  cases h with
  | sleeping hc | trap_state hc => rw [run_of_in_code hc]; rfl
  | run_state hpc => rcases hpc with hpc | hpc <;> rw [hpc] <;> rfl
  | blocked hpc => rcases hpc with hpc | hpc | hpc <;> rw [hpc] <;> rfl
  | trap_full hpc => rcases hpc with hpc | ⟨b, hpc⟩ <;> rw [hpc] <;> rfl
  | irq_state hpc | push_prev hpc | pool_full hpc | idle_state hpc | new_state hpc => rw [hpc]; rfl
  | wake item t hpc => rw [hpc]; rfl
  | trapped_state item t hpc => rw [hpc]; rfl

theorem move_waits {l : Local cfg} (hW : Waits (m.loc c) (m.scheduler_wait_context c))
    (hasleep : m.pc c = .wait_irqs → m.is_sleeping c = true) (hm : Move m c l) :
    Waits l (m.scheduler_wait_context c) := by
  cases hm with
  | @flow pc' hf =>
    by_cases hw : pc'.waiting = true
    · obtain ⟨hpc, hne⟩ := hf.to_waiting hw
      have hold : (m.loc c).pc.waiting = true := by rcases hpc with h | h <;> simp [loc, h, Pc.waiting]
      have hne' : (m.loc c).pc ≠ .wait_context := by rcases hpc with h | h <;> simp [loc, h]
      refine ⟨fun _ _ => hW.current hold hne', fun _ => hW.kernel hold, fun h => ?_⟩
      obtain rfl : pc' = .sched true := h
      exact hasleep hf.to_returned
    · exact waits_of_not_waiting (by simpa using hw)
  | irq h => exact waits_of_not_waiting rfl
  | trap h hs => exact waits_of_not_waiting rfl
  | stop k h => exact waits_of_not_waiting rfl
  | idle_push hpc => exact waits_of_not_waiting rfl
  | take_idle g pid pc' hpc _ h => exact waits_of_not_waiting (by rcases h with rfl | rfl <;> rfl)
  | into_kernel b hpc hk => exact waits_of_not_waiting rfl
  | fail b hpc hk => exact ⟨fun _ h => absurd rfl h, fun _ => hk, by simp⟩
  | set_current t target pc' hpc h => exact waits_of_not_waiting (by rcases h with rfl | rfl <;> rfl)
  | krun_utask hpc => exact waits_of_not_waiting (by dsimp only; split <;> rfl)
  | wait_context hpc => exact ⟨fun _ _ => rfl, fun _ => hW.kernel (by simp [loc, hpc, Pc.waiting]), by simp⟩
  | wait_sleeping hpc =>
    have hold : (m.loc c).pc.waiting = true := by simp [loc, hpc, Pc.waiting]
    exact ⟨fun _ _ => hW.current hold (by simp [loc, hpc]), fun _ => hW.kernel hold, by simp⟩
  | wait_clear hpc => exact waits_of_not_waiting rfl

/-- Outside the wait the flag is clear. -/
def Awake (l : Local cfg) : Prop := l.pc.waiting = false → l.is_sleeping = false

/-- A move keeps the flag clear outside the wait, unless it leaves the wait by the head of the loop. -/
theorem move_awake {l : Local cfg} (hW : Waits (m.loc c) (m.scheduler_wait_context c)) (hA : Awake (m.loc c))
    (hround : m.pc c = .sched true → l.pc.waiting = true) (hm : Move m c l) : Awake l := by
  have hkeep : (m.loc c).pc.waiting = false → l.is_sleeping = (m.loc c).is_sleeping → Awake l :=
    fun hold hl _ => hl.trans (hA hold)
  cases hm with
  | @flow pc' hf =>
    by_cases hold : (m.loc c).pc.waiting = true
    · intro hw
      rcases hf.of_waiting hold with h | h
      · simp [h] at hw
      · simp [hround h] at hw
    · exact hkeep (by simpa using hold) rfl
  | irq h => exact fun _ => rfl
  | trap h hs => exact fun _ => hs
  | stop k h => exact hkeep (not_waiting_of_cause h) rfl
  | idle_push hpc => exact hkeep (by simp [loc, hpc, Pc.waiting]) rfl
  | take_idle g pid pc' hpc _ h => exact hkeep (by simp [loc, hpc, Pc.waiting]) rfl
  | into_kernel b hpc hk =>
    cases b with
    | true =>
      have h := hW.kernel (by simp [loc, hpc, Pc.waiting])
      simp [loc, hk] at h
    | false => exact hkeep (by simp [loc, hpc, Pc.waiting]) rfl
  | fail b hpc hk => exact fun h => by simp [Pc.waiting] at h
  | set_current t target pc' hpc h => exact hkeep (by simp [loc, hpc, Pc.waiting]) rfl
  | krun_utask hpc => exact hkeep (by simp [loc, hpc, Pc.waiting]) rfl
  | wait_context hpc => exact fun h => by simp [Pc.waiting] at h
  | wait_sleeping hpc => exact fun h => by simp [Pc.waiting] at h
  | wait_clear hpc => exact fun _ => rfl

/-! ### Steps -/

/-- What holds in every run. -/
structure Sound (m : Machine cfg) : Prop where
  inv : Inv m
  waits : ∀ c, Waits (m.loc c) (m.scheduler_wait_context c)
  nowhere : ∀ c, ∃ st, m.view (m.scheduler_wait_context c) = .off true st false

theorem step_sound (hS : Sound m) (hs : m.step a = some m') : Sound m' where
  inv := step_inv hS.inv hs
  waits := by
    intro d
    rw [step_wait_context hs]
    rcases step_loc hs d with heq | ⟨-, hmove⟩
    · rw [heq]
      exact hS.waits d
    · exact move_waits (hS.waits d) (fun h => hS.inv.asleep d (Or.inr h)) hmove
  nowhere := by
    intro c
    obtain ⟨st, hv⟩ := hS.nowhere c
    rw [step_wait_context hs]
    exact ⟨st, (step_follows hS.inv hs _).nowhere hv⟩

theorem boot_sound (b : Boot cfg) : Sound b.machine where
  inv := b.inv
  waits := fun c => waits_of_not_waiting rfl
  nowhere := by
    intro c
    have hk : b.machine.known (b.wait_context c) = true := by
      simp only [Boot.machine, decide_eq_true_eq]
      exact ⟨c, Or.inr (Or.inl rfl)⟩
    refine ⟨_, (b.view_of_ne (t := b.wait_context c) (fun d => b.init_ne_wait d c)
      (fun d => b.handler_ne_wait d c)).trans (by rw [hk])⟩

theorem fail_eq {p : Pid cfg} (hs : m.step (.fail c p) = some m') :
    m'.loc c = { m.loc c with pc := .wait_context } := by
  simp only [step, fail] at hs
  split at hs
  · split at hs
    · rw [← Option.some.inj hs, loc_set_pc]
      rfl
    · cases hs
  · cases hs

/-- A CPU that dispatches leaves the wait with the flag as it is. -/
theorem pop_ready_leaves {p : Pid cfg} {l : Level cfg} (hs : m.step (.pop_ready c p l) = some m') :
    (m'.pc c).waiting = false ∧ m'.is_sleeping c = m.is_sleeping c := by
  simp only [step, pop_ready] at hs
  split at hs
  · split at hs
    · split at hs
      all_goals
        rw [← Option.some.inj hs]
        exact ⟨by simp [set_pc, Pc.waiting], rfl⟩
    · split at hs
      · rw [← Option.some.inj hs]
        exact ⟨by simp [set_pc, Pc.waiting], rfl⟩
      · cases hs
  · cases hs

theorem take_trap_leaves (hs : m.step (.take_trap c) = some m') :
    (m'.pc c).waiting = false ∧ m'.is_sleeping c = m.is_sleeping c := by
  simp only [step, take_trap] at hs
  split at hs
  · split at hs
    · rw [← Option.some.inj hs]
      exact ⟨by simp [set_pc, Pc.waiting], rfl⟩
    · cases hs
  · cases hs

/-- The steps of a CPU at the head of the loop. -/
theorem step_at_head (hs : m.step a = some m') (ha : a.cpu = some c) {b : Bool} (hpc : m.pc c = .sched b) :
    (∃ p, a = .fail c p) ∨ (∃ p, a = .into_kernel c p) ∧ m.in_kernel c = false ∨
      (m'.pc c).waiting = false ∧ m'.is_sleeping c = m.is_sleeping c := by
  cases a <;> simp only [Act.cpu, Option.some.injEq, reduceCtorEq] at ha <;> subst ha
  case fail p => exact Or.inl ⟨p, rfl⟩
  case into_kernel p =>
    refine Or.inr (Or.inl ⟨⟨p, rfl⟩, ?_⟩)
    by_contra hk
    simp [step, into_kernel, hpc, hk] at hs
  case pop_ready => exact Or.inr (Or.inr (pop_ready_leaves hs))
  case take_trap => exact Or.inr (Or.inr (take_trap_leaves hs))
  all_goals
    simp [step, irq, trap, set_self, leave, poll_ready, new_handler, check, wait_return, handle_exits, next,
      in_code, hpc] at hs

/-- The flag is clear outside the wait on every CPU. -/
def AllAwake (m : Machine cfg) : Prop := ∀ c, Awake (m.loc c)

theorem step_awake_iff (hS : Sound m) (hA : AllAwake m) (hs : m.step a = some m') :
    AllAwake m' ↔ FindsNothing m a := by
  constructor
  · intro hA' c hc hpc
    rcases step_at_head hs hc hpc with h | ⟨-, hk⟩ | ⟨hw, hsl⟩
    · exact h
    · have h := (hS.waits c).kernel (by simp [loc, hpc, Pc.waiting])
      simp [loc, hk] at h
    · -- it left the wait with the flag set
      have hset : m.is_sleeping c = true := (hS.waits c).returned hpc
      have hoff : m'.is_sleeping c = false := hA' c hw
      simp [hsl, hset] at hoff
  · intro ha d
    rcases step_loc hs d with heq | ⟨hc, hmove⟩
    · rw [heq]
      exact hA d
    · refine move_awake (hS.waits d) (hA d) (fun hpc => ?_) hmove
      obtain ⟨p, rfl⟩ := ha d hc hpc
      rw [fail_eq hs]
      rfl

/-! ### Runs -/

/-- Where `trap_entry` can begin, the flag says whether it interrupts the wait context. -/
theorem Sound.flag_iff (hS : Sound m) (hA : AllAwake m) (hc : m.in_code c = true ∨ m.pc c = .wait_irqs) :
    m.is_sleeping c = true ↔ m.current_task c = m.scheduler_wait_context c := by
  rcases hc with hcode | hpc
  · have hpc := run_of_in_code hcode
    have hoff : m.is_sleeping c = false := hA c (by simp [loc, hpc, Pc.waiting])
    refine ⟨fun h => by simp [hoff] at h, fun hcur => ?_⟩
    -- the wait context is nowhere, so it is not what the CPU runs
    obtain ⟨st, hv⟩ := hS.nowhere c
    have hcpu := view_cpu_self (owner_of_run hpc)
    rw [hcur, hv] at hcpu
    simp at hcpu
  · have hw : (m.loc c).pc.waiting = true := by simp [loc, hpc, Pc.waiting]
    exact ⟨fun _ => (hS.waits c).current hw (by simp [loc, hpc]), fun _ => hS.inv.asleep c (Or.inr hpc)⟩

/-- The accesses of `trap_entry` after an interrupt in task code: the task becomes `Ready` and goes
    into its ready queue, unless the trap queue or the ready queue is full. -/
structure Requeues (m : Machine cfg) (c : Cpu cfg) : Prop where
  irq : ∀ m', m.in_code c = true → m.step (.irq c) = some m' →
    m'.pc c = .irq_push false ∧ m'.current_task c = m.current_task c
  pushed : ∀ m', m.pc c = .irq_push false → m.step (.next c) = some m' →
    (m'.pc c = .irq_state ∧ m'.current_task c = m.current_task c) ∨ m'.pc c = .panicked .trap_full
  ready : ∀ m', m.pc c = .irq_state → m.step (.next c) = some m' →
    m'.pc c = .push_prev ∧ m'.current_task c = m.current_task c ∧ (m'.tasks (m.current_task c)).state = .ready
  enqueued : ∀ m', m.pc c = .push_prev → m.step (.next c) = some m' →
    (∃ l, m.current_task c ∈ m'.ready (m.home (m.current_task c)) l) ∨ m'.pc c = .panicked .ready_full

theorem Sound.requeues (hS : Sound m) (hA : AllAwake m) (c : Cpu cfg) : Requeues m c where
  irq := by
    intro m' hcode hs
    have hoff : m.is_sleeping c = false := hA c (by simp [loc, run_of_in_code hcode, Pc.waiting])
    simp only [step, Machine.irq, hcode, if_true] at hs
    rw [← Option.some.inj hs, hoff]
    exact ⟨by simp [set_pc], rfl⟩
  pushed := by
    intro m' hpc hs
    simp only [step, next, hpc] at hs
    split at hs
    · rw [← Option.some.inj hs]
      exact Or.inr (by simp [set_pc])
    · rename_i m₁ hp
      obtain rfl := push_trap_eq_some hp
      rw [← Option.some.inj hs]
      exact Or.inl ⟨by simp [set_pc], rfl⟩
  ready := by
    intro m' hpc hs
    have hst := (hS.inv.state_at hpc rfl (by simp)).1
    simp only [step, next, hpc, hst, if_true] at hs
    rw [← Option.some.inj hs]
    exact ⟨by simp [set_pc], rfl, by simp [set_pc, set_state]⟩
  enqueued := by
    intro m' hpc hs
    simp only [step, next, hpc] at hs
    split at hs
    · rw [← Option.some.inj hs]
      exact Or.inr (by simp [set_pc])
    · rename_i m₁ hp
      obtain ⟨l, -, -, rfl⟩ := push_task_eq_some hp
      rw [← Option.some.inj hs]
      exact Or.inl ⟨l, by simp [set_pc, set_ready]⟩

/-! ### Runs -/

/-- No synchronous trap has found the flag set. -/
theorem not_panicked (b : Boot cfg) {acts : List (Act cfg)} (hrun : Runs.run step b.machine acts = some m)
    (halong : Runs.Along step FindsNothing b.machine acts) :
    Sound m ∧ AllAwake m ∧ ∀ c, m.pc c ≠ .panicked .sleeping := by
  have hstep : ∀ (s : Machine cfg) (a : Act cfg) (s' : Machine cfg),
      (Sound s ∧ AllAwake s ∧ ∀ c, s.pc c ≠ .panicked .sleeping) → FindsNothing s a → s.step a = some s' →
      Sound s' ∧ AllAwake s' ∧ ∀ c, s'.pc c ≠ .panicked .sleeping := by
    rintro s a s' ⟨hS, hA, hno⟩ ha hs
    refine ⟨step_sound hS hs, (step_awake_iff hS hA hs).mpr ha, fun c hc => ?_⟩
    rcases panic_cause hs hc with hc | hcause
    · exact hno c hc
    · cases hcause with
      | sleeping hcode h =>
        have hoff : s.is_sleeping c = false := hA c (by simp [loc, run_of_in_code hcode, Pc.waiting])
        simp [h] at hoff
  exact Runs.along_invariant hstep acts
    ⟨boot_sound b, fun c _ => rfl, fun c hc => by simp [Boot.machine] at hc⟩ halong hrun

/-- The flag is clear outside the wait in all states of a run if and only if every round of the loop
    that begins after a normal return of `wait_irqs` finds no task. Then at `trap_entry` the flag tells
    whether the wait context is interrupted, an interrupted task is put back into its ready queue, and
    no synchronous trap finds the flag set. -/
theorem sleep_flag_exact (b : Boot cfg) (acts : List (Act cfg)) (m : Machine cfg)
    (hrun : Runs.run step b.machine acts = some m) :
    (Runs.Visits step AllAwake b.machine acts ↔ Runs.Along step FindsNothing b.machine acts) ∧
    (Runs.Along step FindsNothing b.machine acts → ∀ c,
      (m.in_code c = true ∨ m.pc c = .wait_irqs →
        (m.is_sleeping c = true ↔ m.current_task c = m.scheduler_wait_context c)) ∧
      Requeues m c ∧ m.pc c ≠ .panicked .sleeping) := by
  constructor
  · exact Runs.visits_iff_along (fun _ _ _ hS hs => step_sound hS hs) (fun _ _ _ hS hA hs => step_awake_iff hS hA hs)
      acts (boot_sound b) (fun c _ => rfl)
  · intro halong c
    obtain ⟨hS, hA, hno⟩ := not_panicked b hrun halong
    exact ⟨hS.flag_iff hA, hS.requeues hA c, hno c⟩

/-- The init task of the first CPU blocks itself, and the CPU waits. -/
def fall_asleep : List (Act duo) :=
  [.set_self duo_first .blocking, .leave duo_first false, .fail duo_first .kernel, .next duo_first, .next duo_first,
    .check duo_first false]

/-- An interrupt ends the wait. -/
theorem sleep_flag_exact_irq : ∃ m : Machine duo,
    Runs.run step (Boot.plain duo).machine (fall_asleep ++ [.irq duo_first]) = some m ∧
    m.pc duo_first = .irq_push true ∧
    Runs.Visits step AllAwake (Boot.plain duo).machine (fall_asleep ++ [.irq duo_first]) ∧
    ∀ c, Requeues m c ∧ m.pc c ≠ .panicked .sleeping := by
  have hrun : ((Runs.run step (Boot.plain duo).machine (fall_asleep ++ [.irq duo_first])).map fun m =>
      m.pc duo_first) = some (.irq_push true) := by decide +kernel
  have halong : Runs.Along step FindsNothing (Boot.plain duo).machine (fall_asleep ++ [.irq duo_first]) := by
    decide +kernel
  obtain ⟨m, hm, hpc⟩ := Option.map_eq_some_iff.mp hrun
  obtain ⟨hiff, hafter⟩ := sleep_flag_exact (Boot.plain duo) (fall_asleep ++ [.irq duo_first]) m hm
  exact ⟨m, hm, hpc, hiff.mpr halong, fun c => (hafter halong c).2⟩

/-- `wait_irqs` returns normally, and the task woken meanwhile is dispatched. -/
def oversleep : List (Act duo) :=
  fall_asleep ++ [.wait_return duo_first, .wake 0, .wake_push 0, .pop_ready duo_first .kernel .top,
    .next duo_first, .next duo_first]

/-- The task runs with the flag set. A synchronous trap panics; an interrupt loses the task: the CPU
    goes on scheduling, and the task is in no queue and on no CPU. -/
theorem oversleep_loses_task : ∃ m : Machine duo,
    Runs.run step (Boot.plain duo).machine oversleep = some m ∧
    m.pc duo_first = .run ∧ m.is_sleeping duo_first = true ∧ m.current_task duo_first = 0 ∧
    m.scheduler_wait_context duo_first ≠ 0 ∧
    (m.step (.trap duo_first)).map (fun s => s.pc duo_first) = some (.panicked .sleeping) ∧
    (Runs.run step m [.irq duo_first, .next duo_first]).map
      (fun s => (s.pc duo_first, s.owner duo_first, s.ready .kernel .top)) = some (.sched false, none, []) := by
  have hrun : ((Runs.run step (Boot.plain duo).machine oversleep).map fun m =>
      decide (m.pc duo_first = .run ∧ m.is_sleeping duo_first = true ∧ m.current_task duo_first = 0 ∧
        m.scheduler_wait_context duo_first ≠ 0 ∧
        (m.step (.trap duo_first)).map (fun s => s.pc duo_first) = some (.panicked .sleeping) ∧
        (Runs.run step m [.irq duo_first, .next duo_first]).map
          (fun s => (s.pc duo_first, s.owner duo_first, s.ready .kernel .top)) = some (.sched false, none, []))) =
      some true := by decide +kernel
  obtain ⟨m, hm, h⟩ := Option.map_eq_some_iff.mp hrun
  exact ⟨m, hm, of_decide_eq_true h⟩

end SleepFlag

end Vsched2
