import Vsched2.Ownership
import Mathlib.Data.Finset.Lattice.Fold
import Mathlib.Data.Fintype.Basic

/-! No CPU is ever stuck.

    A CPU that has not stopped always has a step. Inside the functions of the scheduler its steps bring
    it nearer to the head of the loop, to task code or to the wait for an interrupt, and the only step
    that does not is one of the busy wait in `get_idle_handler`, which one access of one other CPU
    ends. -/

namespace Vsched2

variable {cfg : Config}

namespace Machine

variable {m m' : Machine cfg} {a : Act cfg} {c d : Cpu cfg} {t h : TaskPtr}

/-! ### A step -/

/-- Only finitely many tasks exist. -/
def Finite (m : Machine cfg) : Prop := ∃ n, ∀ t, n ≤ t → m.known t = false

theorem Finite.update {n u : ℕ} {known : TaskPtr → Bool} (h : ∀ t, n ≤ t → known t = false) (b : Bool) :
    ∀ t, max n (u + 1) ≤ t → Function.update known u b t = false := by
  intro t ht
  have hu : u < t := (le_max_right n (u + 1)).trans ht
  rw [Function.update_of_ne hu.ne']
  exact h t ((le_max_left n (u + 1)).trans ht)

theorem step_finite (hF : Finite m) (hs : m.step a = some m') : Finite m' := by
  obtain ⟨n, hn⟩ := hF
  cases step_staging hs with
  | same hk _ => exact ⟨n, fun t ht => hk ▸ hn t ht⟩
  | arrive u _ _ _ hk _ | new_handler _ u _ _ _ _ hk _ => exact ⟨max n (u + 1), hk ▸ Finite.update hn true⟩
  | advance c st _ _ _ hm => exact ⟨n, fun t ht => by rw [hm, (handler_next_kept m c st).1]; exact hn t ht⟩

theorem next_enabled (hpc : (m.pc c).in_function = true) (hstage : m.pc c = .run → m.stage (m.current_task c) ≠ none) :
    (m.next c).isSome = true := by
  cases hat : m.pc c with
  | run =>
    obtain ⟨st, hst⟩ := Option.ne_none_iff_exists'.mp (hstage hat)
    simp [next, hat, hst]
  | sync_push | irq_push _ | push_prev | idle_handler _ | idle_push =>
    simp only [next, hat]
    split <;> rfl
  | popped t target => cases target <;> simp [next, hat]
  | own | sched _ | no_handler _ | wait_check | wait_irqs | panicked _ => simp [hat, Pc.in_function] at hpc
  | _ => simp [next, hat]

theorem enabled (hF : Finite m) (hno : ∀ why, m.pc c ≠ .panicked why) :
    ∃ a : Act cfg, a.cpu = some c ∧ (m.step a).isSome = true := by
  cases hpc : m.pc c with
  | run =>
    cases hst : m.stage (m.current_task c) with
    | none => exact ⟨.irq c, rfl, by simp [step, irq, in_code, hpc, hst]⟩
    | some st => exact ⟨.next c, rfl, next_enabled (by simp [hpc, Pc.in_function]) (by simp [hst])⟩
  | own => exact ⟨.leave c false, rfl, by simp [step, leave, hpc]⟩
  | sched b =>
    cases hk : m.in_kernel c with
    | true => exact ⟨.fail c .kernel, rfl, by simp [step, fail, hpc, hk]⟩
    | false => exact ⟨.into_kernel c .kernel, rfl, by simp [step, into_kernel, hpc, hk]⟩
  | no_handler pid =>
    obtain ⟨n, hn⟩ := hF
    refine ⟨.new_handler c n ⟨.blocked, cfg.highest_priority, false, true, .kernel⟩, rfl, ?_⟩
    simp only [step, new_handler, hpc, hn n le_rfl, and_self, if_true]
    split <;> rfl
  | wait_check => exact ⟨.check c true, rfl, by simp [step, check, hpc]⟩
  | wait_irqs => exact ⟨.wait_return c, rfl, by simp [step, wait_return, hpc]⟩
  | panicked why => exact absurd hpc (hno why)
  | _ => exact ⟨.next c, rfl, next_enabled (by simp [hpc, Pc.in_function]) (by simp [hpc])⟩

end Machine

/-! ### Between two rests -/

/-- How many steps a CPU takes at most until it is at the head of the loop, in task code, waits for an
    interrupt, or has stopped. -/
def Pc.distance : Pc cfg → ℕ
  | .run | .sched _ | .wait_irqs | .panicked _ => 0
  | .sync_push | .push_prev | .dealloc_prev | .run_task | .user_run_task | .wait_clear => 1
  | .own | .irq_state | .krun_utask | .idle_resched | .wait_check => 2
  | .irq_push _ | .popped _ _ | .idle_push | .wait_sleeping => 3
  | .set_pid _ _ | .wait_context => 4
  | .busy_wait _ _ | .no_handler _ => 5
  | .idle_handler _ => 6

theorem Pc.distance_le (pc : Pc cfg) : pc.distance ≤ 6 := by
  cases pc <;> simp [Pc.distance]

theorem Flow.distance_lt {pc pc' : Pc cfg} (h : Flow pc pc') (h₀ : pc.distance ≠ 0)
    (hne : ∀ h pid, pc = .busy_wait h pid → pc' ≠ .busy_wait h pid) : pc'.distance < pc.distance := by
  cases h with
  | leave h h' => rcases h with rfl | rfl | rfl <;> rcases h' with rfl | rfl | rfl <;> simp [Pc.distance] at *
  | pushed h => rcases h with rfl | rfl | rfl | rfl <;> simp [Pc.distance]
  | run h => rcases h with rfl | rfl <;> simp [Pc.distance]
  | spin h pid => exact absurd rfl (hne h pid rfl)
  | own | stay | pop_ready _ _ _ | take_trap _ _ | returned => simp [Pc.distance] at h₀
  | _ => simp [Pc.distance]

namespace Machine

variable {m m' : Machine cfg} {a : Act cfg} {c d : Cpu cfg} {t h : TaskPtr}

/-- The steps of CPU `c` are inside the functions of the scheduler, and none is one of a busy wait that
    goes on. -/
def Busy (c : Cpu cfg) (m : Machine cfg) (a : Act cfg) : Prop :=
  a.cpu = some c → (m.pc c).distance ≠ 0 ∧
    ∀ h pid, m.pc c = .busy_wait h pid → (m.tasks h).state = .blocked

theorem busy_wait_next {pid : Pid cfg} (hpc : m.pc c = .busy_wait h pid) (hs : m.next c = some m') :
    m'.pc c = if (m.tasks h).state = .blocked then .set_pid h pid else .busy_wait h pid := by
  simp only [next, hpc] at hs
  rw [← Option.some.inj hs]
  simp [set_pc]

/-- In a busy wait a CPU has no step but the next access. -/
theorem eq_next_of_busy_wait {pid : Pid cfg} (hpc : m.pc c = .busy_wait h pid) (hs : m.step a = some m')
    (ha : a.cpu = some c) : a = .next c :=
  eq_next hs ha (by simp [in_code, hpc]) (by simp [hpc, Pc.in_function])

theorem step_distance (ha : a.cpu = some c) (hB : Busy c m a) (hs : m.step a = some m') :
    (m'.pc c).distance < (m.pc c).distance := by
  obtain ⟨h₀, hspin⟩ := hB ha
  have hmove : Move m c (m'.loc c) := by
    rcases step_moves hs with ⟨d, hd, hmove, -⟩ | ⟨hnone, -⟩
    · obtain rfl := Option.some.inj (ha.symm.trans hd)
      exact hmove
    · simp [hnone] at ha
  have hgo : ∀ h pid, m.pc c = .busy_wait h pid → m'.pc c ≠ .busy_wait h pid := by
    intro h pid hpc
    obtain rfl := eq_next_of_busy_wait hpc hs ha
    rw [busy_wait_next hpc hs, if_pos (hspin h pid hpc)]
    simp
  generalize hl : m'.loc c = l at hmove
  have hpc' : m'.pc c = l.pc := congrArg Local.pc hl
  rw [hpc'] at hgo ⊢
  cases hmove with
  | flow hf => exact hf.distance_lt h₀ hgo
  | irq h => rcases h with h | h <;> simp [run_of_in_code, h, Pc.distance] at h₀
  | trap h _ => simp [run_of_in_code h, Pc.distance] at h₀
  | stop k h => exact Nat.pos_of_ne_zero h₀
  | idle_push h _ | into_kernel _ h _ | fail _ h _ => simp [h, Pc.distance] at h₀
  | take_idle g pid pc' h _ h' => rcases h' with rfl | rfl <;> simp [h, Pc.distance]
  | set_current u target pc' h h' => rcases h' with rfl | rfl <;> simp [h, Pc.distance]
  | krun_utask h => dsimp only; split <;> simp [h, Pc.distance]
  | wait_context h | wait_sleeping h | wait_clear h => simp [h, Pc.distance]

/-- The steps of a CPU are counted against its distance; the steps of others do not count. -/
theorem run_distance {acts : List (Act cfg)} (hB : Runs.Along step (Busy c) m acts)
    (hrun : Runs.run step m acts = some m') :
    acts.countP (fun a => a.cpu = some c) + (m'.pc c).distance ≤ (m.pc c).distance := by
  have h := Runs.along_counted (I := fun n s => n + (s.pc c).distance ≤ (m.pc c).distance)
    (p := fun a => decide (a.cpu = some c)) (fun n s a s' hn hb hs => ?_) acts (n := 0) (by simp) hB hrun
  · simpa using h
  · by_cases ha : a.cpu = some c
    · have hlt := step_distance ha hb hs
      simp only [ha, decide_true, if_true]
      omega
    · have hsame : s'.pc c = s.pc c := by
        by_contra hne
        exact ha (cpu_of_pc_ne hs hne)
      simpa [ha, hsame] using hn

/-! ### The busy wait -/

/-- CPU `c` waits for a handler that CPU `d` has put into the pool, and `d` has yet to leave it. -/
structure Leaving (c d : Cpu cfg) (h : TaskPtr) (pid : Pid cfg) (m : Machine cfg) : Prop where
  inv : Inv m
  waits : m.pc c = .busy_wait h pid
  leaves : m.pc d = .idle_resched
  current : m.current_task d = h

/-- The handler CPU `c` waits for is on no CPU any more. -/
structure Left (c : Cpu cfg) (h : TaskPtr) (pid : Pid cfg) (m : Machine cfg) : Prop where
  inv : Inv m
  waits : m.pc c = .busy_wait h pid
  state : (m.tasks h).state = .blocked

theorem spin_of_busy_wait {pid : Pid cfg} (hpc : m.pc c = .busy_wait h pid) : (m.view h).spin c = true := by
  simp [view, hpc, Pc.waits_for]

theorem busy_wait_cases {pid : Pid cfg} (hI : Inv m) (hpc : m.pc c = .busy_wait h pid) :
    Left c h pid m ∨ ∃ d, d ≠ c ∧ Leaving c d h pid m := by
  rcases (hI.legit h).of_spin (spin_of_busy_wait hpc) with hv | ⟨d, hv⟩
  · exact Or.inl ⟨hI, hpc, congrArg View.state hv⟩
  · right
    have hcpu : (m.view h).cpu d = some .idle_resched := by simp [hv]
    have ho : m.owner d = some h := by
      by_contra hno
      simp [view_cpu_of_ne hno] at hcpu
    have hd : m.pc d = .idle_resched := by
      rw [view_cpu_self ho] at hcpu
      exact Option.some.inj hcpu
    refine ⟨d, ?_, hI, hpc, hd, ?_⟩
    · rintro rfl
      simp [hpc] at hd
    · rw [owner, hd] at ho
      exact Option.some.inj ho

theorem Leaving.state {pid : Pid cfg} (hL : Leaving c d h pid m) : (m.tasks h).state = .blocking := by
  have ho : m.owner d = some h := by simp [owner, hL.leaves, Pc.owner, hL.current]
  rcases (hL.inv.legit h).of_resched (by rw [view_cpu_self ho, hL.leaves]) with hv | ⟨e, hv⟩ <;>
    exact congrArg View.state hv

theorem Leaving.step {pid : Pid cfg} (hL : Leaving c d h pid m) (hne : a ≠ .next d) (hs : m.step a = some m') :
    Leaving c d h pid m' where
  inv := step_inv hL.inv hs
  waits := by
    by_cases ha : a.cpu = some c
    · obtain rfl := eq_next_of_busy_wait hL.waits hs ha
      rw [busy_wait_next hL.waits hs, if_neg (by simp [hL.state])]
    · by_contra hpc
      exact ha (cpu_of_pc_ne hs (by rwa [hL.waits]))
  leaves := by
    by_contra hpc
    exact hne (eq_next hs (cpu_of_pc_ne hs (by rwa [hL.leaves])) (by simp [in_code, hL.leaves])
      (by simp [hL.leaves, Pc.in_function]))
  current := by
    rcases step_loc hs d with heq | ⟨ha, -⟩
    · exact (congrArg Local.current_task heq).trans hL.current
    · exact absurd (eq_next hs ha (by simp [in_code, hL.leaves]) (by simp [hL.leaves, Pc.in_function])) hne

/-- The next access of the other CPU makes the handler `Blocked`. -/
theorem Leaving.end {pid : Pid cfg} (hdc : d ≠ c) (hL : Leaving c d h pid m) (hs : m.step (.next d) = some m') :
    Left c h pid m' where
  inv := step_inv hL.inv hs
  waits := by
    by_contra hpc
    have ha := cpu_of_pc_ne hs (by rwa [hL.waits])
    exact hdc (Option.some.inj ha)
  state := by
    have hst := hL.state
    have hcur := hL.current
    subst hcur
    have hkeep : ((m.save_context (m.current_task d) false).tasks (m.current_task d)).state = .blocking :=
      (congrArg View.state (view_save_context false _)).trans hst
    simp only [Machine.step, next, hL.leaves, phase2,
      show (m.save_context (m.current_task d) false).current_task d = m.current_task d from rfl, hkeep] at hs
    rw [← Option.some.inj hs]
    simp [set_pc, set_state, TaskState.leave, TaskState.match_set]

theorem idle_resched_from (hs : m.step a = some m') (hpc' : m'.pc d = .idle_resched) :
    m'.owner d = m.owner d := by
  rcases step_loc hs d with heq | ⟨-, hmove⟩
  · exact congrArg (fun l : Local cfg => l.pc.owner l.current_task) heq
  · have ho : m'.owner d = (m'.loc d).pc.owner (m'.loc d).current_task := rfl
    change (m'.loc d).pc = _ at hpc'
    rw [ho]
    generalize m'.loc d = l at hmove hpc'
    cases hmove with
    | flow hf =>
      obtain rfl := hpc'
      generalize hat : m.pc d = pc at hf
      cases hf with
      | leave _ h' => simp at h'
      | idle_resched => rw [owner_of_pc hat]; rfl
    | set_current t target pc' _ h => rcases h with rfl | rfl <;> simp at hpc'
    | take_idle g pid pc' _ _ h => rcases h with rfl | rfl <;> simp at hpc'
    | krun_utask => split at hpc' <;> simp at hpc'
    | _ => simp at hpc'

theorem Left.step {pid : Pid cfg} (hL : Left c h pid m) (hne : a ≠ .next c) (hs : m.step a = some m') :
    Left c h pid m' := by
  have hpc' : m'.pc c = .busy_wait h pid := by
    by_contra hpc
    have ha := cpu_of_pc_ne hs (by rwa [hL.waits])
    exact hne (eq_next_of_busy_wait hL.waits hs ha)
  refine ((busy_wait_cases (step_inv hL.inv hs) hpc').resolve_right ?_)
  -- no CPU comes to leave the handler, since none is responsible for it
  rintro ⟨d, -, hL'⟩
  have ho : m.owner d = some h := by
    rw [← idle_resched_from hs hL'.leaves, owner, hL'.leaves, hL'.current]
    rfl
  have hcpu := view_cpu_self ho
  rcases (hL.inv.legit h).of_spin (spin_of_busy_wait hL.waits) with hv | ⟨e, hv⟩
  · simp [hv] at hcpu
  · exact absurd (hL.state.symm.trans (congrArg View.state hv)) (by simp)

end Machine

namespace Progress

open Machine

variable {m m' : Machine cfg} {c d : Cpu cfg}

theorem run_finite (b : Boot cfg) {acts : List (Act cfg)} (hrun : Runs.run step b.machine acts = some m) :
    Finite m := by
  refine Runs.run_invariant (fun _ _ _ hF hs => step_finite hF hs) acts ?_ hrun
  have hbound : ∀ f : Cpu cfg → TaskPtr, ∃ n : ℕ, ∀ c, f c < n := fun f =>
    ⟨Finset.univ.sup f + 1, fun c => Nat.lt_succ_of_le (Finset.le_sup (Finset.mem_univ c))⟩
  obtain ⟨n₁, h₁⟩ := hbound b.init_task
  obtain ⟨n₂, h₂⟩ := hbound b.wait_context
  obtain ⟨n₃, h₃⟩ := hbound b.handlers
  refine ⟨n₁ + n₂ + n₃, fun t ht => ?_⟩
  simp only [Boot.machine, decide_eq_false_iff_not]
  rintro ⟨c, rfl | rfl | rfl⟩
  · exact absurd (lt_of_lt_of_le (h₁ c) (show n₁ ≤ n₁ + n₂ + n₃ by omega)) (not_lt.mpr ht)
  · exact absurd (lt_of_lt_of_le (h₂ c) (show n₂ ≤ n₁ + n₂ + n₃ by omega)) (not_lt.mpr ht)
  · exact absurd (lt_of_lt_of_le (h₃ c) (show n₃ ≤ n₁ + n₂ + n₃ by omega)) (not_lt.mpr ht)

/-- The first CPU is about to leave its handler, which has found no trap. The second one is interrupted in
    its own handler and takes the next one out of the pool. -/
def take_leaving : List (Act duo) :=
  [.irq duo_first, .next duo_first, .next duo_first, .next duo_first, .take_trap duo_first] ++
  List.replicate 11 (.next duo_first) ++
  [.irq duo_second, .next duo_second, .next duo_second, .next duo_second, .take_trap duo_second] ++
  List.replicate 6 (.next duo_second) ++
  [.irq duo_second, .next duo_second, .next duo_second, .next duo_second, .take_trap duo_second, .next duo_second]

end Progress

end Vsched2
