import Vsched2.Ownership

/-! Trap handlers: what is in the pool, and what `take_task` has in its hands, is a trap handler, and
    trap handlers are kernel tasks. -/

namespace Vsched2

variable {cfg : Config}

/-- The handler a CPU has in its hands inside `take_task`. -/
def Pc.carries : Pc cfg → Option TaskPtr
  | .busy_wait h _ | .set_pid h _ => some h
  | _ => none

theorem Flow.to_carries {pc pc' : Pc cfg} {h : TaskPtr} (hf : Flow pc pc') (hc : pc'.carries = some h) :
    pc.carries = some h ∨ ∃ pid, pc = .no_handler pid := by
  cases hf with
  | leave _ h' => rcases h' with rfl | rfl | rfl <;> simp [Pc.carries] at hc
  | spin | spun => exact Or.inl hc
  | new_handler g pid => exact Or.inr ⟨pid, rfl⟩
  | _ => simp [Pc.carries] at hc

theorem Flow.not_to_idle_push {pc : Pc cfg} (h : Flow pc .idle_push) : False := by
  cases h with
  | leave _ h' => simp at h'

namespace Machine

variable {m m' : Machine cfg} {a : Act cfg} {c : Cpu cfg} {t h : TaskPtr}

structure Staffed (m : Machine cfg) : Prop where
  kernel : ∀ h, m.stage h ≠ none → (m.tasks h).is_kernel = true
  idle : ∀ h ∈ m.idle_handlers, m.stage h ≠ none
  carried : ∀ c h, (m.pc c).carries = some h → m.stage h ≠ none
  pushing : ∀ c, m.pc c = .idle_push → m.stage (m.current_task c) ≠ none

theorem step_known (hs : m.step a = some m') (hk : m.known t = true) : m'.known t = true := by
  cases step_staging hs with
  | same hk' _ => rw [hk', hk]
  | arrive u task _ _ hk' _ | new_handler _ u task _ _ _ hk' _ =>
    rw [hk']
    rcases eq_or_ne t u with rfl | hne <;> simp [*]
  | advance c st _ _ _ hm => rw [hm, (handler_next_kept m c st).1, hk]

/-- A task that exists is a handler from its creation on, or never. -/
theorem step_stage_eq_none (hs : m.step a = some m') (hknown : m.known h = true) :
    m'.stage h = none ↔ m.stage h = none := by
  cases step_staging hs with
  | same _ hst => rw [hst]
  | arrive u task _ hnew _ hst | new_handler _ u task _ hnew _ _ hst =>
    have hne : h ≠ u := by
      rintro rfl
      simp [hknown] at hnew
    rw [hst, Function.update_of_ne hne]
  | advance c st _ _ h₀ hm =>
    rw [hm]
    by_cases hst : m.stage h = none
    · have hne : h ≠ m.current_task c := by
        rintro rfl
        simp [h₀] at hst
      rw [handler_next_stage_of_ne st hne]
    · exact iff_of_false (handler_next_stage_isSome st hst) hst

/-- Once a handler, always a handler. -/
theorem step_stage_isSome (hI : Inv m) (hs : m.step a = some m') (hst : m.stage h ≠ none) : m'.stage h ≠ none :=
  mt (step_stage_eq_none hs (hI.staged h hst)).mp hst

/-- The lasting data of a task: a task that is no handler stays in its process. -/
structure SameData (m m' : Machine cfg) (t : TaskPtr) : Prop where
  priority : (m'.tasks t).priority = (m.tasks t).priority
  is_kernel : (m'.tasks t).is_kernel = (m.tasks t).is_kernel
  pid : m.stage t = none → (m'.tasks t).pid = (m.tasks t).pid

theorem step_data (hS : Staffed m) (hs : m.step a = some m') (hk : m.known t = true) : SameData m m' t := by
  obtain ⟨hprio, hker, hpid⟩ := step_task_data hs hk
  refine ⟨hprio, hker, fun hst => ?_⟩
  rcases hpid with hpid | ⟨c, pid, hpc⟩ | ⟨c, st, -, h₀, -⟩
  · exact hpid
  · exact absurd hst (hS.carried c t (by simp [hpc, Pc.carries]))
  · simp [hst] at h₀

/-- Only `TrapInfo::new_handler` makes a handler, and it makes a kernel task. -/
theorem step_new_stage (hs : m.step a = some m') (hno : m.stage h = none) (hst : m'.stage h ≠ none) :
    (∃ c task, a = .new_handler c h task) ∧ (m'.tasks h).is_kernel = true := by
  cases step_staging hs with
  | same _ hst' => exact absurd (hst' ▸ hno) hst
  | arrive t task _ _ _ hst' =>
    rw [hst'] at hst
    rcases eq_or_ne h t with rfl | hne
    · simp at hst
    · simp [hne, hno] at hst
  | new_handler c g task ha _ hker _ hst' =>
    rw [hst'] at hst
    rcases eq_or_ne h g with rfl | hne
    · exact ⟨⟨c, task, ha⟩, hker⟩
    · simp [hne, hno] at hst
  | advance c st _ _ h₀ hm =>
    have hne : h ≠ m.current_task c := by
      rintro rfl
      simp [h₀] at hno
    rw [hm, handler_next_stage_of_ne st hne] at hst
    exact absurd hno hst

/-- What enters the pool comes from a CPU that stands before `push_back`. -/
theorem step_idle (hs : m.step a = some m') (hmem : h ∈ m'.idle_handlers) :
    h ∈ m.idle_handlers ∨ ∃ c, m.pc c = .idle_push ∧ h = m.current_task c := by
  cases step_effect hs with
  | enqueue t m₁ _ hp hq =>
    obtain ⟨l, -, -, rfl⟩ := push_task_eq_some hp
    exact Or.inl (hq.idle_handlers ▸ hmem)
  | push_trap c task m₁ hp hq =>
    obtain rfl := push_trap_eq_some hp
    exact Or.inl (hq.idle_handlers ▸ hmem)
  | take_idle c pid g rest _ hidle hq =>
    rw [hq.idle_handlers] at hmem
    exact Or.inl (by simp [hidle, show h ∈ rest from hmem])
  | push_idle c hpc hq =>
    rw [hq.idle_handlers] at hmem
    rcases List.mem_append.mp hmem with hmem | hmem
    · exact Or.inl hmem
    · exact Or.inr ⟨c, hpc, List.mem_singleton.mp hmem⟩
  | arrive t task m₁ _ hk _ hp hm =>
    obtain ⟨l, -, -, rfl⟩ := push_task_eq_some hp
    rw [hm] at hmem
    exact Or.inl hmem
  | handler c st _ hpc h₀ hm =>
    rw [hm, handler_next_idle] at hmem
    exact Or.inl hmem
  | dealloc c _ hm =>
    rw [hm] at hmem
    exact Or.inl hmem
  | quiet hq | set_pid c g pid _ hq | new_handler g task _ _ hq => exact Or.inl (hq.idle_handlers ▸ hmem)

/-- A handler goes to the pool from the head of its loop. -/
theorem idle_push_from (hs : m.step a = some m') (hd : m'.pc c = .idle_push) :
    m'.current_task c = m.current_task c ∧
      (m.pc c = .idle_push ∨ m.pc c = .run ∧ m.stage (m.current_task c) = some .top) := by
  show (m'.loc c).current_task = _ ∧ _
  change (m'.loc c).pc = _ at hd
  rcases step_loc hs c with heq | ⟨-, hmove⟩
  · rw [heq] at hd ⊢
    exact ⟨rfl, Or.inl hd⟩
  · generalize m'.loc c = l at hmove hd ⊢
    cases hmove with
    | flow hf =>
      obtain rfl := hd
      exact hf.not_to_idle_push.elim
    | idle_push hpc h₀ => exact ⟨rfl, Or.inr ⟨hpc, h₀⟩⟩
    | take_idle g pid pc' _ _ h => rcases h with rfl | rfl <;> simp at hd
    | set_current t target pc' _ h => rcases h with rfl | rfl <;> simp at hd
    | krun_utask => split at hd <;> simp at hd
    | _ => simp at hd

/-- `take_task` gets a handler from the pool, or a new one. -/
theorem carries_from (hs : m.step a = some m') (hd : (m'.pc c).carries = some h) :
    (m.pc c).carries = some h ∨ (∃ pid, m.pc c = .no_handler pid) ∨ h ∈ m.idle_handlers := by
  change (m'.loc c).pc.carries = some h at hd
  rcases step_loc hs c with heq | ⟨-, hmove⟩
  · rw [heq] at hd
    exact Or.inl hd
  · generalize m'.loc c = l at hmove hd
    cases hmove with
    | flow hf => exact (hf.to_carries hd).imp_right Or.inl
    | take_idle g pid pc' _ hg hpc' =>
      obtain rfl : g = h := by rcases hpc' with rfl | rfl <;> exact Option.some.inj hd
      exact Or.inr (Or.inr hg)
    | set_current t target pc' _ hpc' => rcases hpc' with rfl | rfl <;> simp [Pc.carries] at hd
    | krun_utask => split at hd <;> simp [Pc.carries] at hd
    | _ => simp [Pc.carries] at hd

theorem new_handler_stage (hs : m.step a = some m') {pid : Pid cfg} (hpc : m.pc c = .no_handler pid)
    (hc : (m'.pc c).carries = some h) : m'.stage h = some .top := by
  have hne : m'.pc c ≠ m.pc c := by
    intro heq
    simp [heq, hpc, Pc.carries] at hc
  have ha : a.cpu = some c := cpu_of_pc_ne hs hne
  cases a <;> simp only [Act.cpu, Option.some.injEq, reduceCtorEq] at ha <;> subst ha
  case new_handler g task =>
    simp only [step, new_handler, hpc] at hs
    split at hs
    · split at hs
      · rw [← Option.some.inj hs] at hc
        simp [set_pc, Pc.carries] at hc
      · rw [← Option.some.inj hs] at hc ⊢
        simp only [set_pc, Function.update_self, Pc.carries, Option.some.injEq] at hc
        subst hc
        simp [set_pc, create]
    · cases hs
  all_goals
    simp [step, irq, trap, set_self, leave, poll_ready, pop_ready, take_trap, fail, into_kernel, check,
      wait_return, handle_exits, next, in_code, hpc] at hs

theorem step_staffed (hI : Inv m) (hS : Staffed m) (hs : m.step a = some m') : Staffed m' where
  kernel := by
    intro h hst
    by_cases hno : m.stage h = none
    · exact (step_new_stage hs hno hst).2
    · rw [(step_data hS hs (hI.staged h hno)).is_kernel]
      exact hS.kernel h hno
  idle := by
    intro h hmem
    rcases step_idle hs hmem with hmem | ⟨c, hpc, rfl⟩
    · exact step_stage_isSome hI hs (hS.idle h hmem)
    · exact step_stage_isSome hI hs (hS.pushing c hpc)
  carried := by
    intro d h hd
    rcases carries_from hs hd with hc | ⟨pid, hpc⟩ | hmem
    · exact step_stage_isSome hI hs (hS.carried d h hc)
    · simp [new_handler_stage hs hpc hd]
    · exact step_stage_isSome hI hs (hS.idle h hmem)
  pushing := by
    intro d hd
    obtain ⟨hcur, hpc | ⟨-, h₀⟩⟩ := idle_push_from hs hd
    · rw [hcur]
      exact step_stage_isSome hI hs (hS.pushing d hpc)
    · rw [hcur]
      exact step_stage_isSome hI hs (by simp [h₀])

end Machine

theorem Boot.staffed (b : Boot cfg) : Machine.Staffed b.machine where
  kernel := by
    intro h hst
    have hh : ∃ c, b.handlers c = h := by
      by_contra hno
      simp [machine, hno] at hst
    obtain ⟨c, rfl⟩ := hh
    simp [machine, b.handlers_kernel]
  idle := by
    intro h hmem
    simp only [machine, List.mem_map, List.mem_finRange, true_and] at hmem
    obtain ⟨c, rfl⟩ := hmem
    simp [machine]
  carried := fun c h hc => by simp [machine, Pc.carries] at hc
  pushing := fun c hc => by simp [machine] at hc

end Vsched2
