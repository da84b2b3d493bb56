import Vsched2.StackLoop

/-! The stacks at kernel entry.

    A trap enters on the stack of the next trap. Entries of type 0 and 1 put another stack in its place and
    record the one they are on as the stack in use; an entry of type 2, out of the scheduler of a user
    process, leaves the slots as they are, and the kernel goes on on the stack that the next trap will use. -/

namespace Vsched2

variable {cfg : Config}

namespace StackLoop

variable {base : StackPtr → ℕ} {pool_size : ℕ} {type2 : Prop} {s s' : StackLoop cfg} {c : Cpu cfg}

/-- Entered on the stack of the next trap, a CPU goes on with it as the stack in use, and the next trap
    gets another one, which is in no pool. -/
def Rotated (base : StackPtr → ℕ) (s s' : StackLoop cfg) (c : Cpu cfg) : Prop :=
  ∃ stack ∈ s.on c, s.kernel_stacks.trap_stack c = some stack ∧ s'.kernel_stacks.current_stack c = some stack ∧
    ∃ next ∈ s'.kernel_stacks.trap_stack c, next ≠ stack ∧ s'.pre_stack c = base next ∧
      ∀ c', next ∉ s'.kernel_stacks.free_stacks c'

/-- A trap entry that returns has rotated the stacks of its CPU. -/
def Rotates (base : StackPtr → ℕ) (pool_size : ℕ) (s : StackLoop cfg) (a : Act cfg) : Prop :=
  ∀ c ∈ entered a, ∀ s' ∈ s.step base pool_size a, s'.place c = .sched → Rotated base s s' c

/-- No scheduler is on the stack of the next trap, and the stack it is on can be taken. -/
def Apart (s : StackLoop cfg) : Prop :=
  ∀ c, s.place c = .sched ∨ s.place c = .wait →
    ∃ stack ∈ s.on c, s.kernel_stacks.trap_stack c ≠ some stack ∧
      (s.kernel_stacks.take_current_stack c).map Prod.fst = some stack

instance (base : StackPtr → ℕ) (s s' : StackLoop cfg) (c : Cpu cfg) : Decidable (Rotated base s s' c) :=
  inferInstanceAs (Decidable (∃ stack ∈ s.on c, s.kernel_stacks.trap_stack c = some stack ∧
    s'.kernel_stacks.current_stack c = some stack ∧ ∃ next ∈ s'.kernel_stacks.trap_stack c,
      next ≠ stack ∧ s'.pre_stack c = base next ∧ ∀ c', next ∉ s'.kernel_stacks.free_stacks c'))

instance (base : StackPtr → ℕ) (pool_size : ℕ) (s : StackLoop cfg) (a : Act cfg) :
    Decidable (Rotates base pool_size s a) :=
  inferInstanceAs (Decidable (∀ c ∈ entered a, ∀ s' ∈ s.step base pool_size a, s'.place c = .sched →
    Rotated base s s' c))

theorem trap_entry_of_step {fresh : StackPtr} (h : s.step base pool_size (.trap_entry c fresh) = some s') :
    s.New (.trap_entry c fresh) ∧ s.trap_entry base c fresh = some s' := by
  simp only [step] at h
  split at h
  · rename_i hnew
    exact ⟨hnew, h⟩
  · cases h

/-- An entry out of a task or out of the wait rotates the stacks. -/
theorem trap_entry_rotated {fresh : StackPtr} (hI : s.Inv base type2)
    (h : s.step base pool_size (.trap_entry c fresh) = some s') (hplace : s.place c ≠ .into_kernel)
    (hsched : s'.place c = .sched) : Rotated base s s' c := by
  have hs := hI.settled c
  have hI' : s'.Inv base True := by
    refine step_inv ?_ _ (fun _ => trivial) h
    exact hI.weaken
  obtain ⟨-, hentry⟩ := trap_entry_of_step h
  obtain ⟨_, _, thread_stack, hentered, rfl | ⟨next, stack, hnext, htrap, -, rfl⟩⟩ | ⟨htwo, -⟩ :=
    trap_entry_cases hentry
  · exact absurd hsched (by simp [panic, move])
  · rw [SettledAt, hentered] at hs
    have hold : s.kernel_stacks.trap_stack c = some stack := by
      rw [← htrap, hnext]
      split
      · rfl
      · rw [(s.kernel_stacks.alloc_stack_unchanged c fresh).2.1]
    -- what the entry records is what a handler without duplicates keeps apart
    have hcur : (((next.2.set_trap c (some next.1)).set_current c (some stack)).current_stack c) = some stack :=
      Function.update_self ..
    have hnew : (((next.2.set_trap c (some next.1)).set_current c (some stack)).trap_stack c) = some next.1 :=
      Function.update_self ..
    obtain ⟨hne, hfree⟩ := StackHandler.trap_apart hI'.held_nodup hnew
    refine ⟨stack, hs.1.2.trans hold, hold, hcur, next.1, hnew, ?_, Function.update_self .., hfree⟩
    rintro rfl
    exact hne hcur
  · exact absurd htwo hplace

/-- An entry of type 2 does not. -/
theorem type2_not_rotated {fresh : StackPtr} (hI : s.Inv base type2)
    (h : s.step base pool_size (.trap_entry c fresh) = some s') (hplace : s.place c = .into_kernel) :
    s'.place c = .sched ∧ ¬ Rotated base s s' c := by
  have hs := hI.settled c
  rw [SettledAt, hplace] at hs
  obtain ⟨-, hentry⟩ := trap_entry_of_step h
  obtain ⟨_, _, _, hentered, -⟩ | ⟨-, rfl⟩ := trap_entry_cases hentry
  · rw [hplace] at hentered
    cases hentered
  · refine ⟨Function.update_self .., ?_⟩
    rintro ⟨stack, -, -, hcur, -⟩
    rw [move_kernel_stacks, hs.1.1] at hcur
    cases hcur

theorem rotates_iff (hI : s.Inv base type2) (a : Act cfg) (h : s.step base pool_size a = some s') :
    Rotates base pool_size s a ↔ ¬ s.Type2 a := by
  constructor
  · rintro hrot ⟨c, hc, hplace⟩
    cases a with
    | trap_entry c' fresh =>
      obtain rfl : c' = c := Option.some.inj hc
      obtain ⟨hsched, hnot⟩ := type2_not_rotated hI h hplace
      exact hnot (hrot c' rfl s' h hsched)
    | _ => cases hc
  · intro htype c hc t ht hsched
    cases a with
    | trap_entry c' fresh =>
      obtain rfl : c' = c := Option.some.inj hc
      exact trap_entry_rotated hI ht (fun hplace => htype ⟨c', rfl, hplace⟩) hsched
    | _ => cases hc

/-- Without entries of type 2 every scheduler is on the stack recorded, and that is not the next trap's. -/
theorem Inv.apart (hI : s.Inv base False) : s.Apart := by
  have hrecorded : ∀ c, Recorded (s.on c) (s.kernel_stacks.current_stack c) ∧
      Named base (s.kernel_stacks.trap_stack c) (s.pre_stack c) →
      ∃ stack ∈ s.on c, s.kernel_stacks.trap_stack c ≠ some stack ∧
        (s.kernel_stacks.take_current_stack c).map Prod.fst = some stack := by
    rintro c ⟨⟨stack, hcur, hon⟩, _⟩
    refine ⟨stack, hon, fun htrap => ?_, by simp [StackHandler.take_current_stack, hcur]⟩
    exact (StackHandler.trap_apart hI.held_nodup htrap).1 hcur
  intro c hplace
  have hs := hI.settled c
  rcases hplace with hplace | hplace
  · rw [SettledAt, hplace] at hs
    exact hrecorded c ⟨hs.1.resolve_right And.left, hs.2⟩
  · rw [SettledAt, hplace] at hs
    exact hrecorded c ⟨hs.1.resolve_right And.left, hs.2⟩

/-- In a run every trap entry that returns rotates the stacks, and no scheduler is on the stack of the next
    trap, if and only if no trap entry is of type 2. -/
theorem run_rotates_iff (base : StackPtr → ℕ) (pool_size : ℕ) (acts : List (Act cfg)) :
    (Runs.Along (step base pool_size) (Rotates base pool_size) (boot cfg) acts ∧
      Runs.Visits (step base pool_size) Apart (boot cfg) acts) ↔
    Runs.Along (step base pool_size) (fun s a => ¬ s.Type2 a) (boot cfg) acts := by
  have hrot : Runs.Along (step base pool_size) (Rotates base pool_size) (boot cfg) acts ↔
      Runs.Along (step base pool_size) (fun s a => ¬ s.Type2 a) (boot cfg) acts :=
    Runs.along_congr (fun _ a _ hI h => step_inv hI a (fun _ => trivial) h) (fun _ a _ hI h => rotates_iff hI a h) acts
      (boot_inv base True)
  rw [hrot]
  refine and_iff_left_of_imp fun htype => ?_
  have hinv : Runs.Visits (step base pool_size) (Inv base False) (boot cfg) acts :=
    Runs.along_visits (fun _ a _ hI htype h => step_inv hI a htype h) acts (boot_inv base False) htype
  exact hinv.imp fun _ hI => hI.apart

/-- A user task yields, and its process gives the CPU back to the kernel, which waits. -/
def back_to_kernel : List (Act solo) :=
  let t : StackTask := ⟨1, false, false⟩
  [.kernel_init solo_cpu ⟨0, true, false⟩ 1 2, .thread_yield solo_cpu false, .thread_entry solo_cpu true 0,
    .spawn t none, .krun_utask solo_cpu t, .user_yield solo_cpu true, .into_kernel solo_cpu,
    .trap_entry solo_cpu 0, .wait solo_cpu]

/-- The next interrupt finds no stack to take, and panics. -/
theorem back_to_kernel_not_rotated :
    ¬ (Runs.Along (step id 16) (Rotates id 16) (boot solo) back_to_kernel ∧
      Runs.Visits (step id 16) Apart (boot solo) back_to_kernel) ∧
    (Runs.run (step id 16) (boot solo) (back_to_kernel ++ [.interrupt solo_cpu true 0])).map
      (fun s => s.place solo_cpu) = some .panicked :=
  ⟨fun h => absurd h.1 (by decide +kernel), by decide +kernel⟩

end StackLoop

end Vsched2
