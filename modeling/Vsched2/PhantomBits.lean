import Vsched2.SharedReadyQueue

/-! Bits of the ready bitmap without a task behind them.

    `push_task` sets the bit of its level after it has released the lock, so the task may be gone by
    then: if the one who took it has already found the deque empty and cleared the bit, the `fetch_or`
    sets it again for nobody. The other runs leave no such bit: a set bit belongs to a level with a
    task, or somebody has taken its last task and is about to look again. -/

namespace Vsched2

variable {cfg : Config} {τ Θ : Type}

namespace SharedReadyQueue

/-- A thread has taken a task of level `l` and has yet to look whether the deque is empty, or to clear
    the bit. -/
def Pc.checks (l : Level cfg) : Pc cfg τ → Bool
  | .took l' _ | .clearing l' _ => l' = l
  | _ => false

/-- A thread is in neither of the two functions. -/
def Pc.outside : Pc cfg τ → Bool
  | .idle _ | .panicked => true
  | _ => false

def Checked (s : Shared cfg τ Θ) (l : Level cfg) : Prop := ∃ j, (s.pc j).checks l = true

/-- The condition on a step: at a `fetch_or` the level has a task, or is about to be looked at. -/
def Owed (s : Shared cfg τ Θ) : Act τ Θ → Prop
  | .next i => ∀ l, s.pc i = .pushed l → s.queue.queues l ≠ [] ∨ Checked s l
  | _ => True

/-- The bits behind the levels: the sentinel, and zeros. -/
def Tail (q : ReadyQueue cfg τ) : Prop :=
  ∀ k, cfg.priority_levels ≤ k → k ≤ 63 → (q.prio_bitmap.getLsbD (63 - k) = true ↔ k = cfg.priority_levels)

/-- A set bit belongs to a level with a task, or to one that is about to be looked at. -/
structure Settles (s : Shared cfg τ Θ) : Prop where
  settled : ∀ l, s.queue.Ready l → s.queue.queues l ≠ [] ∨ Checked s l
  tail : Tail s.queue

variable {s s' : Shared cfg τ Θ} {i j : Θ} {l m : Level cfg}

theorem Tail.of_bits {q q' : ReadyQueue cfg τ} (h : Tail q)
    (heq : ∀ k, cfg.priority_levels ≤ k → k ≤ 63 →
      q'.prio_bitmap.getLsbD (63 - k) = q.prio_bitmap.getLsbD (63 - k)) : Tail q' := by
  intro k hk hk'
  rw [heq k hk hk']
  exact h k hk hk'

/-- The mask of a level has no bit behind the levels. -/
theorem mask_tail {k : ℕ} (hk : cfg.priority_levels ≤ k) (hk' : k ≤ 63) : l.mask.getLsbD (63 - k) = false := by
  have hl := l.isLt
  rw [ReadyQueue.mask_getLsbD, decide_eq_false_iff_not]
  omega

theorem Tail.fetch_or {q : ReadyQueue cfg τ} (h : Tail q) : Tail (q.fetch_or l) := by
  refine h.of_bits fun k hk hk' => ?_
  simp [ReadyQueue.fetch_or, mask_tail hk hk']

theorem Tail.fetch_and {q : ReadyQueue cfg τ} (h : Tail q) : Tail (q.fetch_and l) := by
  refine h.of_bits fun k hk hk' => ?_
  have hlt : 63 - k < 64 := by omega
  rw [ReadyQueue.fetch_and, BitVec.getLsbD_and, BitVec.getLsbD_not, mask_tail hk hk']
  simp [hlt]

theorem new_tail : Tail (.new : ReadyQueue cfg τ) := by
  intro k hk hk'
  rw [ReadyQueue.new_synced k hk']
  constructor
  · rintro (⟨l, -, hne⟩ | rfl)
    · simp [ReadyQueue.new] at hne
    · rfl
  · exact Or.inr

theorem start_settles : Settles (start cfg τ Θ) where
  settled := by
    intro l hready
    have hl := l.isLt
    have h64 := @levels_le_64 cfg
    rcases (ReadyQueue.new_synced (τ := τ) (l : ℕ) (by omega)).mp hready with ⟨m, -, hne⟩ | heq
    · simp [ReadyQueue.new] at hne
    · omega
  tail := new_tail

variable [DecidableEq Θ]

/-- A thread that looks at the level goes on looking, unless it is the one that moves. -/
theorem Checked.keep {s₁ : Shared cfg τ Θ} {pc' : Pc cfg τ} (h : Checked s m) (heq : s₁.pc = s.pc)
    (hi : (s.pc i).checks m = true → pc'.checks m = true) : Checked (s₁.set_pc i pc') m := by
  obtain ⟨k, hk⟩ := h
  rcases eq_or_ne k i with rfl | hki
  · exact ⟨k, by simpa [Shared.set_pc] using hi hk⟩
  · exact ⟨k, by rw [pc_set_pc_of_ne _ hki, heq]; exact hk⟩

/-- One access of a thread: a bit is set only for a task or a thread that looks again, and a thread
    stops looking only at a level with a task, or clears the bit. -/
theorem step_settled {s₁ : Shared cfg τ Θ} {pc pc' : Pc cfg τ} (hS : Settles s) (hpc : s.pc i = pc)
    (hg : ∀ l, pc = .pushed l → s.queue.queues l ≠ [] ∨ Checked s l) (he : Effect s i pc s₁ pc')
    (m : Level cfg) (hready : s₁.queue.Ready m) :
    s₁.queue.queues m ≠ [] ∨ Checked (s₁.set_pc i pc') m := by
  subst hpc
  cases hat : s.pc i with
  | idle ret =>
    rw [hat] at he
    cases he with
    | enter _ _ h =>
      exact (hS.settled m hready).imp_right fun hc => hc.keep rfl (by simp [hat, Pc.checks])
  | push l task =>
    rw [hat] at he
    cases he with
    | push_back _ _ q hlock hpush =>
      obtain rfl := ReadyQueue.push_back_eq_some hpush
      rcases eq_or_ne m l with rfl | hml
      · exact Or.inl (by simp)
      · rw [ReadyQueue.set_level_of_ne _ hml]
        exact (hS.settled m hready).imp_right fun hc => hc.keep rfl (by simp [hat, Pc.checks])
    | full => exact (hS.settled m hready).imp_right fun hc => hc.keep rfl (by simp [hat, Pc.checks])
  | pushed l =>
    have hkeep : Checked s m → Checked ({ s with queue := s.queue.fetch_or l }.set_pc i pc') m :=
      fun hc => hc.keep rfl (by simp [hat, Pc.checks])
    have howed := hg l hat
    rw [hat] at he
    cases he with
    | fetch_or =>
      rcases ReadyQueue.fetch_or_ready.mp hready with hold | rfl
      · exact (hS.settled m hold).imp_right hkeep
      · exact howed.imp_right hkeep
  | take levels =>
    rw [hat] at he
    cases he with
    | nothing => exact (hS.settled m hready).imp_right fun hc => hc.keep rfl (by simp [hat, Pc.checks])
    | empty l levels hlock hq =>
      exact (hS.settled m hready).imp_right fun hc => hc.keep rfl (by simp [hat, Pc.checks])
    | pop_front l levels task rest hlock hq =>
      rcases eq_or_ne m l with rfl | hml
      · -- the thread itself looks again
        exact Or.inr ⟨i, by simp [Shared.set_pc, Pc.checks]⟩
      · rw [ReadyQueue.set_level_of_ne _ hml]
        exact (hS.settled m hready).imp_right fun hc => hc.keep rfl (by simp [hat, Pc.checks])
  | took l task =>
    rw [hat] at he
    cases he with
    | lock _ _ hlock hq =>
      exact (hS.settled m hready).imp_right fun hc => hc.keep rfl (by simp [hat, Pc.checks])
    | more _ _ hlock hq =>
      rcases eq_or_ne m l with rfl | hml
      · exact Or.inl hq
      · exact (hS.settled m hready).imp_right fun hc => hc.keep rfl (by simp [hat, Pc.checks, hml.symm])
  | clearing l task =>
    rw [hat] at he
    cases he with
    | fetch_and _ _ prio =>
      obtain ⟨hold, hml⟩ := ReadyQueue.fetch_and_ready.mp hready
      exact (hS.settled m hold).imp_right fun hc => hc.keep rfl (by simp [hat, Pc.checks, hml.symm])
  | panicked =>
    rw [hat] at he
    cases he

omit [DecidableEq Θ] in
theorem effect_tail {s₁ : Shared cfg τ Θ} {pc pc' : Pc cfg τ} (ht : Tail s.queue) (he : Effect s i pc s₁ pc') :
    Tail s₁.queue := by
  cases he with
  | push_back l task q hlock hpush =>
    obtain rfl := ReadyQueue.push_back_eq_some hpush
    exact ht
  | fetch_or l => exact ht.fetch_or
  | fetch_and l task prio => exact ht.fetch_and
  | _ => exact ht

theorem step_settles {a : Act τ Θ} (hS : Settles s) (hg : Owed s a) (hs : step s a = some s') : Settles s' := by
  obtain ⟨i, s₁, pc', hact, he, rfl⟩ := step_effect hs
  have htail : Tail s₁.queue := effect_tail hS.tail he
  refine ⟨step_settled hS rfl (fun l hl => ?_) he, htail⟩
  rcases hact with rfl | ⟨ret, hidle⟩
  · exact hg l hl
  · simp [hidle] at hl

omit [DecidableEq Θ] in
/-- Without a thread inside, the bitmap agrees with the deques. -/
theorem Settles.synced (hS : Settles s) (hI : Inv s) (hquiet : ∀ i, (s.pc i).outside = true) :
    s.queue.Synced := by
  intro k hk
  rcases Nat.lt_or_ge k cfg.priority_levels with hlt | hge
  · have hne : k ≠ cfg.priority_levels := by omega
    simp only [hne, or_false]
    constructor
    · intro hbit
      rcases hS.settled ⟨k, hlt⟩ hbit with h | ⟨i, hi⟩
      · exact ⟨⟨k, hlt⟩, rfl, h⟩
      · have hout := hquiet i
        cases hat : s.pc i <;> simp [hat, Pc.checks, Pc.outside] at hi hout
    · rintro ⟨l, rfl, h⟩
      rcases hI.shown l h with hready | ⟨i, hi⟩
      · exact hready
      · have hout := hquiet i
        simp [hi, Pc.outside] at hout
  · rw [hS.tail k hge hk]
    constructor
    · exact Or.inr
    · rintro (⟨l, rfl, -⟩ | h)
      · have hl := l.isLt
        omega
      · exact h

/-- In every run in which no `fetch_or` comes after the task and its taker have gone: when no thread is
    inside, every bit but the sentinel belongs to a level with a task, and an empty queue reports one
    below the lowest priority. -/
theorem no_phantom_bit (cfg : Config) (τ Θ : Type) [DecidableEq Θ] (acts : List (Act τ Θ)) (s : Shared cfg τ Θ)
    (hrun : Runs.run step (start cfg τ Θ) acts = some s) (hguard : Runs.Along step Owed (start cfg τ Θ) acts)
    (hquiet : ∀ i, (s.pc i).outside = true) :
    (∀ k ≤ 63, s.queue.prio_bitmap.getLsbD (63 - k) = true → k ≠ cfg.priority_levels →
      ∃ l : Level cfg, (l : ℕ) = k ∧ s.queue.queues l ≠ []) ∧
    ((∀ l, s.queue.queues l = []) → s.queue.hightest_priority = cfg.lowest_priority + 1) := by
  have hstep : ∀ (t : Shared cfg τ Θ) (a : Act τ Θ) (t' : Shared cfg τ Θ),
      Settles t → Owed t a → step t a = some t' → Settles t' := fun _ _ _ hS hg hs => step_settles hS hg hs
  have hS := Runs.along_invariant hstep acts start_settles hguard hrun
  have hI := Runs.run_invariant (fun _ _ _ hI hs => step_inv hI hs) acts start_inv hrun
  have hsync := hS.synced hI hquiet
  constructor
  · intro k hk hbit hne
    exact ((hsync k hk).mp hbit).resolve_right hne
  · intro hempty
    rw [ReadyQueue.hightest_priority_eq hsync, ReadyQueue.best_prio, ReadyQueue.best_eq_none.mpr hempty]
    rfl

/-- A task is pushed, taken by another thread, and its bit cleared. -/
def push_and_take : List (Act ℕ (Fin 2)) :=
  [.push_task 0 7 0, .next 0, .next 0, .take_task 1, .next 1, .next 1, .next 1]

/-- The same, but the other thread is done before the first one sets the bit. -/
def late_bit : List (Act ℕ (Fin 2)) :=
  [.push_task 0 7 0, .next 0, .take_task 1, .next 1, .next 1, .next 1, .next 0]

instance (s : Shared cfg ℕ (Fin 2)) : ∀ a, Decidable (Owed s a)
  | .next i =>
    match h : s.pc i with
    | .pushed l => decidable_of_iff (s.queue.queues l ≠ [] ∨ ∃ j, (s.pc j).checks l = true) (by simp [Owed, Checked, h])
    | .idle _ | .push .. | .take _ | .took .. | .clearing .. | .panicked => isTrue (by simp [Owed, h])
  | .push_task .. | .take_task _ => isTrue trivial

theorem no_phantom_bit_push_and_take : ∃ s : Shared solo ℕ (Fin 2),
    Runs.run step (start _ _ _) push_and_take = some s ∧ s.queue.hightest_priority = solo.lowest_priority + 1 := by
  have hrun : ((Runs.run step (start solo ℕ (Fin 2)) push_and_take).map fun s =>
      decide ((∀ i, (s.pc i).outside = true) ∧ ∀ l, s.queue.queues l = [])) = some true := by decide +kernel
  obtain ⟨s, hs, hfacts⟩ := Option.map_eq_some_iff.mp hrun
  obtain ⟨hquiet, hempty⟩ := of_decide_eq_true hfacts
  exact ⟨s, hs, (no_phantom_bit _ _ _ push_and_take s hs (by decide +kernel) hquiet).2 hempty⟩

/-- The bit of the first level stays set in the empty queue, which reports priority 0. -/
theorem phantom_bit : ∃ s : Shared solo ℕ (Fin 2), Runs.run step (start _ _ _) late_bit = some s ∧
    (∀ i, (s.pc i).outside = true) ∧ (∀ l, s.queue.queues l = []) ∧ s.queue.Ready .top ∧
    s.queue.hightest_priority = 0 := by
  have hrun : ((Runs.run step (start solo ℕ (Fin 2)) late_bit).map fun s =>
      decide ((∀ i, (s.pc i).outside = true) ∧ (∀ l, s.queue.queues l = []) ∧ s.queue.Ready .top ∧
        s.queue.hightest_priority = 0)) = some true := by decide +kernel
  obtain ⟨s, hs, hfacts⟩ := Option.map_eq_some_iff.mp hrun
  exact ⟨s, hs, of_decide_eq_true hfacts⟩

end SharedReadyQueue

end Vsched2
