import Vsched2.ReadyQueue
import Vsched2.Lib.Run

/-! The ready queue in the hands of many threads.

    `push_task` sets the bit of its level after it has released the lock of the deque, and `take_task`
    takes the lock a second time to find out whether it has to clear the bit, and clears it under the
    lock. Each section under a lock and each access to the bitmap is one step. -/

namespace Vsched2

variable {cfg : Config} {τ Θ : Type}

namespace ReadyQueue

/-! ### Accesses -/

/-- `push_back` on the deque of a level; `none` when it is full. -/
def push_back (q : ReadyQueue cfg τ) (l : Level cfg) (task : τ) : Option (ReadyQueue cfg τ) :=
  if (q.queues l).length < cfg.ready_queue_size then
    some { q with queues := Function.update q.queues l (q.queues l ++ [task]) }
  else none

/-- Leaves `rest` in the deque of a level. -/
def set_level (q : ReadyQueue cfg τ) (l : Level cfg) (rest : List τ) : ReadyQueue cfg τ :=
  { q with queues := Function.update q.queues l rest }

def fetch_or (q : ReadyQueue cfg τ) (l : Level cfg) : ReadyQueue cfg τ :=
  { q with prio_bitmap := q.prio_bitmap ||| l.mask }

def fetch_and (q : ReadyQueue cfg τ) (l : Level cfg) : ReadyQueue cfg τ :=
  { q with prio_bitmap := q.prio_bitmap &&& ~~~l.mask }

/-- The bit of a level is set. -/
def Ready (q : ReadyQueue cfg τ) (l : Level cfg) : Prop := q.prio_bitmap.getLsbD (63 - (l : ℕ)) = true

instance (q : ReadyQueue cfg τ) (l : Level cfg) : Decidable (q.Ready l) :=
  inferInstanceAs (Decidable (_ = true))

variable {q q' : ReadyQueue cfg τ} {l m : Level cfg}

theorem mask_getLsbD_iff : m.mask.getLsbD (63 - (l : ℕ)) = true ↔ l = m := by
  have hl := l.isLt
  have hm := m.isLt
  have h64 := @levels_le_64 cfg
  rw [mask_getLsbD, decide_eq_true_iff, Fin.ext_iff]
  omega

@[simp] theorem fetch_or_ready : (q.fetch_or m).Ready l ↔ q.Ready l ∨ l = m := by
  simp only [Ready, fetch_or, BitVec.getLsbD_or, Bool.or_eq_true, mask_getLsbD_iff]

@[simp] theorem fetch_and_ready : (q.fetch_and m).Ready l ↔ q.Ready l ∧ l ≠ m := by
  have hl := l.isLt
  have h64 := @levels_le_64 cfg
  simp only [Ready, fetch_and, BitVec.getLsbD_and, BitVec.getLsbD_not, Bool.and_eq_true, Bool.not_eq_true',
    ← Bool.not_eq_true, mask_getLsbD_iff, decide_eq_true_eq]
  exact ⟨fun h => ⟨h.1, h.2.2⟩, fun h => ⟨h.1, by omega, h.2⟩⟩

theorem push_back_eq_some {task : τ} (h : q.push_back l task = some q') :
    q' = q.set_level l (q.queues l ++ [task]) := by
  simp only [push_back] at h
  split at h
  · exact (Option.some.inj h).symm
  · cases h

@[simp] theorem set_level_ready {rest : List τ} : (q.set_level m rest).Ready l ↔ q.Ready l := Iff.rfl

@[simp] theorem set_level_self (rest : List τ) : (q.set_level l rest).queues l = rest := by simp [set_level]

theorem set_level_of_ne (rest : List τ) (h : l ≠ m) : (q.set_level m rest).queues l = q.queues l := by
  simp [set_level, h]

theorem mem_set_level {rest : List τ} {task : τ} (h : task ∈ q.queues l) (hrest : l = m → task ∈ rest) :
    task ∈ (q.set_level m rest).queues l := by
  rcases eq_or_ne l m with rfl | hlm
  · simpa using hrest rfl
  · rwa [set_level_of_ne rest hlm]

/-- A set bit makes the queue at least as urgent as its level. -/
theorem hightest_priority_le (h : q.Ready l) : q.hightest_priority ≤ l.prio := by
  have hl := l.isLt
  have h64 := @levels_le_64 cfg
  simp only [hightest_priority, bitmap_prio, Level.prio]
  cases hone : highest_one q.prio_bitmap with
  | none =>
    have hoff := highest_one_eq_none.mp hone (63 - (l : ℕ)) (by omega)
    simp [Ready, hoff] at h
  | some i =>
    obtain ⟨hi, -, hmax⟩ := highest_one_eq_some.mp hone
    have hle : 63 - (l : ℕ) ≤ i := by
      by_contra hlt
      have hoff := hmax (63 - (l : ℕ)) (by omega) (by omega)
      simp [Ready, hoff] at h
    simp only [Option.elim_some]
    omega

theorem highest_le_hightest_priority : cfg.highest_priority ≤ q.hightest_priority := by
  simp only [hightest_priority, bitmap_prio]
  cases hone : highest_one q.prio_bitmap with
  | none => simp only [Option.elim_none]; omega
  | some i =>
    have hi := (highest_one_eq_some.mp hone).1
    simp only [Option.elim_some]
    omega

@[simp] theorem fetch_or_queues : (q.fetch_or m).queues = q.queues := rfl

@[simp] theorem fetch_and_queues : (q.fetch_and m).queues = q.queues := rfl

end ReadyQueue

namespace SharedReadyQueue

/-- What `push_task` and `take_task` return. -/
inductive Ret (τ : Type) where
  | pushed (res : Except τ Unit)
  | took (task : Option τ) (prio : ℤ)

/-- Where a thread stands: outside, with what its last call returned; before `push_back`; before
    `fetch_or`; before `pop_front` of the next level; before the second section; inside it, with the
    deque empty, before `fetch_and`. -/
inductive Pc (cfg : Config) (τ : Type) where
  | idle (ret : Option (Ret τ))
  | push (l : Level cfg) (task : τ)
  | pushed (l : Level cfg)
  | take (levels : List (Level cfg))
  | took (l : Level cfg) (task : τ)
  | clearing (l : Level cfg) (task : τ)
  | panicked

/-- The queue, the locks of its deques with their holders, and the threads. -/
structure Shared (cfg : Config) (τ Θ : Type) where
  queue : ReadyQueue cfg τ
  lock : Level cfg → Option Θ
  pc : Θ → Pc cfg τ

/-- Calls `push_task` with a task whose `priority()` is `prio`, calls `take_task`, and makes the next
    access. -/
inductive Act (τ Θ : Type) where
  | push_task (i : Θ) (task : τ) (prio : ℤ)
  | take_task (i : Θ)
  | next (i : Θ)

variable [DecidableEq Θ]

def Shared.set_pc (s : Shared cfg τ Θ) (i : Θ) (pc : Pc cfg τ) : Shared cfg τ Θ :=
  { s with pc := Function.update s.pc i pc }

/-- The next access of a thread inside one of the two functions; `none` also while it waits for a
    lock. -/
def next (s : Shared cfg τ Θ) (i : Θ) : Option (Shared cfg τ Θ) :=
  match s.pc i with
  | .push l task =>
    if s.lock l = none then
      match s.queue.push_back l task with
      | some q => some ({ s with queue := q }.set_pc i (.pushed l))
      | none => some (s.set_pc i (.idle (some (.pushed (.error task)))))
    else none
  | .pushed l => some ({ s with queue := s.queue.fetch_or l }.set_pc i (.idle (some (.pushed (.ok ())))))
  | .take [] => some (s.set_pc i (.idle (some (.took none (cfg.lowest_priority + 1)))))
  | .take (l :: levels) =>
    if s.lock l = none then
      match s.queue.queues l with
      | [] => some (s.set_pc i (.take levels))
      | task :: rest => some ({ s with queue := s.queue.set_level l rest }.set_pc i (.took l task))
    else none
  | .took l task =>
    if s.lock l = none then
      if (s.queue.queues l).isEmpty then
        some ({ s with lock := Function.update s.lock l (some i) }.set_pc i (.clearing l task))
      else some (s.set_pc i (.idle (some (.took (some task) l.prio))))
    else none
  | .clearing l task =>
    let new_bitmap := s.queue.prio_bitmap
    some ({ s with queue := s.queue.fetch_and l, lock := Function.update s.lock l none }.set_pc i
      (.idle (some (.took (some task) (bitmap_prio cfg new_bitmap)))))
  | .idle _ | .panicked => none

def step (s : Shared cfg τ Θ) : Act τ Θ → Option (Shared cfg τ Θ)
  | .push_task i task prio =>
    match s.pc i, cfg.level prio with
    | .idle _, some l => some (s.set_pc i (.push l task))
    | .idle _, none => some (s.set_pc i .panicked)
    | _, _ => none
  | .take_task i =>
    match s.pc i with
    | .idle _ => some (s.set_pc i (.take (List.finRange cfg.priority_levels)))
    | _ => none
  | .next i => next s i

/-- A new queue, and no thread inside. -/
def start (cfg : Config) (τ Θ : Type) : Shared cfg τ Θ where
  queue := .new
  lock := fun _ => none
  pc := fun _ => .idle none

/-! ### Steps -/

variable {s s' : Shared cfg τ Θ} {i j : Θ} {l : Level cfg}

/-- What one access of a thread does, with its place before and after. -/
inductive Effect (s : Shared cfg τ Θ) (i : Θ) : Pc cfg τ → Shared cfg τ Θ → Pc cfg τ → Prop where
  | enter (ret) (pc) (h : (∃ l task, pc = .push l task) ∨ (∃ levels, pc = .take levels) ∨ pc = .panicked) :
      Effect s i (.idle ret) s pc
  | push_back (l : Level cfg) (task q) (hlock : s.lock l = none) (hq : s.queue.push_back l task = some q) :
      Effect s i (.push l task) { s with queue := q } (.pushed l)
  | full (l : Level cfg) (task) (hlock : s.lock l = none) (hq : s.queue.push_back l task = none) :
      Effect s i (.push l task) s (.idle (some (.pushed (.error task))))
  | fetch_or (l : Level cfg) :
      Effect s i (.pushed l) { s with queue := s.queue.fetch_or l } (.idle (some (.pushed (.ok ()))))
  | nothing : Effect s i (.take []) s (.idle (some (.took none (cfg.lowest_priority + 1))))
  | empty (l : Level cfg) (levels) (hlock : s.lock l = none) (hq : s.queue.queues l = []) :
      Effect s i (.take (l :: levels)) s (.take levels)
  | pop_front (l : Level cfg) (levels task rest) (hlock : s.lock l = none) (hq : s.queue.queues l = task :: rest) :
      Effect s i (.take (l :: levels)) { s with queue := s.queue.set_level l rest } (.took l task)
  | lock (l : Level cfg) (task) (hlock : s.lock l = none) (hq : s.queue.queues l = []) :
      Effect s i (.took l task) { s with lock := Function.update s.lock l (some i) } (.clearing l task)
  | more (l : Level cfg) (task) (hlock : s.lock l = none) (hq : s.queue.queues l ≠ []) :
      Effect s i (.took l task) s (.idle (some (.took (some task) l.prio)))
  | fetch_and (l : Level cfg) (task) (prio : ℤ) :
      Effect s i (.clearing l task)
        { s with queue := s.queue.fetch_and l, lock := Function.update s.lock l none }
        (.idle (some (.took (some task) prio)))

theorem next_effect (hs : next s i = some s') :
    ∃ s₁ pc', Effect s i (s.pc i) s₁ pc' ∧ s' = s₁.set_pc i pc' := by
  simp only [next] at hs
  split at hs <;> rename_i hpc <;> rw [hpc]
  · split at hs
    · rename_i hlock
      split at hs <;> rename_i hq <;> rw [← Option.some.inj hs]
      · exact ⟨_, _, .push_back _ _ _ hlock hq, rfl⟩
      · exact ⟨_, _, .full _ _ hlock hq, rfl⟩
    · cases hs
  · rw [← Option.some.inj hs]
    exact ⟨_, _, .fetch_or _, rfl⟩
  · rw [← Option.some.inj hs]
    exact ⟨_, _, .nothing, rfl⟩
  · split at hs
    · rename_i hlock
      split at hs <;> rename_i hq <;> rw [← Option.some.inj hs]
      · exact ⟨_, _, .empty _ _ hlock hq, rfl⟩
      · exact ⟨_, _, .pop_front _ _ _ _ hlock hq, rfl⟩
    · cases hs
  · split at hs
    · rename_i hlock
      split at hs <;> rename_i hq <;> rw [← Option.some.inj hs]
      · exact ⟨_, _, .lock _ _ hlock (List.isEmpty_iff.mp hq), rfl⟩
      · exact ⟨_, _, .more _ _ hlock (mt List.isEmpty_iff.mpr hq), rfl⟩
    · cases hs
  · rw [← Option.some.inj hs]
    exact ⟨_, _, .fetch_and _ _ _, rfl⟩
  · cases hs
  · cases hs

/-- A step is an access of a thread; one from outside is a call. -/
theorem step_effect {a : Act τ Θ} (hs : step s a = some s') :
    ∃ i s₁ pc', (a = .next i ∨ ∃ ret, s.pc i = .idle ret) ∧ Effect s i (s.pc i) s₁ pc' ∧
      s' = s₁.set_pc i pc' := by
  cases a with
  | push_task i task prio =>
    simp only [step] at hs
    split at hs
    · rename_i hpc _
      rw [← Option.some.inj hs]
      exact ⟨i, s, _, Or.inr ⟨_, hpc⟩, hpc ▸ .enter _ _ (Or.inl ⟨_, _, rfl⟩), rfl⟩
    · rename_i hpc _
      rw [← Option.some.inj hs]
      exact ⟨i, s, _, Or.inr ⟨_, hpc⟩, hpc ▸ .enter _ _ (Or.inr (Or.inr rfl)), rfl⟩
    · cases hs
  | take_task i =>
    simp only [step] at hs
    split at hs
    · rename_i hpc
      rw [← Option.some.inj hs]
      exact ⟨i, s, _, Or.inr ⟨_, hpc⟩, hpc ▸ .enter _ _ (Or.inr (Or.inl ⟨_, rfl⟩)), rfl⟩
    · cases hs
  | next i =>
    obtain ⟨s₁, pc', he, rfl⟩ := next_effect hs
    exact ⟨i, s₁, pc', Or.inl rfl, he, rfl⟩

/-! ### The bitmap hides no task -/

/-- A thread is between its `push_back` on a level and its `fetch_or`. -/
def InFlight (s : Shared cfg τ Θ) (l : Level cfg) : Prop := ∃ i, s.pc i = .pushed l

/-- A thread that is about to clear a bit holds the lock of the empty deque. A level with a task has
    its bit, or will get it. -/
structure Inv (s : Shared cfg τ Θ) : Prop where
  held : ∀ i l task, s.pc i = .clearing l task → s.lock l = some i ∧ s.queue.queues l = []
  shown : ∀ l, s.queue.queues l ≠ [] → s.queue.Ready l ∨ InFlight s l

omit [DecidableEq Θ] in
theorem start_inv : Inv (start cfg τ Θ) where
  held := fun i l task h => by simp [start] at h
  shown := fun l h => by simp [start, ReadyQueue.new] at h

theorem pc_set_pc_of_ne (pc : Pc cfg τ) (h : j ≠ i) : (s.set_pc i pc).pc j = s.pc j := by
  simp [Shared.set_pc, h]

omit [DecidableEq Θ] in
/-- Nobody clears a bit whose lock is free. -/
theorem Inv.clearing_ne {task : τ} {m : Level cfg} (hI : Inv s) (hj : s.pc j = .clearing l task)
    (hlock : s.lock m = none) : l ≠ m := by
  rintro rfl
  have h := (hI.held j l task hj).1
  simp [hlock] at h

theorem step_held {s₁ : Shared cfg τ Θ} {pc pc' : Pc cfg τ} (hI : Inv s) (hpc : s.pc i = pc) (he : Effect s i pc s₁ pc')
    (k : Θ) (m : Level cfg) (task : τ) (hk : (s₁.set_pc i pc').pc k = .clearing m task) :
    s₁.lock m = some k ∧ s₁.queue.queues m = [] := by
  rcases eq_or_ne k i with rfl | hki
  · -- it has just taken the lock
    simp only [Shared.set_pc, Function.update_self] at hk
    cases he with
    | enter ret pc h => rcases h with ⟨l, u, rfl⟩ | ⟨levels, rfl⟩ | rfl <;> simp at hk
    | lock l u hlock hq =>
      simp only [Pc.clearing.injEq] at hk
      obtain ⟨rfl, rfl⟩ := hk
      exact ⟨by simp, hq⟩
    | _ => simp at hk
  · have hold : s.pc k = .clearing m task := by
      cases he <;> simpa [Shared.set_pc, hki] using hk
    obtain ⟨hm, hq⟩ := hI.held k m task hold
    cases he with
    | push_back l u q hlock hpush =>
      have hml := hI.clearing_ne hold hlock
      rw [ReadyQueue.push_back_eq_some hpush]
      exact ⟨hm, by simpa [ReadyQueue.set_level_of_ne _ hml] using hq⟩
    | pop_front l levels u rest hlock hpop =>
      have hml := hI.clearing_ne hold hlock
      exact ⟨hm, by simpa [ReadyQueue.set_level_of_ne _ hml] using hq⟩
    | lock l u hlock =>
      have hml := hI.clearing_ne hold hlock
      exact ⟨by simpa [hml] using hm, hq⟩
    | fetch_and l u =>
      have hml : m ≠ l := by
        rintro rfl
        exact hki (Option.some.inj (hm.symm.trans (hI.held i m u hpc).1))
      exact ⟨by simpa [hml] using hm, hq⟩
    | _ => exact ⟨hm, hq⟩

theorem step_shown {s₁ : Shared cfg τ Θ} {pc pc' : Pc cfg τ} (hI : Inv s) (hpc : s.pc i = pc)
    (he : Effect s i pc s₁ pc')
    (m : Level cfg) (hne : s₁.queue.queues m ≠ []) : s₁.queue.Ready m ∨ InFlight (s₁.set_pc i pc') m := by
  -- a push in flight stays in flight, unless it is this thread's
  have hflight : (∀ l, pc ≠ .pushed l) → s₁.pc = s.pc → InFlight s m → InFlight (s₁.set_pc i pc') m := by
    rintro hno heq ⟨k, hk⟩
    refine ⟨k, ?_⟩
    have hki : k ≠ i := by
      rintro rfl
      exact hno m (hpc.symm.trans hk)
    rw [pc_set_pc_of_ne _ hki, heq, hk]
  cases he with
  | push_back l task q hlock hpush =>
    obtain rfl := ReadyQueue.push_back_eq_some hpush
    rcases eq_or_ne m l with rfl | hml
    · exact Or.inr ⟨i, by simp [Shared.set_pc]⟩
    · rw [ReadyQueue.set_level_of_ne _ hml] at hne
      exact (hI.shown m hne).imp id (hflight (by simp) rfl)
  | fetch_or l =>
    rw [ReadyQueue.fetch_or_ready]
    rcases eq_or_ne m l with rfl | hml
    · exact Or.inl (Or.inr rfl)
    · rcases hI.shown m hne with h | ⟨k, hk⟩
      · exact Or.inl (Or.inl h)
      · have hki : k ≠ i := by
          rintro rfl
          exact hml (Pc.pushed.inj (hk.symm.trans hpc))
        exact Or.inr ⟨k, by rw [pc_set_pc_of_ne _ hki]; exact hk⟩
  | pop_front l levels task rest hlock hq =>
    have hold : s.queue.queues m ≠ [] := by
      rcases eq_or_ne m l with rfl | hml
      · simp [hq]
      · rwa [ReadyQueue.set_level_of_ne _ hml] at hne
    exact (hI.shown m hold).imp id (hflight (by simp) rfl)
  | fetch_and l task =>
    have hml : m ≠ l := by
      rintro rfl
      exact hne (hI.held i m task hpc).2
    rw [ReadyQueue.fetch_and_ready]
    exact (hI.shown m hne).imp (fun h => ⟨h, hml⟩) (hflight (by simp) rfl)
  | enter | full | nothing | empty | lock | more => exact (hI.shown m hne).imp id (hflight (by simp) rfl)

theorem step_inv {a : Act τ Θ} (hI : Inv s) (hs : step s a = some s') : Inv s' := by
  obtain ⟨i, s₁, pc', -, he, rfl⟩ := step_effect hs
  exact ⟨step_held hI rfl he, step_shown hI rfl he⟩

/-- For any threads and every interleaving: a level whose deque is not empty has its bit set, or a
    `push_task` is between its `push_back` on that level and its `fetch_or`. -/
theorem ready_bitmap_shows (cfg : Config) (τ Θ : Type) [DecidableEq Θ] (acts : List (Act τ Θ)) (s : Shared cfg τ Θ)
    (hrun : Runs.run step (start cfg τ Θ) acts = some s) (l : Level cfg) (hne : s.queue.queues l ≠ []) :
    s.queue.Ready l ∨ InFlight s l :=
  (Runs.run_invariant (fun _ _ _ hI hs => step_inv hI hs) acts start_inv hrun).shown l hne

/-- A task is pushed and taken before its bit is set, and a second one is pushed. -/
def overtaken : List (Act ℕ (Fin 3)) :=
  [.push_task 0 7 0, .next 0, .take_task 1, .next 1, .push_task 2 8 0, .next 2]

theorem ready_bitmap_shows_overtaken : ∃ s : Shared (Config.build 1 (by decide)) ℕ (Fin 3),
    Runs.run step (start _ _ _) overtaken = some s ∧ s.queue.queues .top = [8] ∧ InFlight s .top := by
  have hrun : ((Runs.run step (start (Config.build 1 (by decide)) ℕ (Fin 3)) overtaken).map fun s =>
      decide (s.queue.queues .top = [8] ∧ ¬ s.queue.Ready .top)) = some true := by decide +kernel
  obtain ⟨s, hs, hfacts⟩ := Option.map_eq_some_iff.mp hrun
  obtain ⟨hq, hready⟩ := of_decide_eq_true hfacts
  exact ⟨s, hs, hq, (ready_bitmap_shows _ _ _ overtaken s hs .top (by simp [hq])).resolve_left hready⟩

end SharedReadyQueue

end Vsched2
