import Vsched2.ReadyQueue
import Vsched2.Lib.StableQueue
import Vsched2.Lib.Refinement

/-! The ready queue is a bounded stable priority queue.

    The abstract queue has the levels as keys and nothing like the bitmap. The two give the same outputs
    on every sequence of `push_task` and `take_task`, and the bitmap names the least level in use. What
    `take_task` reports as the remaining priority is another matter. -/

namespace Vsched2

namespace ReadyQueue

variable {cfg : Config} {τ : Type}

/-- The operations; `prio` is what `task.priority()` returns. -/
inductive Op (τ : Type) where
  | push_task (task : τ) (prio : ℤ)
  | take_task

/-- What the caller learns: whether the task was accepted, or the task taken. -/
inductive Output (τ : Type) where
  | pushed (ok : Bool)
  | taken (task : Option τ)
  deriving DecidableEq

/-- The priority of a pushed task is in range. -/
def Op.InRange (cfg : Config) : Op τ → Prop
  | .push_task _ prio => cfg.highest_priority ≤ prio ∧ prio ≤ cfg.lowest_priority
  | .take_task => True

/-- An operation on the ready queue. -/
def exec (q : ReadyQueue cfg τ) : Op τ → Option (Output τ × ReadyQueue cfg τ)
  | .push_task task prio => (q.push_task task prio).map fun
    | .ok q' => (.pushed true, q')
    | .error _ => (.pushed false, q)
  | .take_task =>
    let r := q.take_task
    some (.taken r.1.1, r.2)

/-- The same operation on the abstract queue. -/
def spec (abs : List (Level cfg × τ)) : Op τ → Option (Output τ × List (Level cfg × τ))
  | .push_task task prio => (cfg.level prio).map fun l =>
    match StableQueue.push cfg.ready_queue_size abs l task with
    | some abs' => (.pushed true, abs')
    | none => (.pushed false, abs)
  | .take_task =>
    let r := StableQueue.take abs
    some (.taken r.1, r.2)

/-- The deques are the buckets of the abstract queue, and the bitmap agrees with them. -/
structure Refines (q : ReadyQueue cfg τ) (abs : List (Level cfg × τ)) : Prop where
  synced : q.Synced
  queues : ∀ l, q.queues l = StableQueue.bucket abs l
  bounded : ∀ l, (q.queues l).length ≤ cfg.ready_queue_size

variable {q q' : ReadyQueue cfg τ} {abs : List (Level cfg × τ)} {l : Level cfg}

theorem new_refines : Refines (new : ReadyQueue cfg τ) [] where
  synced := new_synced
  queues := fun _ => rfl
  bounded := fun _ => Nat.zero_le _

/-- The least level with a task is the least key. -/
theorem Refines.best_eq (hR : Refines q abs) : q.best = StableQueue.least abs := by
  cases hb : q.best with
  | some l =>
    obtain ⟨hne, hmin⟩ := best_eq_some.mp hb
    refine (StableQueue.least_eq_some.mpr ⟨by rwa [← hR.queues l], fun k hk => ?_⟩).symm
    rw [← hR.queues k]
    exact hmin k hk
  | none =>
    refine (StableQueue.least_eq_none.mpr fun k => ?_).symm
    rw [← hR.queues k]
    exact best_eq_none.mp hb k

theorem level_of_in_range {prio : ℤ} (h : cfg.highest_priority ≤ prio ∧ prio ≤ cfg.lowest_priority) :
    ∃ l, cfg.level prio = some l := by
  have hlow := @lowest_eq cfg
  have hlt : (prio - cfg.highest_priority).toNat < cfg.priority_levels := by omega
  exact ⟨_, dif_pos ⟨hlt, h.1⟩⟩

theorem push_refines {task : τ} (hR : Refines q abs) (hq : q.push_level l task = .ok q') :
    StableQueue.push cfg.ready_queue_size abs l task = some (abs ++ [(l, task)]) ∧
      Refines q' (abs ++ [(l, task)]) := by
  have hqueues := push_level_queues hq
  have hroom : (q.queues l).length < cfg.ready_queue_size := by
    by_contra hno
    simp [push_level, hno] at hq
  refine ⟨by rw [StableQueue.push, ← hR.queues l, if_pos hroom], push_level_synced hR.synced hq, fun k => ?_,
    fun k => ?_⟩
  · rcases eq_or_ne k l with rfl | hk
    · rw [hqueues, Function.update_self, StableQueue.bucket_concat_self, hR.queues k]
    · rw [hqueues, Function.update_of_ne hk, StableQueue.bucket_concat_of_ne abs task hk, hR.queues k]
  · rcases eq_or_ne k l with rfl | hk
    · rw [hqueues, Function.update_self, List.length_append]
      exact hroom
    · rw [hqueues, Function.update_of_ne hk]
      exact hR.bounded k

theorem take_refines {task : τ} {rest : List τ} (hR : Refines q abs) (hb : q.best = some l)
    (hq : q.queues l = task :: rest) : (StableQueue.take abs).1 = some task ∧
      Refines (q.take_level l task rest).2 (StableQueue.take abs).2 := by
  have hleast := hR.best_eq ▸ hb
  have hbucket : StableQueue.bucket abs l = task :: rest := by rw [← hR.queues l, hq]
  obtain ⟨h₁, h₂, h₃⟩ := StableQueue.pull_spec hbucket
  have htake : StableQueue.take abs = StableQueue.pull l abs := by simp only [StableQueue.take, hleast]
  rw [htake]
  refine ⟨h₁, take_level_synced hR.synced hq, fun k => ?_, fun k => ?_⟩
  · rw [take_level_queues]
    rcases eq_or_ne k l with rfl | hk
    · rw [Function.update_self, h₂]
    · rw [Function.update_of_ne hk, h₃ k hk, hR.queues k]
  · rw [take_level_queues]
    rcases eq_or_ne k l with rfl | hk
    · have hle := hR.bounded k
      rw [hq, List.length_cons] at hle
      rw [Function.update_self]
      omega
    · rw [Function.update_of_ne hk]
      exact hR.bounded k

/-- One operation: the same output, and related queues again. -/
theorem exec_refines (op : Op τ) (hR : Refines q abs) (hin : op.InRange cfg) :
    ∃ out q' abs', exec q op = some (out, q') ∧ spec abs op = some (out, abs') ∧ Refines q' abs' := by
  cases op with
  | push_task task prio =>
    obtain ⟨l, hl⟩ := level_of_in_range hin
    cases hq : q.push_level l task with
    | ok q' =>
      obtain ⟨hpush, hR'⟩ := push_refines hR hq
      exact ⟨.pushed true, q', _, by simp [exec, push_task, hl, hq], by simp [spec, hl, hpush], hR'⟩
    | error e =>
      have hfull : ¬ (q.queues l).length < cfg.ready_queue_size := by
        intro hroom
        simp [push_level, hroom] at hq
      have hpush : StableQueue.push cfg.ready_queue_size abs l task = none := by
        rw [StableQueue.push, ← hR.queues l, if_neg hfull]
      exact ⟨.pushed false, q, abs, by simp [exec, push_task, hl, hq], by simp [spec, hl, hpush], hR⟩
  | take_task =>
    cases hb : q.best with
    | none =>
      have hleast := hR.best_eq ▸ hb
      have htake : StableQueue.take abs = (none, abs) := by simp only [StableQueue.take, hleast]
      exact ⟨.taken none, q, abs, by simp [exec, take_task_none hb], by simp [spec, htake], hR⟩
    | some l =>
      obtain ⟨task, rest, hq, heq⟩ := take_task_some hb
      obtain ⟨htake, hR'⟩ := take_refines hR hb hq
      exact ⟨.taken (some task), _, _, by simp [exec, heq, take_level_fst], by simp [spec, htake], hR'⟩

theorem trace_refines (ops : List (Op τ)) (hin : ∀ op ∈ ops, op.InRange cfg) :
    ∃ outs q abs, Refinement.trace exec (new : ReadyQueue cfg τ) ops = some (outs, q) ∧
      Refinement.trace spec ([] : List (Level cfg × τ)) ops = some (outs, abs) ∧ Refines q abs :=
  Refinement.trace_simulation (fun _ _ op hR hop => exec_refines op hR hop) ops new_refines hin

/-- The shift amounts of the source, for the bit of a level and for the sentinel, are in 0..63. -/
def ShiftsInRange (cfg : Config) : Prop :=
  (∀ prio, cfg.highest_priority ≤ prio → prio ≤ cfg.lowest_priority →
    0 ≤ 63 - prio + cfg.highest_priority ∧ 63 - prio + cfg.highest_priority ≤ 63) ∧
  (cfg.priority_levels ≤ 63 → 0 ≤ 63 - (cfg.priority_levels : ℤ) ∧ 63 - (cfg.priority_levels : ℤ) ≤ 63)

theorem shifts_in_range (cfg : Config) : ShiftsInRange cfg := by
  have hlow := @lowest_eq cfg
  have h64 := @levels_le_64 cfg
  constructor
  · intro prio h h'
    omega
  · intro h
    omega

/-- On every sequence of operations the ready queue gives the outputs of the bounded stable priority
    queue. Afterwards a push fails exactly when the deque of the level is full, which holds no more than
    its capacity, and `hightest_priority` is the least level in use. -/
theorem refines_stable_queue (ops : List (Op τ)) (hin : ∀ op ∈ ops, op.InRange cfg) :
    ∃ outs q abs, Refinement.trace exec (new : ReadyQueue cfg τ) ops = some (outs, q) ∧
      Refinement.trace spec ([] : List (Level cfg × τ)) ops = some (outs, abs) ∧
      (∀ l, q.queues l = StableQueue.bucket abs l ∧ (q.queues l).length ≤ cfg.ready_queue_size) ∧
      (∀ task prio l, cfg.level prio = some l →
        (exec q (.push_task task prio) = some (.pushed false, q) ↔ (q.queues l).length = cfg.ready_queue_size)) ∧
      q.hightest_priority = (StableQueue.least abs).elim (cfg.lowest_priority + 1) Level.prio ∧
      ShiftsInRange cfg := by
  obtain ⟨outs, q, abs, hq, habs, hR⟩ := trace_refines ops hin
  refine ⟨outs, q, abs, hq, habs, fun l => ⟨hR.queues l, hR.bounded l⟩, ?_, ?_, shifts_in_range cfg⟩
  · intro task prio l hl
    have hle := hR.bounded l
    by_cases hroom : (q.queues l).length < cfg.ready_queue_size
    · simp [exec, push_task, hl, push_level, hroom]
      omega
    · simp [exec, push_task, hl, push_level, hroom]
      omega
  · rw [hightest_priority_eq hR.synced, best_prio, hR.best_eq]

/-- Three pushes and two takes with the default constants. -/
def five_ops : List (Op ℕ) := [.push_task 7 5, .push_task 8 3, .push_task 9 3, .take_task, .take_task]

theorem refines_stable_queue_five_ops : ∃ q : ReadyQueue (Config.build 1 (by decide)) ℕ,
    Refinement.trace exec new five_ops =
      some ([.pushed true, .pushed true, .pushed true, .taken (some 8), .taken (some 9)], q) ∧
    ∃ abs, (∀ l, q.queues l = StableQueue.bucket abs l) ∧
      q.hightest_priority = (StableQueue.least abs).elim 16 Level.prio := by
  have hin : ∀ op ∈ five_ops, op.InRange (Config.build 1 (by decide)) := by
    simp [five_ops, Op.InRange, Config.build]
  obtain ⟨outs, q, abs, hq, -, hbucket, -, hprio, -⟩ := refines_stable_queue five_ops hin
  have houts : ((Refinement.trace exec (new : ReadyQueue (Config.build 1 (by decide)) ℕ) five_ops).map Prod.fst) =
      some [.pushed true, .pushed true, .pushed true, .taken (some 8), .taken (some 9)] := by decide +kernel
  rw [hq] at houts
  refine ⟨q, ?_, abs, fun l => (hbucket l).1, hprio⟩
  rw [hq, ← Option.some.inj houts]

/-! ### The priority `take_task` reports -/

/-- In every reachable state `take_task` reports the remaining priority if and only if no task is queued
    or the level it takes from keeps a task. -/
theorem take_task_priority (ops : List (Op τ)) (hin : ∀ op ∈ ops, op.InRange cfg) (outs : List (Output τ))
    (q : ReadyQueue cfg τ) (hrun : Refinement.trace exec new ops = some (outs, q)) :
    q.take_task.1.2 = q.take_task.2.hightest_priority ↔
      (∀ l, q.queues l = []) ∨ ∃ l, (∀ k, k < l → q.queues k = []) ∧ 2 ≤ (q.queues l).length := by
  obtain ⟨outs', q', abs, hq, -, hR⟩ := trace_refines ops hin
  obtain ⟨rfl, rfl⟩ := Prod.mk.inj (Option.some.inj (hq.symm.trans hrun))
  cases hb : q'.best with
  | none =>
    rw [take_task_none hb]
    refine iff_of_true ?_ (Or.inl (best_eq_none.mp hb))
    rw [hightest_priority_eq hR.synced, best_prio, hb]
    rfl
  | some l =>
    obtain ⟨task, rest, hl, htake⟩ := take_task_some hb
    obtain ⟨hne, hmin⟩ := best_eq_some.mp hb
    rw [htake, take_level_prio hR.synced hb, hightest_priority_eq (take_level_synced hR.synced hl)]
    constructor
    · intro heq
      obtain ⟨k, hk, hkne⟩ := best_prio_le.mp heq.ge
      rw [take_level_queues] at hkne
      rcases eq_or_ne k l with rfl | hkl
      · -- something is left of the level
        rw [Function.update_self] at hkne
        refine Or.inr ⟨k, hmin, ?_⟩
        have hpos := List.length_pos_of_ne_nil hkne
        rw [hl, List.length_cons]
        omega
      · rw [Function.update_of_ne hkl] at hkne
        exact absurd (hmin k (lt_of_le_of_ne hk hkl)) hkne
    · rintro (hall | ⟨k, hkmin, hklen⟩)
      · exact absurd (hall l) hne
      · obtain rfl : k = l := by
          rcases lt_trichotomy k l with hlt | heq | hlt
          · simp [hmin k hlt] at hklen
          · exact heq
          · exact absurd (hkmin l hlt) hne
        have hrest : rest ≠ [] := by
          rintro rfl
          simp [hl] at hklen
        have hbest : (q'.take_level k task rest).2.best = some k := by
          refine best_eq_some.mpr ⟨by rwa [take_level_queues, Function.update_self], fun j hj => ?_⟩
          rw [take_level_queues, Function.update_of_ne hj.ne]
          exact hmin j hj
        rw [best_prio, hbest]
        rfl

theorem take_task_priority_two : ∃ q : ReadyQueue (Config.build 1 (by decide)) ℕ,
    (∃ outs, Refinement.trace exec new [.push_task 7 5, .push_task 8 5] = some (outs, q)) ∧
    q.take_task.1.2 = q.take_task.2.hightest_priority := by
  have hin : ∀ op ∈ [Op.push_task 7 5, .push_task 8 5], op.InRange (Config.build 1 (by decide)) := by
    simp [Op.InRange, Config.build]
  obtain ⟨outs, q, -, hq, -, -⟩ := trace_refines [Op.push_task 7 5, .push_task 8 5] hin
  have hlen : ((Refinement.trace exec (new : ReadyQueue (Config.build 1 (by decide)) ℕ)
      [.push_task 7 5, .push_task 8 5]).map fun r => decide ((∀ k : Level _, k < ⟨5, by decide⟩ → r.2.queues k = []) ∧
        2 ≤ (r.2.queues ⟨5, by decide⟩).length)) = some true := by decide +kernel
  rw [hq, Option.map_some, Option.some.injEq, decide_eq_true_eq] at hlen
  exact ⟨q, ⟨outs, hq⟩, (take_task_priority _ hin outs q hq).mpr (Or.inr ⟨_, hlen⟩)⟩

/-- One task of priority 3: taken, it is reported as remaining. -/
theorem take_last_task : ∃ q : ReadyQueue (Config.build 1 (by decide)) ℕ,
    Refinement.trace exec new [.push_task 7 3] = some ([.pushed true], q) ∧
    q.take_task.1 = (some 7, 3) ∧ q.take_task.2.hightest_priority = 16 := by
  have hrun : ((Refinement.trace exec (new : ReadyQueue (Config.build 1 (by decide)) ℕ) [.push_task 7 3]).map fun r =>
      decide (r.1 = [.pushed true] ∧ r.2.take_task.1 = (some 7, 3) ∧ r.2.take_task.2.hightest_priority = 16)) =
      some true := by decide +kernel
  obtain ⟨⟨outs, q⟩, hq, hfacts⟩ := Option.map_eq_some_iff.mp hrun
  obtain ⟨rfl, h₁, h₂⟩ := of_decide_eq_true hfacts
  exact ⟨q, hq, h₁, h₂⟩

end ReadyQueue

end Vsched2
