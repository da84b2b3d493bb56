import Vsched2.Interface
import Vsched2.Lib.Search
import Mathlib.Tactic.SplitIfs

/-! The ready queue (`schedule/ready_queue.rs`): one deque for each priority level and a bitmap of
    the non-empty levels, with its highest bit for `HIGHEST_PRIORITY` and a sentinel bit below the
    last level. Here the operations run one at a time. -/

namespace Vsched2

/-- `highest_one`: the highest set bit. -/
def highest_one (bitmap : BitVec 64) : Option ℕ :=
  Search.last (fun index => bitmap &&& (1#64 <<< index) != 0#64) 63

/-- `highest_one(bitmap).map_or(-1, |i| i as isize)`, turned into a priority. -/
def bitmap_prio (cfg : Config) (bitmap : BitVec 64) : ℤ :=
  63 + cfg.highest_priority - (highest_one bitmap).elim (-1) (fun i => (i : ℤ))

structure ReadyQueue (cfg : Config) (τ : Type) where
  queues : Level cfg → List τ
  prio_bitmap : BitVec 64

/-- The bit of a level, `1 << (63 - prio + HIGHEST_PRIORITY)`. -/
def Level.mask {cfg : Config} (l : Level cfg) : BitVec 64 := 1#64 <<< (63 - (l : ℕ))

namespace ReadyQueue

variable {cfg : Config} {τ : Type}

def new : ReadyQueue cfg τ where
  queues := fun _ => []
  prio_bitmap := if cfg.priority_levels ≤ 63 then 1#64 <<< (63 - cfg.priority_levels) else 0#64

/-- `push_task` for a task whose priority names level `l`; the error returns the task. -/
def push_level (q : ReadyQueue cfg τ) (l : Level cfg) (task : τ) : Except τ (ReadyQueue cfg τ) :=
  if (q.queues l).length < cfg.ready_queue_size then
    .ok { queues := Function.update q.queues l (q.queues l ++ [task])
          prio_bitmap := q.prio_bitmap ||| l.mask }
  else .error task

/-- `push_task` with `prio` the value `task.priority()` returns; `none` is the panic of the index. -/
def push_task (q : ReadyQueue cfg τ) (task : τ) (prio : ℤ) :
    Option (Except τ (ReadyQueue cfg τ)) :=
  (cfg.level prio).map fun l => q.push_level l task

def hightest_priority (q : ReadyQueue cfg τ) : ℤ := bitmap_prio cfg q.prio_bitmap

/-- The loop body of `take_task` once `pop_front` returned a task. `fetch_and` returns the bitmap as
    it was, and the next priority is read off that value. -/
def take_level (q : ReadyQueue cfg τ) (l : Level cfg) (task : τ) (rest : List τ) :
    (Option τ × ℤ) × ReadyQueue cfg τ :=
  let queues := Function.update q.queues l rest
  if rest.isEmpty then
    let new_bitmap := q.prio_bitmap
    ((some task, bitmap_prio cfg new_bitmap), ⟨queues, q.prio_bitmap &&& ~~~l.mask⟩)
  else ((some task, l.prio), ⟨queues, q.prio_bitmap⟩)

/-- The loop of `take_task` over the levels still to visit. -/
def take_from (q : ReadyQueue cfg τ) : List (Level cfg) → (Option τ × ℤ) × ReadyQueue cfg τ
  | [] => ((none, cfg.lowest_priority + 1), q)
  | l :: ls =>
    match q.queues l with
    | [] => q.take_from ls
    | task :: rest => q.take_level l task rest

def take_task (q : ReadyQueue cfg τ) : (Option τ × ℤ) × ReadyQueue cfg τ :=
  q.take_from (List.finRange cfg.priority_levels)

/-! ### The bitmap read as a set of levels -/

theorem one_shift_getLsbD {i : ℕ} (hi : i < 64) (j : ℕ) :
    (1#64 <<< i).getLsbD j = decide (j = i) := by
  rw [← BitVec.twoPow_eq, BitVec.getLsbD_twoPow]
  simp [hi, eq_comm]

theorem and_one_shift_ne (b : BitVec 64) {i : ℕ} (hi : i < 64) :
    (b &&& (1#64 <<< i) != 0#64) = b.getLsbD i := by
  have hbit : (1#64 <<< i) ≠ 0#64 := by
    intro hz
    have h := one_shift_getLsbD hi i
    simp [hz] at h
  rw [← BitVec.twoPow_eq, BitVec.and_twoPow]
  cases b.getLsbD i with
  | false => simp
  | true => simpa [BitVec.twoPow_eq] using hbit

theorem highest_one_eq_some {b : BitVec 64} {i : ℕ} : highest_one b = some i ↔
    i ≤ 63 ∧ b.getLsbD i = true ∧ ∀ j, i < j → j ≤ 63 → b.getLsbD j = false := by
  rw [highest_one, Search.last_eq_some]
  constructor
  · rintro ⟨hi, hp, hmax⟩
    rw [and_one_shift_ne b (by omega)] at hp
    refine ⟨hi, hp, fun j hj hj' => ?_⟩
    rw [← and_one_shift_ne b (by omega)]; exact hmax j hj hj'
  · rintro ⟨hi, hp, hmax⟩
    refine ⟨hi, ?_, fun j hj hj' => ?_⟩
    · rw [and_one_shift_ne b (by omega)]; exact hp
    · rw [and_one_shift_ne b (by omega)]; exact hmax j hj hj'

theorem highest_one_eq_none {b : BitVec 64} :
    highest_one b = none ↔ ∀ j ≤ 63, b.getLsbD j = false := by
  rw [highest_one, Search.last_eq_none]
  refine forall_congr' fun j => forall_congr' fun hj => ?_
  rw [and_one_shift_ne b (by omega)]

theorem mask_getLsbD (l : Level cfg) (j : ℕ) : l.mask.getLsbD j = decide (j = 63 - (l : ℕ)) :=
  one_shift_getLsbD (by omega) j

/-- The bitmap agrees with the deques: a bit is set for a non-empty level and for the sentinel. -/
def Synced (q : ReadyQueue cfg τ) : Prop :=
  ∀ k ≤ 63, q.prio_bitmap.getLsbD (63 - k) = true ↔
    (∃ l : Level cfg, (l : ℕ) = k ∧ q.queues l ≠ []) ∨ k = cfg.priority_levels

/-- The least non-empty level. -/
def best (q : ReadyQueue cfg τ) : Option (Level cfg) :=
  Search.first fun l => !(q.queues l).isEmpty

/-- The priority that `best` stands for. -/
def best_prio (q : ReadyQueue cfg τ) : ℤ := q.best.elim (cfg.lowest_priority + 1) Level.prio

theorem best_eq_some {q : ReadyQueue cfg τ} {l : Level cfg} :
    q.best = some l ↔ q.queues l ≠ [] ∧ ∀ m, m < l → q.queues m = [] := by
  simp [best, Search.first_eq_some]

theorem best_eq_none {q : ReadyQueue cfg τ} : q.best = none ↔ ∀ l, q.queues l = [] := by
  simp [best, Search.first_eq_none]

/-- No task is queued above level `l`. -/
theorem le_best_prio {q : ReadyQueue cfg τ} {l : Level cfg} :
    l.prio ≤ q.best_prio ↔ ∀ m, m < l → q.queues m = [] := by
  rw [best_prio]
  cases hb : q.best with
  | none =>
    have hall := best_eq_none.mp hb
    have hl := l.prio_le
    simp only [Option.elim_none, hall, implies_true, iff_true]; omega
  | some k =>
    obtain ⟨hne, hmin⟩ := best_eq_some.mp hb
    simp only [Option.elim_some, ← not_lt, Level.prio_lt_iff]
    constructor
    · intro h m hm
      exact hmin m (lt_of_lt_of_le hm (not_lt.mp h))
    · intro h hk
      exact hne (h k hk)

theorem best_prio_le {q : ReadyQueue cfg τ} {l : Level cfg} :
    q.best_prio ≤ l.prio ↔ ∃ m, m ≤ l ∧ q.queues m ≠ [] := by
  rw [best_prio]
  cases hb : q.best with
  | none =>
    have hall := best_eq_none.mp hb
    have hl := l.prio_le
    simp only [Option.elim_none, hall, ne_eq, not_true_eq_false, and_false, exists_false, iff_false]
    omega
  | some k =>
    obtain ⟨hne, hmin⟩ := best_eq_some.mp hb
    simp only [Option.elim_some, ← not_lt, Level.prio_lt_iff]
    constructor
    · exact fun h => ⟨k, h, hne⟩
    · rintro ⟨m, hm, hmne⟩ hk
      exact hm (lt_of_lt_of_le hk (not_lt.mp fun hlt => hmne (hmin m hlt)))

theorem new_synced : (new : ReadyQueue cfg τ).Synced := by
  intro k hk
  simp only [new, ne_eq, not_true_eq_false, and_false, exists_false, false_or]
  split
  · rename_i hl
    rw [one_shift_getLsbD (by omega), decide_eq_true_iff]; omega
  · rename_i hl
    simp; omega

/-- Under `Synced` the bitmap gives the least non-empty level, or one below the last level. -/
theorem hightest_priority_eq {q : ReadyQueue cfg τ} (hs : q.Synced) :
    q.hightest_priority = q.best_prio := by
  have hlow := @lowest_eq cfg
  have h64 := @levels_le_64 cfg
  rw [hightest_priority, bitmap_prio, best_prio]
  cases hb : q.best with
  | some l =>
    obtain ⟨hne, hmin⟩ := best_eq_some.mp hb
    have hl := l.isLt
    have hone : highest_one q.prio_bitmap = some (63 - (l : ℕ)) := by
      rw [highest_one_eq_some]
      refine ⟨by omega, (hs l (by omega)).mpr (Or.inl ⟨l, rfl, hne⟩), fun j hj hj' => ?_⟩
      rw [← Bool.not_eq_true]
      intro hset
      have hk := (hs (63 - j) (by omega)).mp (by rwa [show 63 - (63 - j) = j by omega])
      rcases hk with ⟨m, hm, hmne⟩ | hk
      · exact hmne (hmin m (by rw [Fin.lt_def]; omega))
      · omega
    simp only [hone, Option.elim_some, Level.prio]; omega
  | none =>
    have hall := best_eq_none.mp hb
    rcases Nat.lt_or_ge 63 cfg.priority_levels with hfull | hroom
    · have hnone : highest_one q.prio_bitmap = none := by
        rw [highest_one_eq_none]
        intro j hj
        rw [← Bool.not_eq_true]
        intro hset
        have hk := (hs (63 - j) (by omega)).mp (by rwa [show 63 - (63 - j) = j by omega])
        rcases hk with ⟨m, -, hmne⟩ | hk
        · exact hmne (hall m)
        · omega
      simp only [hnone, Option.elim_none]; omega
    · have hone : highest_one q.prio_bitmap = some (63 - cfg.priority_levels) := by
        rw [highest_one_eq_some]
        refine ⟨by omega, (hs _ hroom).mpr (Or.inr rfl), fun j hj hj' => ?_⟩
        rw [← Bool.not_eq_true]
        intro hset
        have hk := (hs (63 - j) (by omega)).mp (by rwa [show 63 - (63 - j) = j by omega])
        rcases hk with ⟨m, -, hmne⟩ | hk
        · exact hmne (hall m)
        · omega
      simp only [hone, Option.elim_some, Option.elim_none]; omega

/-! ### One lemma for each operation -/

theorem push_level_synced {q q' : ReadyQueue cfg τ} {l : Level cfg} {task : τ} (hs : q.Synced)
    (h : q.push_level l task = .ok q') : q'.Synced := by
  simp only [push_level] at h
  split at h
  · obtain rfl := Except.ok.inj h
    intro k hk
    have hl := l.isLt
    have h64 := @levels_le_64 cfg
    rw [BitVec.getLsbD_or, Bool.or_eq_true, hs k hk, mask_getLsbD, decide_eq_true_iff]
    constructor
    · rintro ((⟨m, hm, hne⟩ | hk') | heq)
      · refine Or.inl ⟨m, hm, ?_⟩
        rcases eq_or_ne m l with rfl | hml
        · simp
        · simpa [Function.update_of_ne hml] using hne
      · exact Or.inr hk'
      · exact Or.inl ⟨l, by omega, by simp⟩
    · rintro (⟨m, hm, hne⟩ | hk')
      · rcases eq_or_ne m l with rfl | hml
        · exact Or.inr (by omega)
        · exact Or.inl (Or.inl ⟨m, hm, by simpa [Function.update_of_ne hml] using hne⟩)
      · exact Or.inl (Or.inr hk')
  · simp at h

theorem push_level_queues {q q' : ReadyQueue cfg τ} {l : Level cfg} {task : τ}
    (h : q.push_level l task = .ok q') :
    q'.queues = Function.update q.queues l (q.queues l ++ [task]) := by
  simp only [push_level] at h
  split at h
  · rw [← Except.ok.inj h]
  · simp at h

theorem take_from_eq (q : ReadyQueue cfg τ) : ∀ ls : List (Level cfg), q.take_from ls =
    match ls.find? fun l => !(q.queues l).isEmpty with
    | none => ((none, cfg.lowest_priority + 1), q)
    | some l =>
      match q.queues l with
      | [] => ((none, cfg.lowest_priority + 1), q)
      | task :: rest => q.take_level l task rest := by
  intro ls
  induction ls with
  | nil => rfl
  | cons l ls ih =>
    cases hq : q.queues l with
    | nil =>
      simp only [take_from, hq, List.find?_cons, List.isEmpty_nil, Bool.not_true]
      exact ih
    | cons task rest => simp [take_from, hq]

/-- `take_task` on an empty queue. -/
theorem take_task_none {q : ReadyQueue cfg τ} (hb : q.best = none) :
    q.take_task = ((none, cfg.lowest_priority + 1), q) := by
  have hf : (List.finRange cfg.priority_levels).find? (fun l => !(q.queues l).isEmpty) = none := hb
  rw [take_task, take_from_eq, hf]

/-- `take_task` takes the oldest task of the least non-empty level. -/
theorem take_task_some {q : ReadyQueue cfg τ} {l : Level cfg} (hb : q.best = some l) :
    ∃ task rest, q.queues l = task :: rest ∧ q.take_task = q.take_level l task rest := by
  have hf : (List.finRange cfg.priority_levels).find? (fun l => !(q.queues l).isEmpty) = some l := hb
  obtain ⟨hne, -⟩ := best_eq_some.mp hb
  cases hq : q.queues l with
  | nil => exact absurd hq hne
  | cons task rest => exact ⟨task, rest, rfl, by rw [take_task, take_from_eq, hf]; simp [hq]⟩

theorem take_level_queues (q : ReadyQueue cfg τ) (l : Level cfg) (task : τ) (rest : List τ) :
    (q.take_level l task rest).2.queues = Function.update q.queues l rest := by
  simp only [take_level]; split <;> rfl

theorem take_level_fst (q : ReadyQueue cfg τ) (l : Level cfg) (task : τ) (rest : List τ) :
    (q.take_level l task rest).1.1 = some task := by
  simp only [take_level]; split <;> rfl

/-- The priority `take_task` reports is the one of the level it took from, also when that level has
    become empty: `fetch_and` hands back the bitmap with the level's bit still in it. -/
theorem take_level_prio {q : ReadyQueue cfg τ} (hs : q.Synced) {l : Level cfg} (hb : q.best = some l)
    (task : τ) (rest : List τ) : (q.take_level l task rest).1.2 = l.prio := by
  have hp := hightest_priority_eq hs
  simp only [take_level]
  split
  · simpa [best_prio, hb, hightest_priority] using hp
  · rfl

theorem take_level_synced {q : ReadyQueue cfg τ} (hs : q.Synced) {l : Level cfg} {task : τ}
    {rest : List τ} (hq : q.queues l = task :: rest) : (q.take_level l task rest).2.Synced := by
  have hl := l.isLt
  have h64 := @levels_le_64 cfg
  simp only [take_level]
  split
  · rename_i hrest
    obtain rfl := List.isEmpty_iff.mp hrest
    intro k hk
    rw [BitVec.getLsbD_and, BitVec.getLsbD_not, mask_getLsbD, Bool.and_eq_true, hs k hk]
    constructor
    · rintro ⟨⟨m, hm, hne⟩ | hk', hmask⟩
      · refine Or.inl ⟨m, hm, ?_⟩
        have hml : m ≠ l := by
          rintro rfl
          simp at hmask; omega
        simpa [Function.update_of_ne hml] using hne
      · exact Or.inr hk'
    · rintro (⟨m, hm, hne⟩ | hk')
      · have hml : m ≠ l := by
          rintro rfl
          simp at hne
        have hmv : (m : ℕ) ≠ l := fun h => hml (Fin.ext h)
        refine ⟨Or.inl ⟨m, hm, by simpa [Function.update_of_ne hml] using hne⟩, ?_⟩
        simp; omega
      · refine ⟨Or.inr hk', ?_⟩
        simp; omega
  · rename_i hrest
    intro k hk
    rw [hs k hk]
    refine or_congr (exists_congr fun m => and_congr_right fun _ => ?_) Iff.rfl
    rcases eq_or_ne m l with rfl | hml
    · simp [hq, List.isEmpty_iff] at hrest ⊢; exact hrest
    · simp [Function.update_of_ne hml]

end ReadyQueue

end Vsched2
