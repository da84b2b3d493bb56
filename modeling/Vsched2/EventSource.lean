import Vsched2.Interface

/-! Event sources (`schedule/event_source.rs`) and the part of `scheduler.rs` that works on an
    arbitrary list of them: the search for the two least priorities and `pop_task`.

    A source is the pair of functions of its vtable over the shared state `σ`. The kernel and the
    user addresses of a source and of its functions name one object, so there is one of each here. -/

namespace Vsched2

/-- `EventSourceVtable` with the object it is for. `take_task` returns `none` when the call does not
    return. -/
structure EventSource (cfg : Config) (σ τ : Type) where
  hightest_priority : σ → Cpu cfg → ℤ
  take_task : σ → Cpu cfg → Option ((Option τ × ℤ) × σ)
  is_prio_per_cpu : Bool

/-- The row `PROCESS_INFO_TABLE.table[global_index].highest_prio`. -/
abbrev Row (cfg : Config) := Cpu cfg → ℤ

/-- `update_prio`; `none` is the argument `-1`, for all CPUs. -/
def update_prio {cfg : Config} (row : Row cfg) (prio : ℤ) : Option (Cpu cfg) → Row cfg
  | none => fun _ => prio
  | some cpu => Function.update row cpu prio

/-- The closure of the fold in `pop_task`, on (index, priority) pairs; the index `none` is
    `usize::MAX`. -/
def fold_two (acc : (Option ℕ × ℤ) × (Option ℕ × ℤ)) (current : Option ℕ × ℤ) :
    (Option ℕ × ℤ) × (Option ℕ × ℤ) :=
  if current.2 < acc.1.2 then (current, acc.1)
  else if current.2 < acc.2.2 then (acc.1, current)
  else acc

/-- Of two priorities the first wins unless the second is strictly less. -/
theorem fold_two_left {a b top : ℤ} (ha : a < top) (hab : a ≤ b) :
    ∃ m : Option ℕ × ℤ, a ≤ m.2 ∧
      fold_two (fold_two ((none, top), (none, top)) (some 0, a)) (some 1, b) = ((some 0, a), m) := by
  simp only [fold_two, ha, if_true, not_lt.mpr hab, if_false]
  split
  · exact ⟨_, hab, rfl⟩
  · exact ⟨_, le_of_lt ha, rfl⟩

theorem fold_two_right {a b top : ℤ} (hba : b < a) (ha : a ≤ top) :
    ∃ m : Option ℕ × ℤ, m.2 = a ∧
      fold_two (fold_two ((none, top), (none, top)) (some 0, a)) (some 1, b) = ((some 1, b), m) := by
  have hb : b < top := lt_of_lt_of_le hba ha
  by_cases hat : a < top
  · exact ⟨(some 0, a), rfl, by simp [fold_two, hat, hba]⟩
  · exact ⟨(none, top), le_antisymm (not_lt.mp hat) ha, by simp [fold_two, hat, hb]⟩

variable {cfg : Config} {σ τ : Type}

/-- `hightest_priority` over a list of sources. -/
def sources_priority (sources : List (EventSource cfg σ τ)) (s : σ) (cpu : Cpu cfg) : ℤ :=
  (sources.map fun source => source.hightest_priority s cpu).foldl
    (fun a b => if a < b then a else b) cfg.isize_max

theorem foldl_least_le : ∀ (prios : List ℤ) (top : ℤ),
    prios.foldl (fun a b => if a < b then a else b) top ≤ top := by
  intro prios
  induction prios with
  | nil => exact le_refl
  | cons prio prios ih =>
    intro top
    rw [List.foldl_cons]
    refine le_trans (ih _) ?_
    split_ifs <;> omega

theorem foldl_least_le_mem {prio : ℤ} : ∀ (prios : List ℤ) (top : ℤ), prio ∈ prios →
    prios.foldl (fun a b => if a < b then a else b) top ≤ prio := by
  intro prios
  induction prios with
  | nil => simp
  | cons p prios ih =>
    intro top hmem
    rw [List.foldl_cons]
    rcases List.mem_cons.mp hmem with rfl | hmem
    · refine le_trans (foldl_least_le prios _) ?_
      split_ifs <;> omega
    · exact ih _ hmem

/-- The two least priorities with their indices, as `pop_task` finds them. -/
def two_least (sources : List (EventSource cfg σ τ)) (s : σ) (cpu : Cpu cfg) :
    (Option ℕ × ℤ) × (Option ℕ × ℤ) :=
  ((sources.map fun source => source.hightest_priority s cpu).zipIdx.map
    fun p => (some p.2, p.1)).foldl fold_two ((none, cfg.isize_max), (none, cfg.isize_max))

/-- `pop_task`: the task and the priority it returns, the state and the row it leaves. -/
def pop_task (sources : List (EventSource cfg σ τ)) (cpu : Cpu cfg) (s : σ) (row : Row cfg) :
    Option ((Option τ × ℤ) × σ × Row cfg) :=
  let least := two_least sources s cpu
  match least.1.1.bind fun i => sources[i]? with
  | none => some ((none, cfg.isize_max), s, update_prio row cfg.isize_max (some cpu))
  | some source =>
    (source.take_task s cpu).map fun r =>
      let prio := if r.1.2 < least.2.2 then r.1.2 else least.2.2
      ((r.1.1, prio), r.2,
        update_prio row prio (if source.is_prio_per_cpu then some cpu else none))

@[simp] theorem update_prio_all (row : Row cfg) (prio : ℤ) (c : Cpu cfg) :
    update_prio row prio none c = prio := rfl

@[simp] theorem update_prio_self (row : Row cfg) (prio : ℤ) (c : Cpu cfg) :
    update_prio row prio (some c) c = prio := by simp [update_prio]

theorem update_prio_of_ne (row : Row cfg) (prio : ℤ) {c d : Cpu cfg} (h : d ≠ c) :
    update_prio row prio (some c) d = row d := by simp [update_prio, h]

end Vsched2
