import Vsched2.EventSource
import Mathlib.Data.List.Range
import Mathlib.Tactic.SplitIfs
import Mathlib.Tactic.ByContra

/-! The global process table (`schedule/process_info.rs`): the slots, the allocation of process ids
    and the choice of the process with the highest priority.

    The choice scans the window `[next_i - N, next_i)` of allocation numbers modulo the table size
    `N`. Every valid slot was allocated under a number below `next_i`, so the window meets it. -/

namespace Vsched2

/-- `ProcessInfo`. The null pointer of `vspace` is 0; `scheduler` is the process whose address space
    holds the scheduler pointed to, if it is not null. -/
structure ProcessInfo (cfg : Config) where
  valid : Bool
  highest_prio : Row cfg
  vspace : ℕ
  scheduler : Option (Pid cfg)

/-- `ProcessInfoTable`. -/
structure ProcessInfoTable (cfg : Config) where
  table : Pid cfg → ProcessInfo cfg
  next_i : ℕ

variable {cfg : Config}

/-- An allocation number modulo `PROCESS_NUM`. -/
def Config.index (cfg : Config) (i : ℕ) : Pid cfg := ⟨i % cfg.process_num, Nat.mod_lt _ cfg.process_pos⟩

/-- Any `PROCESS_NUM` allocation numbers in a row meet every slot. -/
theorem Config.index_cycle (cfg : Config) (n : ℕ) (p : Pid cfg) :
    ∃ k, k < cfg.process_num ∧ cfg.index (n + k) = p := by
  have hN := cfg.process_pos
  have hn : n % cfg.process_num < cfg.process_num := Nat.mod_lt _ hN
  refine ⟨(p + cfg.process_num - n % cfg.process_num) % cfg.process_num, Nat.mod_lt _ hN, Fin.ext ?_⟩
  have hsum : n % cfg.process_num + (p + cfg.process_num - n % cfg.process_num) = p + cfg.process_num := by
    omega
  simp only [Config.index]
  rw [Nat.add_mod_mod, ← Nat.mod_add_mod, hsum, Nat.add_mod_right, Nat.mod_eq_of_lt p.isLt]

namespace ProcessInfoTable

/-- A slot never used. -/
def unused : ProcessInfo cfg where
  valid := false
  highest_prio := fun _ => cfg.isize_max
  vspace := 0
  scheduler := none

/-- `ProcessInfoTable::default`: the kernel is registered in slot 0. -/
def default : ProcessInfoTable cfg where
  table := Function.update (fun _ => unused) .kernel { unused with valid := true }
  next_i := 1

/-- Changes one slot. -/
def set (t : ProcessInfoTable cfg) (p : Pid cfg) (info : ProcessInfo cfg) : ProcessInfoTable cfg :=
  { t with table := Function.update t.table p info }

/-- The loop of `register_process`. It has drawn `index` and stops when it draws `start_index` again,
    after at most `PROCESS_NUM` draws, which the fuel counts. -/
def register_loop (start_index : Pid cfg) :
    ℕ → Pid cfg → ProcessInfoTable cfg → Option (Pid cfg) × ProcessInfoTable cfg
  | 0, _, t => (none, t)
  | fuel + 1, index, t =>
    if (t.table index).valid then
      let index' := cfg.index t.next_i
      let t' := { t with next_i := t.next_i + 1 }
      if index' = start_index then (none, t') else register_loop start_index fuel index' t'
    else (some index, t.set index { t.table index with valid := true })

def register_process (t : ProcessInfoTable cfg) : Option (Pid cfg) × ProcessInfoTable cfg :=
  let start_index := cfg.index t.next_i
  register_loop start_index cfg.process_num start_index { t with next_i := t.next_i + 1 }

/-- The indices the scan of `highest_prio_process` visits. -/
def window (t : ProcessInfoTable cfg) : List (Pid cfg) :=
  let start := if cfg.process_num ≤ t.next_i then t.next_i - cfg.process_num else 0
  (List.range' start (t.next_i - start)).map cfg.index

/-- The loop of `highest_prio_process` with the highest priority met and the processes that have it;
    `none` is the panic of a full vector. -/
def scan (t : ProcessInfoTable cfg) (cpu : Cpu cfg) :
    List (Pid cfg) → ℤ → List (Pid cfg) → Option (ℤ × List (Pid cfg))
  | [], highest_prio, processes => some (highest_prio, processes)
  | index :: rest, highest_prio, processes =>
    let prio := (t.table index).highest_prio cpu
    if (t.table index).valid = false then scan t cpu rest highest_prio processes
    else if prio < highest_prio then scan t cpu rest prio [index]
    else if prio = highest_prio then
      if processes.length < cfg.process_num then scan t cpu rest highest_prio (processes ++ [index])
      else none
    else scan t cpu rest highest_prio processes

/-- `highest_prio_process`; `none` is a panic. -/
def highest_prio_process (t : ProcessInfoTable cfg) (current_process : Pid cfg) (cpu : Cpu cfg) :
    Option (Pid cfg) :=
  (t.scan cpu t.window cfg.isize_max []).bind fun r =>
    if current_process ∈ r.2 then some current_process else r.2[0]?

/-! ### Allocation -/

/-- Every valid slot was allocated under a number below `next_i`. -/
def Allocated (t : ProcessInfoTable cfg) : Prop :=
  ∀ p, (t.table p).valid = true → ∃ i, i < t.next_i ∧ cfg.index i = p

theorem default_allocated : (default : ProcessInfoTable cfg).Allocated := by
  intro p hp
  refine ⟨0, by simp [default], ?_⟩
  by_contra hne
  have hp0 : p ≠ .kernel := by
    rintro rfl
    exact hne (Fin.ext (by simp [Config.index, Pid.kernel]))
  simp [default, Function.update_of_ne hp0, unused] at hp

/-- What `register_process` does to the table: `next_i` grows, and the slot it returns was invalid
    and becomes valid. -/
theorem register_loop_spec (start : Pid cfg) : ∀ (fuel : ℕ) (index : Pid cfg)
    (t t' : ProcessInfoTable cfg) (r : Option (Pid cfg)),
    (∃ i, i < t.next_i ∧ cfg.index i = index) → register_loop start fuel index t = (r, t') →
    t.next_i ≤ t'.next_i ∧ (∀ p, r ≠ some p → t'.table p = t.table p) ∧
    ∀ p, r = some p → (t.table p).valid = false ∧ t'.table p = { t.table p with valid := true } ∧
      ∃ i, i < t'.next_i ∧ cfg.index i = p
  | 0, index, t, t', r, _, h => by
    obtain ⟨rfl, rfl⟩ := Prod.mk.inj h
    exact ⟨le_refl _, fun _ _ => rfl, by simp⟩
  | fuel + 1, index, t, t', r, hi, h => by
    simp only [register_loop] at h
    split at h
    · split at h
      · obtain ⟨rfl, rfl⟩ := Prod.mk.inj h
        exact ⟨Nat.le_succ _, fun _ _ => rfl, by simp⟩
      · have ih := register_loop_spec start fuel _ _ t' r ⟨t.next_i, Nat.lt_succ_self _, rfl⟩ h
        exact ⟨le_trans (Nat.le_succ _) ih.1, ih.2.1, ih.2.2⟩
    · rename_i hv
      obtain ⟨rfl, rfl⟩ := Prod.mk.inj h
      refine ⟨le_refl _, fun p hp => ?_, ?_⟩
      · simp [set, Function.update_of_ne fun hpi : p = index => hp (by rw [hpi])]
      · rintro p hp
        obtain rfl := Option.some.inj hp
        exact ⟨by simpa using hv, by simp [set], hi⟩

theorem register_process_spec {t t' : ProcessInfoTable cfg} {r : Option (Pid cfg)}
    (h : t.register_process = (r, t')) :
    t.next_i < t'.next_i ∧ (∀ p, r ≠ some p → t'.table p = t.table p) ∧
    ∀ p, r = some p → (t.table p).valid = false ∧ t'.table p = { t.table p with valid := true } ∧
      ∃ i, i < t'.next_i ∧ cfg.index i = p := by
  have hspec := register_loop_spec _ _ _ _ t' r ⟨t.next_i, Nat.lt_succ_self _, rfl⟩ h
  exact ⟨hspec.1, hspec.2.1, hspec.2.2⟩

theorem register_process_allocated {t t' : ProcessInfoTable cfg} {r : Option (Pid cfg)}
    (ht : t.Allocated) (h : t.register_process = (r, t')) : t'.Allocated := by
  obtain ⟨hnext, hother, hnew⟩ := register_process_spec h
  intro p hp
  by_cases hr : r = some p
  · exact (hnew p hr).2.2
  · rw [hother p hr] at hp
    obtain ⟨i, hi, hip⟩ := ht p hp
    exact ⟨i, lt_trans hi hnext, hip⟩

/-! ### The scan -/

theorem window_length (t : ProcessInfoTable cfg) : t.window.length ≤ cfg.process_num := by
  simp only [window, List.length_map, List.length_range']
  split_ifs <;> omega

/-- The window meets every valid slot: a full window meets every slot, and a shorter one starts at 0. -/
theorem mem_window {t : ProcessInfoTable cfg} (ht : t.Allocated) {p : Pid cfg}
    (hp : (t.table p).valid = true) : p ∈ t.window := by
  simp only [window, List.mem_map, List.mem_range'_1]
  by_cases hw : cfg.process_num ≤ t.next_i
  · simp only [hw, if_true]
    obtain ⟨k, hk, hkp⟩ := cfg.index_cycle (t.next_i - cfg.process_num) p
    exact ⟨t.next_i - cfg.process_num + k, by omega, hkp⟩
  · simp only [hw, if_false]
    obtain ⟨i, hi, hip⟩ := ht p hp
    exact ⟨i, by omega, hip⟩

/-- What the scan returns: the least priority of the valid slots visited, and those that have it in
    the order of the visit. -/
theorem scan_spec {t : ProcessInfoTable cfg} {cpu : Cpu cfg} :
    ∀ {is : List (Pid cfg)} {hp hp' : ℤ} {ps ps' : List (Pid cfg)},
    t.scan cpu is hp ps = some (hp', ps') →
    hp' ≤ hp ∧ (∀ i ∈ is, (t.table i).valid = true → hp' ≤ (t.table i).highest_prio cpu) ∧
    ps' = (if hp' = hp then ps else []) ++
      is.filter fun i => (t.table i).valid && decide ((t.table i).highest_prio cpu = hp') := by
  intro is
  induction is with
  | nil =>
    intro hp hp' ps ps' h
    simp only [scan, Option.some.injEq, Prod.mk.injEq] at h
    obtain ⟨rfl, rfl⟩ := h
    simp
  | cons i is ih =>
    intro hp hp' ps ps' h
    simp only [scan] at h
    split_ifs at h with hv hlt heq hroom
    · obtain ⟨h1, h2, rfl⟩ := ih h
      exact ⟨h1, by simpa [hv] using h2, by simp [hv]⟩
    all_goals
      obtain ⟨h1, h2, rfl⟩ := ih h
      simp only [Bool.not_eq_false] at hv
    · refine ⟨by omega, by simpa [hv, h1] using h2, ?_⟩
      rw [if_neg (by omega : hp' ≠ hp), List.nil_append, List.filter_cons]
      by_cases he : (t.table i).highest_prio cpu = hp'
      · simp [he, hv]
      · simp [he, hv, Ne.symm he]
    · refine ⟨h1, by simpa [hv, heq, h1] using h2, ?_⟩
      rw [List.filter_cons]
      by_cases he : hp' = hp
      · simp [he, hv, heq]
      · simp [he, hv, heq, Ne.symm he]
    · refine ⟨h1, by simpa [hv] using ⟨by omega, h2⟩, ?_⟩
      have he : (t.table i).highest_prio cpu ≠ hp' := by omega
      simp [he]

/-- The priority found is the initial one or that of a slot visited. -/
theorem scan_attained {t : ProcessInfoTable cfg} {cpu : Cpu cfg} :
    ∀ {is : List (Pid cfg)} {hp hp' : ℤ} {ps ps' : List (Pid cfg)},
    t.scan cpu is hp ps = some (hp', ps') →
    hp' = hp ∨ ∃ i ∈ is, (t.table i).valid = true ∧ (t.table i).highest_prio cpu = hp' := by
  intro is
  induction is with
  | nil =>
    intro hp hp' ps ps' h
    simp only [scan, Option.some.injEq, Prod.mk.injEq] at h
    exact Or.inl h.1.symm
  | cons i is ih =>
    intro hp hp' ps ps' h
    have later : (∃ j ∈ is, (t.table j).valid = true ∧ (t.table j).highest_prio cpu = hp') →
        ∃ j ∈ i :: is, (t.table j).valid = true ∧ (t.table j).highest_prio cpu = hp' :=
      fun ⟨j, hj, hr⟩ => ⟨j, List.mem_cons_of_mem _ hj, hr⟩
    simp only [scan] at h
    split_ifs at h with hv hlt heq hlen
    · exact (ih h).imp_right later
    · right
      rcases ih h with heq | hex
      · exact ⟨i, List.mem_cons_self .., by simpa using hv, heq.symm⟩
      · exact later hex
    · exact (ih h).imp_right later
    · exact (ih h).imp_right later

/-- The vector of candidates has room for the window. -/
theorem scan_isSome {t : ProcessInfoTable cfg} {cpu : Cpu cfg} :
    ∀ {is : List (Pid cfg)} {hp : ℤ} {ps : List (Pid cfg)},
    ps.length + is.length ≤ cfg.process_num → ∃ r, t.scan cpu is hp ps = some r := by
  intro is
  induction is with
  | nil =>
    intro hp ps _
    exact ⟨_, rfl⟩
  | cons i is ih =>
    intro hp ps h
    rw [List.length_cons] at h
    simp only [scan]
    split
    · exact ih (by omega)
    · split
      · exact ih (by rw [List.length_singleton]; omega)
      · split
        · rw [if_pos (by omega)]
          exact ih (by rw [List.length_append, List.length_singleton]; omega)
        · exact ih (by omega)

/-- Only a valid process is selected. -/
theorem highest_prio_process_valid {t : ProcessInfoTable cfg} {current p : Pid cfg} {cpu : Cpu cfg}
    (h : t.highest_prio_process current cpu = some p) : (t.table p).valid = true := by
  simp only [highest_prio_process, Option.bind_eq_some_iff] at h
  obtain ⟨⟨hp, ps⟩, hscan, h⟩ := h
  obtain ⟨-, -, hps⟩ := scan_spec hscan
  have hmem : p ∈ ps := by
    split at h
    · rename_i hcur
      rwa [← Option.some.inj h]
    · exact List.mem_of_getElem? h
  rw [hps] at hmem
  simp only [ite_self, List.nil_append, List.mem_filter, Bool.and_eq_true] at hmem
  exact hmem.2.1

/-- `highest_prio_process` does not panic while some process is valid. It returns a valid process of the
    least published priority: the first of them if the current process is asked before the window. -/
theorem highest_prio_process_spec {t : ProcessInfoTable cfg} (ht : t.Allocated) {current : Pid cfg}
    (hsome : ∃ p, (t.table p).valid = true) {cpu : Cpu cfg}
    (hmax : ∀ p, (t.table p).valid = true → (t.table p).highest_prio cpu ≤ cfg.isize_max) :
    ∃ p, t.highest_prio_process current cpu = some p ∧ (t.table p).valid = true ∧
      (∀ q, (t.table q).valid = true → (t.table p).highest_prio cpu ≤ (t.table q).highest_prio cpu) ∧
      ∃ before after, current :: t.window = before ++ p :: after ∧ ∀ q ∈ before,
        (t.table q).valid = true → (t.table p).highest_prio cpu < (t.table q).highest_prio cpu := by
  obtain ⟨⟨hp, ps⟩, hscan⟩ :=
    @scan_isSome cfg t cpu t.window cfg.isize_max [] (by simpa using t.window_length)
  obtain ⟨-, hle, hps⟩ := scan_spec hscan
  rw [ite_self, List.nil_append] at hps
  have hmem : ∀ p, p ∈ ps ↔ p ∈ t.window ∧ (t.table p).valid = true ∧ (t.table p).highest_prio cpu = hp := by
    intro p
    simp [hps]
  have hmin : ∀ q, (t.table q).valid = true → hp ≤ (t.table q).highest_prio cpu :=
    fun q hq => hle q (mem_window ht hq) hq
  simp only [highest_prio_process, hscan, Option.bind_some]
  by_cases hcur : current ∈ ps
  · obtain ⟨-, hcv, hcp⟩ := (hmem current).mp hcur
    exact ⟨current, by simp [hcur], hcv, fun q hq => by rw [hcp]; exact hmin q hq,
      [], t.window, rfl, by simp⟩
  · have hcne : (t.table current).valid = true → (t.table current).highest_prio cpu ≠ hp :=
      fun hcv heq => hcur ((hmem current).mpr ⟨mem_window ht hcv, hcv, heq⟩)
    -- some slot was met with the priority found, as that is below the initial one
    obtain ⟨i, hi⟩ : ∃ i, i ∈ ps := by
      rcases scan_attained hscan with heq | ⟨i, hi, hiv, hip⟩
      · -- then the priorities of all valid slots are the initial one
        obtain ⟨q, hq⟩ := hsome
        exact ⟨q, (hmem q).mpr ⟨mem_window ht hq, hq, le_antisymm (by rw [heq]; exact hmax q hq) (hmin q hq)⟩⟩
      · exact ⟨i, (hmem i).mpr ⟨hi, hiv, hip⟩⟩
    obtain ⟨p, rest, hcons⟩ := List.exists_cons_of_ne_nil (List.ne_nil_of_mem hi)
    obtain ⟨-, hpv, hpp⟩ := (hmem p).mp (by simp [hcons])
    obtain ⟨before, after, hw, hbefore, -, -⟩ := List.filter_eq_cons_iff.mp (hps.symm.trans hcons)
    refine ⟨p, by rw [if_neg hcur]; simp [hcons], hpv, fun q hq => by rw [hpp]; exact hmin q hq,
      current :: before, after, by simp [hw], fun q hq hqv => ?_⟩
    rw [hpp]
    have hqle := hmin q hqv
    have hqne : (t.table q).highest_prio cpu ≠ hp := by
      rcases List.mem_cons.mp hq with rfl | hq
      · exact hcne hqv
      · simpa [hqv] using hbefore q hq
    omega

end ProcessInfoTable

end Vsched2
