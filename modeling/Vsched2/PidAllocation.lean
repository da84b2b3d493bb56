import Vsched2.ProcessInfo
import Vsched2.Lib.Run
import Mathlib.Data.List.Nodup
import Mathlib.Data.Nat.ModEq

/-! The allocation of process ids over whole histories of `register_process` and
    `unregister_process`, and the choice of a process in the tables they reach.

    `register_process` draws the allocation numbers from `next_i` on. Within `PROCESS_NUM` draws every
    slot comes up once, and the next draw is the first index again, where the loop ends. -/

namespace Vsched2

variable {cfg : Config}

theorem Config.index_add_process_num (n : ℕ) : cfg.index (n + cfg.process_num) = cfg.index n := by
  apply Fin.ext
  simp [Config.index]

/-- Before `PROCESS_NUM` further draws the first index does not come up again. -/
theorem Config.index_add_ne {n k : ℕ} (hk : 0 < k) (hlt : k < cfg.process_num) :
    cfg.index (n + k) ≠ cfg.index n := by
  intro h
  have hmod : Nat.ModEq cfg.process_num (n + k) (n + 0) := congrArg Fin.val h
  have hdvd : cfg.process_num ∣ k := (Nat.modEq_zero_iff_dvd).mp hmod.add_left_cancel'
  exact absurd (Nat.le_of_dvd hk hdvd) (by omega)

namespace ProcessInfoTable

/-- `unregister_process`: the address space it deallocates, 0 for none, and whether the slot was valid. -/
def unregister_process (t : ProcessInfoTable cfg) (index : Pid cfg) : (ℕ × Bool) × ProcessInfoTable cfg :=
  let info := t.table index
  ((info.vspace, info.valid), t.set index { info with vspace := 0, valid := false })

/-- Other priorities are published; nothing else changes. -/
def publish (t : ProcessInfoTable cfg) (prio : Pid cfg → Row cfg) : ProcessInfoTable cfg :=
  { t with table := fun p => { t.table p with highest_prio := prio p } }

/-! ### The search -/

/-- The loop of `register_process` as it stands, without fuel: having drawn `index` it ends and returns
    `r`. -/
inductive Registers (start_index : Pid cfg) :
    Pid cfg → ProcessInfoTable cfg → Option (Pid cfg) → ProcessInfoTable cfg → Prop
  | found {index t} (hv : (t.table index).valid = false) :
      Registers start_index index t (some index) (t.set index { t.table index with valid := true })
  | full {index t} (hv : (t.table index).valid = true) (hlast : cfg.index t.next_i = start_index) :
      Registers start_index index t none { t with next_i := t.next_i + 1 }
  | next {index t r t'} (hv : (t.table index).valid = true) (hnext : cfg.index t.next_i ≠ start_index)
      (hrest : Registers start_index (cfg.index t.next_i) { t with next_i := t.next_i + 1 } r t') :
      Registers start_index index t r t'

/-- The first slot that is not valid, in cyclic order from the allocation number `n`. -/
def FirstFree (t : ProcessInfoTable cfg) (n : ℕ) : Option (Pid cfg) → Prop
  | none => ∀ p, (t.table p).valid = true
  | some p => ∃ k, k < cfg.process_num ∧ cfg.index (n + k) = p ∧ (t.table p).valid = false ∧
      ∀ j, j < k → (t.table (cfg.index (n + j))).valid = true

/-- After `k` draws that met valid slots only, the fuel that is left is enough. -/
theorem register_loop_first {n : ℕ} {fuel : ℕ} : ∀ {k : ℕ} {t : ProcessInfoTable cfg},
    k + (fuel + 1) = cfg.process_num → t.next_i = n + k + 1 →
    (∀ j, j < k → (t.table (cfg.index (n + j))).valid = true) →
    ∃ r t', register_loop (cfg.index n) (fuel + 1) (cfg.index (n + k)) t = (r, t') ∧
      Registers (cfg.index n) (cfg.index (n + k)) t r t' ∧ t.FirstFree n r := by
  induction fuel with
  | zero =>
    intro k t hk hnext hpast
    rw [register_loop]
    cases hv : (t.table (cfg.index (n + k))).valid with
    | false => exact ⟨_, _, rfl, .found hv, k, by omega, rfl, hv, hpast⟩
    | true =>
      -- the last slot of the cycle
      have hlast : cfg.index t.next_i = cfg.index n := by
        rw [hnext, Nat.add_assoc, hk, Config.index_add_process_num]
      refine ⟨none, { t with next_i := t.next_i + 1 }, by simp [hlast], .full hv hlast, fun p => ?_⟩
      obtain ⟨j, hj, rfl⟩ := cfg.index_cycle n p
      rcases Nat.lt_or_ge j k with hlt | hge
      · exact hpast j hlt
      · rwa [show j = k by omega]
  | succ fuel ih =>
    intro k t hk hnext hpast
    rw [register_loop]
    cases hv : (t.table (cfg.index (n + k))).valid with
    | false => exact ⟨_, _, rfl, .found hv, k, by omega, rfl, hv, hpast⟩
    | true =>
      have hne : cfg.index t.next_i ≠ cfg.index n := by
        rw [hnext, Nat.add_assoc]
        exact Config.index_add_ne (by omega) (by omega)
      obtain ⟨r, t', hloop, hreg, hfirst⟩ := @ih (k + 1) { t with next_i := t.next_i + 1 } (by omega)
        (by simp [hnext, Nat.add_assoc]) fun j hj => by
          rcases Nat.lt_succ_iff_lt_or_eq.mp hj with hlt | rfl
          · exact hpast j hlt
          · exact hv
      rw [← Nat.add_assoc, ← hnext] at hloop hreg
      refine ⟨r, t', ?_, .next hv hne hreg, ?_⟩
      · simpa [hne] using hloop
      · cases r with
        | none => exact hfirst
        | some p => exact hfirst

/-- `register_process` ends, and finds the first free slot. -/
theorem register_process_first (t : ProcessInfoTable cfg) : ∃ r t', t.register_process = (r, t') ∧
    Registers (cfg.index t.next_i) (cfg.index t.next_i) { t with next_i := t.next_i + 1 } r t' ∧
    t.FirstFree t.next_i r := by
  obtain ⟨fuel, hfuel⟩ := Nat.exists_eq_succ_of_ne_zero cfg.process_pos.ne'
  obtain ⟨r, t', hloop, hreg, hfirst⟩ := @register_loop_first cfg t.next_i fuel 0 { t with next_i := t.next_i + 1 }
    (by omega) rfl fun j hj => absurd hj (Nat.not_lt_zero j)
  refine ⟨r, t', by rw [register_process, hfuel]; exact hloop, hreg, ?_⟩
  cases r with
  | none => exact hfirst
  | some p => exact hfirst

theorem FirstFree.none_iff {t : ProcessInfoTable cfg} {n : ℕ} {r : Option (Pid cfg)} (h : t.FirstFree n r) :
    r = none ↔ ∀ p, (t.table p).valid = true := by
  cases r with
  | none => exact ⟨fun _ => h, fun _ => rfl⟩
  | some p =>
    obtain ⟨k, -, -, hv, -⟩ := h
    refine ⟨fun hr => by simp at hr, fun hall => ?_⟩
    rw [hall p] at hv
    cases hv

theorem unregister_process_other (t : ProcessInfoTable cfg) {p q : Pid cfg} (h : q ≠ p) :
    (t.unregister_process p).2.table q = t.table q := by
  simp [unregister_process, set, h]

theorem unregister_process_self (t : ProcessInfoTable cfg) (p : Pid cfg) :
    ((t.unregister_process p).2.table p).valid = false := by
  simp [unregister_process, set]

theorem unregister_process_allocated {t : ProcessInfoTable cfg} (ht : t.Allocated) (p : Pid cfg) :
    (t.unregister_process p).2.Allocated := by
  intro q hq
  rcases eq_or_ne q p with rfl | hne
  · simp [unregister_process_self] at hq
  · rw [unregister_process_other t hne] at hq
    exact ht q hq

end ProcessInfoTable

/-! ### Histories -/

/-- The table with the pids that are live, and all that `register_process` ever returned. -/
structure Pids (cfg : Config) where
  info : ProcessInfoTable cfg
  live : List (Pid cfg)
  returned : List (Pid cfg)

/-- The calls of a history. -/
inductive PidCall (cfg : Config) where
  | register_process
  | unregister_process (index : Pid cfg)
  deriving DecidableEq

namespace Pids

def boot (cfg : Config) : Pids cfg := ⟨.default, [], []⟩

def step (s : Pids cfg) : PidCall cfg → Option (Pids cfg)
  | .register_process =>
    let r := s.info.register_process
    some ⟨r.2, r.1.toList ++ s.live, r.1.toList ++ s.returned⟩
  | .unregister_process index =>
    some { s with info := (s.info.unregister_process index).2, live := s.live.filter fun p => p ≠ index }

/-- Only indices that `register_process` returned are unregistered. -/
def Returned (s : Pids cfg) : PidCall cfg → Prop
  | .register_process => True
  | .unregister_process index => index ∈ s.returned

/-- The live pids are valid slots, each once, and every valid slot was allocated. -/
structure Inv (s : Pids cfg) : Prop where
  allocated : s.info.Allocated
  valid : ∀ p ∈ s.live, (s.info.table p).valid = true
  nodup : s.live.Nodup

/-- The kernel keeps its slot. -/
structure KernelInv (s : Pids cfg) : Prop where
  valid : (s.info.table .kernel).valid = true
  not_returned : Pid.kernel ∉ s.returned

variable {s s' : Pids cfg} {call : PidCall cfg}

/-- What one call does: a pid returned was free and is valid now, an index unregistered is free. -/
theorem step_cases (h : s.step call = some s') :
    (call = .register_process ∧ ∃ r, s.info.register_process = (r, s'.info) ∧
      s'.live = r.toList ++ s.live ∧ s'.returned = r.toList ++ s.returned) ∨
    (∃ p, call = .unregister_process p ∧ s'.info = (s.info.unregister_process p).2 ∧
      s'.live = s.live.filter (fun q => q ≠ p) ∧ s'.returned = s.returned) := by
  cases call with
  | register_process =>
    obtain rfl := Option.some.inj h
    exact Or.inl ⟨rfl, _, rfl, rfl, rfl⟩
  | unregister_process p =>
    obtain rfl := Option.some.inj h
    exact Or.inr ⟨p, rfl, rfl, rfl, rfl⟩

theorem boot_inv : (boot cfg).Inv :=
  ⟨ProcessInfoTable.default_allocated, by simp [boot], by simp [boot]⟩

theorem step_inv (hI : s.Inv) (h : s.step call = some s') : s'.Inv := by
  rcases step_cases h with ⟨-, r, hreg, hlive, -⟩ | ⟨p, -, hinfo, hlive, -⟩
  · obtain ⟨-, hother, hnew⟩ := ProcessInfoTable.register_process_spec hreg
    refine ⟨ProcessInfoTable.register_process_allocated hI.allocated hreg, ?_, ?_⟩
    · intro q hq
      by_cases hr : r = some q
      · simp [(hnew q hr).2.1]
      · rw [hother q hr]
        have hq' : q ∈ s.live := by
          rw [hlive, List.mem_append, Option.mem_toList] at hq
          exact hq.resolve_left hr
        exact hI.valid q hq'
    · rw [hlive]
      cases r with
      | none => simpa using hI.nodup
      | some p =>
        have hp : p ∉ s.live := by
          intro hmem
          have hv := hI.valid p hmem
          rw [(hnew p rfl).1] at hv
          cases hv
        simpa [hp] using hI.nodup
  · refine ⟨by rw [hinfo]; exact ProcessInfoTable.unregister_process_allocated hI.allocated p, ?_, ?_⟩
    · intro q hq
      rw [hlive, List.mem_filter, decide_eq_true_eq] at hq
      rw [hinfo, ProcessInfoTable.unregister_process_other _ hq.2]
      exact hI.valid q hq.1
    · rw [hlive]
      exact hI.nodup.filter _

theorem run_inv {calls : List (PidCall cfg)} (h : Runs.run step (boot cfg) calls = some s) : s.Inv :=
  Runs.run_invariant (fun _ _ _ hI hs => step_inv hI hs) calls boot_inv h

theorem boot_kernel : (boot cfg).KernelInv :=
  ⟨by simp [boot, ProcessInfoTable.default], by simp [boot]⟩

theorem step_kernel (hK : s.KernelInv) (hg : s.Returned call) (h : s.step call = some s') : s'.KernelInv := by
  rcases step_cases h with ⟨-, r, hreg, -, hret⟩ | ⟨p, rfl, hinfo, -, hret⟩
  · obtain ⟨-, hother, hnew⟩ := ProcessInfoTable.register_process_spec hreg
    have hr : r ≠ some .kernel := by
      intro hr
      have hv := hK.valid
      rw [(hnew _ hr).1] at hv
      cases hv
    refine ⟨by rw [hother _ hr]; exact hK.valid, ?_⟩
    rw [hret, List.mem_append, Option.mem_toList]
    exact not_or.mpr ⟨hr, hK.not_returned⟩
  · have hne : Pid.kernel ≠ p := by
      rintro rfl
      exact hK.not_returned hg
    refine ⟨by rw [hinfo, ProcessInfoTable.unregister_process_other _ hne]; exact hK.valid, ?_⟩
    rw [hret]
    exact hK.not_returned

/-- In every table that the calls reach, `register_process` ends; it fails exactly when no slot is free,
    and otherwise claims the first free slot from `next_i` on. The live pids are pairwise distinct. -/
theorem register_process_cyclic (cfg : Config) (calls : List (PidCall cfg)) (s : Pids cfg)
    (hrun : Runs.run step (boot cfg) calls = some s) :
    (∃ r t', s.info.register_process = (r, t') ∧
      ProcessInfoTable.Registers (cfg.index s.info.next_i) (cfg.index s.info.next_i)
        { s.info with next_i := s.info.next_i + 1 } r t' ∧
      (r = none ↔ ∀ p, (s.info.table p).valid = true) ∧
      (r = none → ∀ p, (t'.table p).valid = (s.info.table p).valid) ∧
      ∀ p, r = some p →
        (∃ k, k < cfg.process_num ∧ cfg.index (s.info.next_i + k) = p ∧ (s.info.table p).valid = false ∧
          ∀ j, j < k → (s.info.table (cfg.index (s.info.next_i + j))).valid = true) ∧
        (∀ q, (t'.table q).valid = true ↔ (s.info.table q).valid = true ∨ q = p) ∧
        ((s.info.table .kernel).valid = true → p ≠ .kernel)) ∧
    s.live.Nodup ∧ ∀ p ∈ s.live, (s.info.table p).valid = true := by
  have hI := run_inv hrun
  obtain ⟨r, t', hreg, hends, hfirst⟩ := s.info.register_process_first
  obtain ⟨-, hother, hnew⟩ := ProcessInfoTable.register_process_spec hreg
  refine ⟨⟨r, t', hreg, hends, hfirst.none_iff, ?_, ?_⟩, hI.nodup, hI.valid⟩
  · rintro rfl p
    rw [hother p (by simp)]
  · rintro p rfl
    refine ⟨hfirst, fun q => ?_, ?_⟩
    · rcases eq_or_ne q p with rfl | hne
      · simp [(hnew q rfl).2.1]
      · rw [hother q fun he => hne (Option.some.inj he).symm]
        simp [hne]
    · rintro hk rfl
      rw [(hnew _ rfl).1] at hk
      cases hk

/-- Two processes are registered, and the first is unregistered. -/
def two_one : List (PidCall solo) := [.register_process, .register_process, .unregister_process solo_pid]

theorem register_process_cyclic_two_one : ∃ s, Runs.run step (boot solo) two_one = some s ∧ s.live.Nodup ∧
    s.info.register_process.1 ≠ none := by
  have hrun : ((Runs.run step (boot solo) two_one).map fun s =>
      decide ((s.info.table solo_pid).valid = false)) = some true := by decide +kernel
  obtain ⟨s, hs, hfree⟩ := Option.map_eq_some_iff.mp hrun
  obtain ⟨⟨r, t', hreg, -, hnone, -⟩, hnodup, -⟩ := register_process_cyclic solo two_one s hs
  refine ⟨s, hs, hnodup, fun h => ?_⟩
  rw [hreg] at h
  rw [hnone.mp h] at hfree
  simp at hfree

/-- In every table reached by unregistering returned indices only, and under any priorities, a valid
    process of the least priority is chosen, the current one if it is such a process. -/
theorem highest_prio_process_least (cfg : Config) (calls : List (PidCall cfg)) (s : Pids cfg)
    (hrun : Runs.run step (boot cfg) calls = some s) (hguard : Runs.Along step Returned (boot cfg) calls)
    (prio : Pid cfg → Row cfg) (hmax : ∀ p c, prio p c ≤ cfg.isize_max) (current : Pid cfg) (cpu : Cpu cfg) :
    ∃ p, (s.info.publish prio).highest_prio_process current cpu = some p ∧ (s.info.table p).valid = true ∧
      (∀ q, (s.info.table q).valid = true → prio p cpu ≤ prio q cpu) ∧
      ((s.info.table current).valid = true →
        (∀ q, (s.info.table q).valid = true → prio current cpu ≤ prio q cpu) → p = current) := by
  have hI := run_inv hrun
  have hK : s.KernelInv :=
    Runs.along_invariant (fun _ _ _ hK hg hs => step_kernel hK hg hs) calls boot_kernel hguard hrun
  obtain ⟨p, hp, hv, hle, before, after, hsplit, hbefore⟩ :=
    @ProcessInfoTable.highest_prio_process_spec cfg (s.info.publish prio) hI.allocated current
      ⟨.kernel, hK.valid⟩ cpu fun p _ => hmax p cpu
  refine ⟨p, hp, hv, hle, fun hcv hcle => ?_⟩
  cases before with
  | nil =>
    rw [List.nil_append, List.cons.injEq] at hsplit
    exact hsplit.1.symm
  | cons q before =>
    -- the current process would come before, with a greater priority
    rw [List.cons_append, List.cons.injEq] at hsplit
    have hlt : prio p cpu < prio current cpu := hbefore current (by simp [hsplit.1]) hcv
    exact absurd (hcle p hv) (not_le.mpr hlt)

instance (s : Pids cfg) : ∀ call, Decidable (s.Returned call)
  | .register_process => isTrue trivial
  | .unregister_process index => inferInstanceAs (Decidable (index ∈ s.returned))

/-- With equal priorities the current process stays. -/
theorem highest_prio_process_least_tie : ∃ s : Pids solo,
    Runs.run step (boot solo) [.register_process] = some s ∧
    (s.info.publish fun _ _ => 3).highest_prio_process solo_pid solo_cpu = some solo_pid := by
  have hrun : ((Runs.run step (boot solo) [.register_process]).map fun s =>
      (s.info.table solo_pid).valid) = some true := by decide +kernel
  obtain ⟨s, hs, hvalid⟩ := Option.map_eq_some_iff.mp hrun
  obtain ⟨p, hp, -, -, hcur⟩ := highest_prio_process_least solo [.register_process] s hs (by decide +kernel)
    (fun _ _ => 3) (by decide +kernel) solo_pid solo_cpu
  exact ⟨s, hs, by rw [hp, hcur hvalid fun _ _ => le_refl _]⟩

end Pids

end Vsched2
