import Vsched2.EventSource

/-! The registered event sources of a scheduler: the entries of its list, and the two functions that
    insert and remove one.

    A position counted from the end is off by one. `register_event_source` documents the position -1 as
    the end of the new list and accepts the positions from `-len - 1` to `len`, but it inserts at
    `len + index`: -1 gives the last position but one, and `-len - 1` the index `usize::MAX`, at which
    the insertion panics. -/

namespace Vsched2

/-- `EventSourceVtable`: the functions of a source for the kernel and for user space. -/
structure EventSourceVtable (cfg : Config) (σ τ : Type) where
  kernel_hightest_priority : ℕ → σ → Cpu cfg → ℤ
  user_hightest_priority : ℕ → σ → Cpu cfg → ℤ
  kernel_take_task : ℕ → σ → Cpu cfg → Option ((Option τ × ℤ) × σ)
  user_take_task : ℕ → σ → Cpu cfg → Option ((Option τ × ℤ) × σ)
  is_prio_per_cpu : Bool

/-- `EventSourceEntry`. Pointers are addresses, and 0 is the null pointer. -/
structure EventSourceEntry (cfg : Config) (σ τ : Type) where
  kernel_data : ℕ
  user_data : ℕ
  vtable : EventSourceVtable cfg σ τ

variable {cfg : Config} {σ τ : Type}

def EventSourceVtable.hightest_priority (vtable : EventSourceVtable cfg σ τ) (ptr : ℕ) (in_kernel : Bool) :
    σ → Cpu cfg → ℤ :=
  if in_kernel then vtable.kernel_hightest_priority ptr else vtable.user_hightest_priority ptr

def EventSourceVtable.take_task (vtable : EventSourceVtable cfg σ τ) (ptr : ℕ) (in_kernel : Bool) :
    σ → Cpu cfg → Option ((Option τ × ℤ) × σ) :=
  if in_kernel then vtable.kernel_take_task ptr else vtable.user_take_task ptr

def EventSourceEntry.data (entry : EventSourceEntry cfg σ τ) (in_kernel : Bool) : ℕ :=
  if in_kernel then entry.kernel_data else entry.user_data

/-- The source of an entry as one privilege level sees it. -/
def EventSourceEntry.source (in_kernel : Bool) (entry : EventSourceEntry cfg σ τ) : EventSource cfg σ τ where
  hightest_priority := entry.vtable.hightest_priority (entry.data in_kernel) in_kernel
  take_task := entry.vtable.take_task (entry.data in_kernel) in_kernel
  is_prio_per_cpu := entry.vtable.is_prio_per_cpu

/-- `Scheduler::in_kernel` with the flags `IN_KERNEL`. -/
def in_kernel (global_index : Pid cfg) (IN_KERNEL : Cpu cfg → Bool) (cpu : Cpu cfg) : Bool :=
  global_index = .kernel || IN_KERNEL cpu

/-- An `isize` as a `usize`. -/
def Config.as_usize (cfg : Config) (i : ℤ) : ℕ := (if 0 ≤ i then i else i + 2 * (cfg.isize_max + 1)).toNat

/-- `insert` of a vector of capacity `cap`: `none` is the panic at an index beyond the end, `some none`
    the error of a full vector. -/
def vec_insert {α : Type} (cap : ℕ) (v : List α) (index : ℕ) (a : α) : Option (Option (List α)) :=
  if v.length < index then none else some (if v.length < cap then some (v.insertIdx index a) else none)

/-- The scheduler that a call works on: its index, the CPU of the call with its flag, and the state of
    all sources. -/
structure SchedulerCall (cfg : Config) (σ : Type) where
  global_index : Pid cfg
  IN_KERNEL : Cpu cfg → Bool
  cpu_id : Cpu cfg
  state : σ

namespace SchedulerCall

variable (c : SchedulerCall cfg σ)

def in_kernel : Bool := Vsched2.in_kernel c.global_index c.IN_KERNEL c.cpu_id

/-- `get_and_update_all_prio_with_guard`. -/
def get_and_update_all_prio (sources : List (EventSourceEntry cfg σ τ)) (row : Row cfg) : Row cfg :=
  update_prio row (sources_priority (sources.map (EventSourceEntry.source c.in_kernel)) c.state c.cpu_id) none

/-- The index at which `register_event_source` inserts. -/
def insert_index (cfg : Config) (len : ℕ) (index : ℤ) : ℕ :=
  if 0 ≤ index then cfg.as_usize index else cfg.as_usize (len + index)

/-- `register_event_source`: whether it succeeded, with the list and the row; `none` is a panic. -/
def register_event_source (entry : EventSourceEntry cfg σ τ) (index : ℤ)
    (sources : List (EventSourceEntry cfg σ τ)) (row : Row cfg) :
    Option (Bool × List (EventSourceEntry cfg σ τ) × Row cfg) :=
  if entry.kernel_data = 0 ∨ entry.user_data = 0 then some (false, sources, row)
  else if index > (sources.length : ℤ) ∨ index < -(sources.length : ℤ) - 1 then some (false, sources, row)
  else
    (vec_insert cfg.event_sorce_num sources (insert_index cfg sources.length index) entry).map fun
      | none => (false, sources, row)
      | some sources' => (true, sources', c.get_and_update_all_prio sources' row)

/-- `unregister_event_source`. -/
def unregister_event_source (event_source : ℕ) (sources : List (EventSourceEntry cfg σ τ)) (row : Row cfg) :
    Bool × List (EventSourceEntry cfg σ τ) × Row cfg :=
  match sources.findIdx? fun source => source.data c.in_kernel = event_source with
  | some index =>
    let sources' := sources.eraseIdx index
    (true, sources', c.get_and_update_all_prio sources' row)
  | none => (false, sources, row)

/-! ### The place of an insertion -/

/-- The position in the new list that `index` asks for: `index`, or the `|index|`-th from the end. -/
def position (len : ℕ) (index : ℤ) : ℕ := (if 0 ≤ index then index else len + 1 + index).toNat

/-- What a registration is to do: it returns, succeeds just for the positions of the new list, and then
    stands at the one asked for, where `unregister_event_source` finds it; a failure changes nothing. -/
structure Positioned (entry : EventSourceEntry cfg σ τ) (index : ℤ) (sources : List (EventSourceEntry cfg σ τ))
    (row : Row cfg) : Prop where
  returns : sources.length < cfg.event_sorce_num → ∃ ok r,
    c.register_event_source entry index sources row = some (ok, r) ∧
    (ok = true ↔ -(sources.length : ℤ) - 1 ≤ index ∧ index ≤ sources.length)
  placed : ∀ sources' row', c.register_event_source entry index sources row = some (true, sources', row') →
    sources'.length = sources.length + 1 ∧ sources'[position sources.length index]? = some entry ∧
    sources'.eraseIdx (position sources.length index) = sources ∧
    ((∀ source ∈ sources, source.data c.in_kernel ≠ entry.data c.in_kernel) → ∃ row'',
      c.unregister_event_source (entry.data c.in_kernel) sources' row' = (true, sources, row''))
  unchanged : ∀ sources' row', c.register_event_source entry index sources row = some (false, sources', row') →
    sources' = sources ∧ row' = row

variable {c : SchedulerCall cfg σ} {entry : EventSourceEntry cfg σ τ} {index : ℤ}
  {sources : List (EventSourceEntry cfg σ τ)} {row : Row cfg} {k : ℕ}

theorem insert_index_of_nonneg {len : ℕ} (h : 0 ≤ index) : insert_index cfg len index = index.toNat := by
  simp [insert_index, Config.as_usize, h]

theorem insert_index_of_neg {len : ℕ} (h : index < 0) (hle : -(len : ℤ) ≤ index) :
    insert_index cfg len index = (len + index).toNat := by
  have hpos : 0 ≤ (len : ℤ) + index := by omega
  simp [insert_index, Config.as_usize, not_le.mpr h, hpos]

/-- At the least position accepted the index is `usize::MAX`. -/
theorem lt_insert_index {len : ℕ} (hmin : -(cfg.isize_max + 1) ≤ index) (h : index = -(len : ℤ) - 1) :
    len < insert_index cfg len index := by
  have hneg : ¬ 0 ≤ index := by omega
  have hneg' : ¬ 0 ≤ (len : ℤ) + index := by omega
  rw [insert_index, if_neg hneg, Config.as_usize, if_neg hneg']
  omega

/-- The insertion at `k`, in a list with room. -/
theorem register_eq_insert (hk : entry.kernel_data ≠ 0) (hu : entry.user_data ≠ 0)
    (hroom : sources.length < cfg.event_sorce_num)
    (hindex : -(sources.length : ℤ) - 1 ≤ index ∧ index ≤ sources.length)
    (hat : insert_index cfg sources.length index = k) (hle : k ≤ sources.length) :
    c.register_event_source entry index sources row =
      some (true, sources.insertIdx k entry, c.get_and_update_all_prio (sources.insertIdx k entry) row) := by
  have hin : ¬ (index > (sources.length : ℤ) ∨ index < -(sources.length : ℤ) - 1) := by omega
  simp [register_event_source, vec_insert, hk, hu, hin, hat, not_lt.mpr hle, hroom]

theorem register_panics (hk : entry.kernel_data ≠ 0) (hu : entry.user_data ≠ 0)
    (hmin : -(cfg.isize_max + 1) ≤ index) (h : index = -(sources.length : ℤ) - 1) :
    c.register_event_source entry index sources row = none := by
  have hin : ¬ (index > (sources.length : ℤ) ∨ index < -(sources.length : ℤ) - 1) := by omega
  simp [register_event_source, vec_insert, hk, hu, hin, lt_insert_index hmin h]

/-- A failure leaves the list and the priorities, whatever its reason. -/
theorem register_failed {sources' : List (EventSourceEntry cfg σ τ)} {row' : Row cfg}
    (h : c.register_event_source entry index sources row = some (false, sources', row')) :
    sources' = sources ∧ row' = row := by
  simp only [register_event_source] at h
  split at h
  · simp only [Option.some.injEq, Prod.mk.injEq, true_and] at h
    exact ⟨h.1.symm, h.2.symm⟩
  · split at h
    · simp only [Option.some.injEq, Prod.mk.injEq, true_and] at h
      exact ⟨h.1.symm, h.2.symm⟩
    · obtain ⟨r, -, hr⟩ := Option.map_eq_some_iff.mp h
      cases r with
      | none =>
        simp only [Prod.mk.injEq, true_and] at hr
        exact ⟨hr.1.symm, hr.2.symm⟩
      | some sources' => simp at hr

/-- A success has inserted the entry, in a list with room and at a position accepted. -/
theorem register_succeeded {sources' : List (EventSourceEntry cfg σ τ)} {row' : Row cfg}
    (h : c.register_event_source entry index sources row = some (true, sources', row')) :
    sources.length < cfg.event_sorce_num ∧ -(sources.length : ℤ) - 1 ≤ index ∧ index ≤ sources.length ∧
    insert_index cfg sources.length index ≤ sources.length ∧
    sources' = sources.insertIdx (insert_index cfg sources.length index) entry := by
  simp only [register_event_source] at h
  split at h
  · simp at h
  · split at h
    · simp at h
    · rename_i hin
      obtain ⟨r, hr, hr'⟩ := Option.map_eq_some_iff.mp h
      cases r with
      | none => simp at hr'
      | some inserted =>
        simp only [Prod.mk.injEq, true_and] at hr'
        simp only [vec_insert] at hr
        split at hr
        · cases hr
        · rename_i hle
          split at hr
          · rename_i hroom
            simp only [Option.some.injEq] at hr
            exact ⟨hroom, by omega, by omega, by omega, by rw [← hr'.1, hr]⟩
          · simp at hr

/-- Removing a source that was not in the list before gives the list back, wherever it was inserted. -/
theorem unregister_insert (hnew : ∀ source ∈ sources, source.data c.in_kernel ≠ entry.data c.in_kernel)
    (hle : k ≤ sources.length) (row' : Row cfg) : ∃ row'',
    c.unregister_event_source (entry.data c.in_kernel) (sources.insertIdx k entry) row' = (true, sources, row'') := by
  have hfind : (sources.insertIdx k entry).findIdx?
      (fun source => decide (source.data c.in_kernel = entry.data c.in_kernel)) = some k := by
    rw [List.findIdx?_eq_some_iff_getElem]
    refine ⟨by rw [List.length_insertIdx_of_le_length hle]; omega, ?_, fun j hj => ?_⟩
    · simp
    · have hjlt : j < sources.length := by omega
      rw [List.getElem_insertIdx_of_lt hj]
      simpa using hnew _ (List.getElem_mem hjlt)
  exact ⟨c.get_and_update_all_prio sources row', by simp [unregister_event_source, hfind]⟩

/-- An entry put at `k` stands at `k + 1` only if its equal stood at `k`. -/
theorem insertIdx_succ_iff {α : Type} {l : List α} {k : ℕ} {a : α} (hk : k < l.length) :
    (l.insertIdx k a)[k + 1]? = some a ∧ (l.insertIdx k a).eraseIdx (k + 1) = l ↔ l[k]? = some a := by
  have hnext : (l.insertIdx k a)[k + 1]? = l[k]? := by
    rw [List.getElem?_insertIdx_of_gt (show k < k + 1 by omega), Nat.add_sub_cancel]
  rw [hnext]
  refine ⟨And.left, fun ha => ⟨ha, ?_⟩⟩
  obtain ⟨hlt, hget⟩ := List.getElem?_eq_some_iff.mp ha
  have hsame : l.insertIdx k a = l.insertIdx (k + 1) a := by
    apply List.ext_getElem?
    intro j
    rcases Nat.lt_trichotomy j k with hj | rfl | hj
    · rw [List.getElem?_insertIdx_of_lt hj, List.getElem?_insertIdx_of_lt (by omega)]
    · rw [List.getElem?_insertIdx_of_lt (Nat.lt_succ_self j), ha, List.getElem?_insertIdx_self]
      simp [hk.le]
    · rw [List.getElem?_insertIdx_of_gt hj]
      rcases Nat.lt_or_ge (k + 1) j with hj' | hj'
      · rw [List.getElem?_insertIdx_of_gt hj']
      · obtain rfl : j = k + 1 := by omega
        have hle : k + 1 ≤ l.length := hk
        rw [List.getElem?_insertIdx_self, if_pos hle, Nat.add_sub_cancel, ha]
  rw [hsame, List.eraseIdx_insertIdx_self]

/-- In a list with room a source is put where it was asked for if and only if the position is counted
    from the front, or not accepted at all, or its equal stands at the place chosen. -/
theorem positioned_iff (c : SchedulerCall cfg σ) (entry : EventSourceEntry cfg σ τ) (index : ℤ)
    (sources : List (EventSourceEntry cfg σ τ)) (row : Row cfg)
    (hnull : entry.kernel_data ≠ 0 ∧ entry.user_data ≠ 0)
    (hisize : -(cfg.isize_max + 1) ≤ index ∧ index ≤ cfg.isize_max) :
    c.Positioned entry index sources row ↔ (sources.length < cfg.event_sorce_num →
      0 ≤ index ∨ index < -(sources.length : ℤ) - 1 ∨
      ∃ k : ℕ, (k : ℤ) = sources.length + index ∧ sources[k]? = some entry) := by
  obtain ⟨hk, hu⟩ := hnull
  constructor
  · intro hP hroom
    by_contra hcond
    push Not at hcond
    obtain ⟨hneg, hge, hother⟩ := hcond
    rcases eq_or_ne index (-(sources.length : ℤ) - 1) with hmin | hmin
    · obtain ⟨ok, r, hreg, -⟩ := hP.returns hroom
      rw [register_panics hk hu hisize.1 hmin] at hreg
      cases hreg
    · -- the entry went to the place before the one asked for
      obtain ⟨k, hkeq⟩ : ∃ k : ℕ, (k : ℤ) = sources.length + index := ⟨(sources.length + index).toNat, by omega⟩
      have hat : insert_index cfg sources.length index = k := by
        rw [insert_index_of_neg hneg (by omega)]
        omega
      have hpos : position sources.length index = k + 1 := by
        rw [position, if_neg (by omega)]
        omega
      have hklt : k < sources.length := by omega
      obtain ⟨-, hget, herase, -⟩ := hP.placed _ _
        (register_eq_insert hk hu hroom (by omega) hat hklt.le)
      rw [hpos] at hget herase
      exact hother k hkeq ((insertIdx_succ_iff hklt).mp ⟨hget, herase⟩)
  · intro hcond
    refine ⟨fun hroom => ?_, fun sources' row' h => ?_, fun sources' row' h => register_failed h⟩
    · by_cases hin : -(sources.length : ℤ) - 1 ≤ index ∧ index ≤ sources.length
      · obtain ⟨k, hat, hle⟩ : ∃ k, insert_index cfg sources.length index = k ∧ k ≤ sources.length := by
          rcases hcond hroom with hpos | hout | ⟨k, hkeq, hget⟩
          · exact ⟨index.toNat, insert_index_of_nonneg hpos, by omega⟩
          · omega
          · obtain ⟨hlt, -⟩ := List.getElem?_eq_some_iff.mp hget
            rcases lt_or_ge index 0 with hneg | hpos
            · exact ⟨k, by rw [insert_index_of_neg hneg (by omega)]; omega, hlt.le⟩
            · exact ⟨index.toNat, insert_index_of_nonneg hpos, by omega⟩
        exact ⟨true, _, register_eq_insert hk hu hroom hin hat hle, by simp [hin]⟩
      · have hout : index > (sources.length : ℤ) ∨ index < -(sources.length : ℤ) - 1 := by omega
        exact ⟨false, (sources, row), by simp [register_event_source, hk, hu, hout], by simp; omega⟩
    · obtain ⟨hroom, hge, hle, hat, rfl⟩ := register_succeeded h
      refine ⟨List.length_insertIdx_of_le_length hat _, ?_⟩
      rw [← and_assoc]
      refine ⟨?_, fun hnew => unregister_insert hnew hat row'⟩
      rcases lt_or_ge index 0 with hneg | hpos
      · obtain ⟨k, hkeq, hget⟩ := ((hcond hroom).resolve_left (by omega)).resolve_left (by omega)
        obtain ⟨hlt, -⟩ := List.getElem?_eq_some_iff.mp hget
        have hki : insert_index cfg sources.length index = k := by
          rw [insert_index_of_neg hneg (by omega)]
          omega
        have hpos : position sources.length index = k + 1 := by
          rw [position, if_neg (by omega)]
          omega
        rw [hki, hpos]
        exact (insertIdx_succ_iff hlt).mpr hget
      · have hsame : position sources.length index = insert_index cfg sources.length index := by
          rw [insert_index_of_nonneg hpos, position, if_pos hpos]
        rw [hsame]
        exact ⟨by simp [List.getElem?_insertIdx_self, hat], List.eraseIdx_insertIdx_self _⟩

/-- A source without tasks at two addresses. -/
def idle_source (kernel_data user_data : ℕ) : EventSourceEntry solo Unit TaskPtr where
  kernel_data := kernel_data
  user_data := user_data
  vtable :=
    { kernel_hightest_priority := fun _ _ _ => 16
      user_hightest_priority := fun _ _ _ => 16
      kernel_take_task := fun _ s _ => some ((none, 16), s)
      user_take_task := fun _ s _ => some ((none, 16), s)
      is_prio_per_cpu := false }

/-- A call in the kernel. -/
def kernel_call : SchedulerCall solo Unit := ⟨.kernel, fun _ => true, solo_cpu, ()⟩

theorem positioned_iff_front : kernel_call.Positioned (idle_source 32 32) 0 [idle_source 16 16] (fun _ => 16) :=
  (positioned_iff kernel_call (idle_source 32 32) 0 [idle_source 16 16] (fun _ => 16) (by decide) (by decide)).mpr
    fun _ => Or.inl (le_refl 0)

/-- At -1 the source comes before the last one, and at -2 in a list of one the call panics. -/
theorem registered_before_the_end :
    ¬ kernel_call.Positioned (idle_source 32 32) (-1) [idle_source 16 16] (fun _ => 16) ∧
    kernel_call.register_event_source (idle_source 32 32) (-1) [idle_source 16 16] (fun _ => 16) =
      some (true, [idle_source 32 32, idle_source 16 16], fun _ => 16) ∧
    kernel_call.register_event_source (idle_source 32 32) (-2) [idle_source 16 16] (fun _ => 16) = none := by
  have hreg : kernel_call.register_event_source (idle_source 32 32) (-1) [idle_source 16 16] (fun _ => 16) =
      some (true, [idle_source 32 32, idle_source 16 16], fun _ => 16) := rfl
  refine ⟨fun hP => ?_, hreg, rfl⟩
  obtain ⟨-, hlast, -⟩ := hP.placed _ _ hreg
  have hdata : (16 : ℕ) = 32 := congrArg EventSourceEntry.kernel_data (Option.some.inj hlast)
  omega

end SchedulerCall

end Vsched2
