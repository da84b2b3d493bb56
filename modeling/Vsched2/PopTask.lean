import Vsched2.ProcessInfo
import Vsched2.EventSourceEntry
import Vsched2.Scheduler
import Mathlib.Order.Bounds.Basic

/-! `pop_task` over any list of event sources that keep the contract of the trait.

    The fold over the priorities keeps the leftmost least one, and as the second the least of all the
    others, ties included. So after the take the second component only has to be compared with what the
    chosen source has left. The scheduler's own two sources are one such list. -/

namespace Vsched2

variable {cfg : Config} {σ τ : Type}

/-! ### The contract -/

/-- The exact priority of a set of ready tasks: the least of theirs, or one below the lowest. -/
structure Exact (cfg : Config) (priority : τ → ℤ) (ready : Set τ) (prio : ℤ) : Prop where
  empty : ready = ∅ → prio = cfg.lowest_priority + 1
  least : ready.Nonempty → IsLeast (Set.image priority ready) prio ∧ prio ≤ cfg.lowest_priority

/-- The contract of the trait `EventSource`, for a source whose ready tasks are `ready`. -/
structure Contract (source : EventSource cfg σ τ) (priority : τ → ℤ) (ready : σ → Cpu cfg → Set τ) (s : σ)
    (cpu : Cpu cfg) : Prop where
  exact : Exact cfg priority (ready s cpu) (source.hightest_priority s cpu)
  below : source.hightest_priority s cpu < cfg.isize_max
  takes : ∃ r s', source.take_task s cpu = some ((r, source.hightest_priority s' cpu), s') ∧
    source.hightest_priority s' cpu < cfg.isize_max ∧
    Exact cfg priority (ready s' cpu) (source.hightest_priority s' cpu) ∧ (r = none ↔ ready s cpu = ∅) ∧
    ∀ task, r = some task → task ∈ ready s cpu ∧ priority task = source.hightest_priority s cpu

/-- The sources do not interfere: a task taken from one leaves the priorities of the others. -/
def Apart (sources : List (EventSource cfg σ τ)) (s : σ) (cpu : Cpu cfg) : Prop :=
  ∀ (i j : ℕ) (source other : EventSource cfg σ τ), i ≠ j → sources[i]? = some source →
    sources[j]? = some other → ∀ r s', source.take_task s cpu = some (r, s') →
      other.hightest_priority s' cpu = other.hightest_priority s cpu

theorem Exact.none_iff {priority : τ → ℤ} {ready : Set τ} {prio : ℤ} (h : Exact cfg priority ready prio) :
    ready = ∅ ↔ cfg.lowest_priority + 1 ≤ prio := by
  constructor
  · intro he
    exact (h.empty he).ge
  · intro hle
    by_contra hne
    obtain ⟨-, hlow⟩ := h.least (Set.nonempty_iff_ne_empty.mpr hne)
    omega

/-! ### The fold -/

/-- What the fold has found in the priorities: the leftmost least, and the least of all the others. -/
structure TwoLeast (top : ℤ) (prios : List ℤ) (acc : (Option ℕ × ℤ) × (Option ℕ × ℤ)) : Prop where
  nil : prios = [] → acc.1 = (none, top)
  first : prios ≠ [] → ∃ i, acc.1.1 = some i ∧ prios[i]? = some acc.1.2 ∧
    ∀ j a, j < i → prios[j]? = some a → acc.1.2 < a
  first_le : acc.1.2 ≤ top ∧ ∀ a ∈ prios, acc.1.2 ≤ a
  second : acc.2.2 = top ∨ ∃ j, acc.1.1 ≠ some j ∧ prios[j]? = some acc.2.2
  second_le : acc.2.2 ≤ top ∧ ∀ j a, acc.1.1 ≠ some j → prios[j]? = some a → acc.2.2 ≤ a

theorem getElem?_concat_iff {α : Type} {l : List α} {a b : α} {j : ℕ} :
    (l ++ [b])[j]? = some a ↔ l[j]? = some a ∨ j = l.length ∧ b = a := by
  rcases Nat.lt_trichotomy j l.length with hj | rfl | hj
  · rw [List.getElem?_append_left hj]
    simp [hj.ne]
  · simp
  · rw [List.getElem?_eq_none (by simp; omega), List.getElem?_eq_none (by omega)]
    simp [hj.ne']

section

variable {top b : ℤ} {prios : List ℤ} {acc : (Option ℕ × ℤ) × (Option ℕ × ℤ)}

/-- The least so far is at an index of the list, so not at the next one. -/
theorem TwoLeast.index_ne (h : TwoLeast top prios acc) : acc.1.1 ≠ some prios.length := by
  rcases eq_or_ne prios [] with hnil | hne
  · simp [h.nil hnil]
  · obtain ⟨i, hi, hget, -⟩ := h.first hne
    obtain ⟨hlt, -⟩ := List.getElem?_eq_some_iff.mp hget
    rw [hi]
    intro he
    exact hlt.ne (Option.some.inj he)

/-- The least so far is one of the others once a lesser one has come. -/
theorem TwoLeast.first_other (h : TwoLeast top prios acc) : acc.1.2 = top ∨
    ∃ j, j ≠ prios.length ∧ prios[j]? = some acc.1.2 := by
  rcases eq_or_ne prios [] with hnil | hne
  · exact Or.inl (by rw [h.nil hnil])
  · obtain ⟨i, -, hget, -⟩ := h.first hne
    obtain ⟨hlt, -⟩ := List.getElem?_eq_some_iff.mp hget
    exact Or.inr ⟨i, hlt.ne, hget⟩

theorem TwoLeast.step_first (h : TwoLeast top prios acc) (hb : b < acc.1.2) :
    TwoLeast top (prios ++ [b]) ((some prios.length, b), acc.1) := by
  refine ⟨fun hnil => by simp at hnil, fun _ => ⟨prios.length, rfl, by simp, fun j a hj hja => ?_⟩,
    ⟨hb.le.trans h.first_le.1, fun a ha => ?_⟩, ?_, h.first_le.1, fun j a hj hja => ?_⟩
  · rcases getElem?_concat_iff.mp hja with hja | ⟨rfl, -⟩
    · exact lt_of_lt_of_le hb (h.first_le.2 a (List.mem_of_getElem? hja))
    · omega
  · rcases List.mem_append.mp ha with ha | ha
    · exact hb.le.trans (h.first_le.2 a ha)
    · exact (List.mem_singleton.mp ha).ge
  · rcases h.first_other with htop | ⟨j, hj, hget⟩
    · exact Or.inl htop
    · exact Or.inr ⟨j, by simpa using hj.symm, getElem?_concat_iff.mpr (Or.inl hget)⟩
  · rcases getElem?_concat_iff.mp hja with hja | ⟨rfl, -⟩
    · exact h.first_le.2 a (List.mem_of_getElem? hja)
    · simp at hj

/-- The least stays: the second is the least of the old second and the new one. -/
theorem TwoLeast.step_second (h : TwoLeast top prios acc) {second : Option ℕ × ℤ} (hb : acc.1.2 ≤ b) (hbt : b < top)
    (hsecond : second = (some prios.length, b) ∧ b ≤ acc.2.2 ∨ second = acc.2 ∧ acc.2.2 ≤ b) :
    TwoLeast top (prios ++ [b]) (acc.1, second) := by
  have hne : prios ≠ [] := by
    intro hnil
    have htop : acc.1.2 = top := by rw [h.nil hnil]
    omega
  have hle : second.2 ≤ acc.2.2 ∧ second.2 ≤ b := by
    rcases hsecond with ⟨rfl, hle⟩ | ⟨rfl, hle⟩
    · exact ⟨hle, le_refl b⟩
    · exact ⟨le_refl _, hle⟩
  refine ⟨fun hnil => by simp at hnil, fun _ => ?_, ⟨h.first_le.1, fun a ha => ?_⟩, ?_,
    hle.1.trans h.second_le.1, fun j a hj hja => ?_⟩
  · obtain ⟨i, hi, hget, hleft⟩ := h.first hne
    refine ⟨i, hi, getElem?_concat_iff.mpr (Or.inl hget), fun j a hj hja => ?_⟩
    rcases getElem?_concat_iff.mp hja with hja | ⟨rfl, -⟩
    · exact hleft j a hj hja
    · -- `i` is an index of the old list
      obtain ⟨hlt, -⟩ := List.getElem?_eq_some_iff.mp hget
      omega
  · rcases List.mem_append.mp ha with ha | ha
    · exact h.first_le.2 a ha
    · exact (List.mem_singleton.mp ha) ▸ hb
  · rcases hsecond with ⟨rfl, -⟩ | ⟨rfl, -⟩
    · exact Or.inr ⟨prios.length, h.index_ne, by simp⟩
    · rcases h.second with htop | ⟨j, hj, hget⟩
      · exact Or.inl htop
      · exact Or.inr ⟨j, hj, getElem?_concat_iff.mpr (Or.inl hget)⟩
  · rcases getElem?_concat_iff.mp hja with hja | ⟨-, rfl⟩
    · exact hle.1.trans (h.second_le.2 j a hj hja)
    · exact hle.2

theorem fold_two_step (h : TwoLeast top prios acc) (hb : b < top) :
    TwoLeast top (prios ++ [b]) (fold_two acc (some prios.length, b)) := by
  simp only [fold_two]
  split_ifs with hfirst hsecond
  · exact h.step_first hfirst
  · exact h.step_second (not_lt.mp hfirst) hb (Or.inl ⟨rfl, hsecond.le⟩)
  · exact h.step_second (not_lt.mp hfirst) hb (Or.inr ⟨rfl, not_lt.mp hsecond⟩)

/-- The fold over all priorities, each below the top. -/
theorem fold_two_least (prios : List ℤ) (hbelow : ∀ a ∈ prios, a < top) : TwoLeast top prios
    ((prios.zipIdx.map fun p => (some p.2, p.1)).foldl fold_two ((none, top), (none, top))) := by
  induction prios using List.reverseRecOn with
  | nil =>
    exact ⟨fun _ => rfl, fun h => absurd rfl h, ⟨le_refl _, by simp⟩, Or.inl rfl, le_refl _, by simp⟩
  | append_singleton prios b ih =>
    have hprios := ih fun a ha => hbelow a (List.mem_append_left _ ha)
    rw [List.zipIdx_append, List.map_append, List.foldl_append]
    simpa using fold_two_step hprios (hbelow b (by simp))

end

/-! ### The operation -/

/-- `Scheduler::pop_task` with the process table it publishes into. -/
def SchedulerCall.pop_task (c : SchedulerCall cfg σ) (sources : List (EventSourceEntry cfg σ τ))
    (t : ProcessInfoTable cfg) : Option ((Option τ × ℤ) × σ × ProcessInfoTable cfg) :=
  let info := t.table c.global_index
  (Vsched2.pop_task (sources.map (EventSourceEntry.source c.in_kernel)) c.cpu_id c.state info.highest_prio).map
    fun r => (r.1, r.2.1, t.set c.global_index { info with highest_prio := r.2.2 })

section

variable {sources : List (EventSource cfg σ τ)} {s : σ} {cpu : Cpu cfg} {priority : τ → ℤ}
  {ready : ℕ → σ → Cpu cfg → Set τ}

/-- The source chosen, among sources that keep the contract: the leftmost of the least priority. -/
theorem two_least_chosen (hne : sources ≠ [])
    (hbelow : ∀ (i : ℕ) (source : EventSource cfg σ τ), sources[i]? = some source →
      source.hightest_priority s cpu < cfg.isize_max) :
    ∃ i source, (two_least sources s cpu).1.1 = some i ∧ sources[i]? = some source ∧
      (∀ j other, sources[j]? = some other →
        source.hightest_priority s cpu ≤ other.hightest_priority s cpu ∧
        (j < i → source.hightest_priority s cpu < other.hightest_priority s cpu) ∧
        (j ≠ i → (two_least sources s cpu).2.2 ≤ other.hightest_priority s cpu)) ∧
      ((two_least sources s cpu).2.2 = cfg.isize_max ∨ ∃ j other, j ≠ i ∧ sources[j]? = some other ∧
        (two_least sources s cpu).2.2 = other.hightest_priority s cpu) := by
  have hprios : ∀ a ∈ sources.map fun source => source.hightest_priority s cpu, a < cfg.isize_max := by
    intro a ha
    obtain ⟨source, hmem, rfl⟩ := List.mem_map.mp ha
    obtain ⟨i, hi⟩ := List.getElem?_of_mem hmem
    exact hbelow i source hi
  have htwo := fold_two_least _ hprios
  obtain ⟨i, hi, hget, hleft⟩ := htwo.first (by simpa using hne)
  rw [List.getElem?_map, Option.map_eq_some_iff] at hget
  obtain ⟨source, hsource, hprio⟩ := hget
  refine ⟨i, source, hi, hsource, fun j other hj => ?_, ?_⟩
  · have hget : (sources.map fun source => source.hightest_priority s cpu)[j]? =
        some (other.hightest_priority s cpu) := by
      rw [List.getElem?_map, hj]
      rfl
    rw [hprio]
    refine ⟨htwo.first_le.2 _ (List.mem_of_getElem? hget), fun hji => hleft j _ hji hget, fun hji => ?_⟩
    refine htwo.second_le.2 j _ ?_ hget
    rw [hi]
    exact fun he => hji (Option.some.inj he).symm
  · rcases htwo.second with htop | ⟨j, hj, hget⟩
    · exact Or.inl htop
    · rw [List.getElem?_map, Option.map_eq_some_iff] at hget
      obtain ⟨other, hother, he⟩ := hget
      refine Or.inr ⟨j, other, ?_, hother, he.symm⟩
      rintro rfl
      exact hj hi

/-- Among sources that keep the contract, the task comes from the leftmost source of the least priority,
    and the priority returned is the least there is afterwards. -/
theorem pop_task_chosen (hne : sources ≠ [])
    (hcontract : ∀ (i : ℕ) (source : EventSource cfg σ τ), sources[i]? = some source →
      Contract source priority (ready i) s cpu)
    (hapart : Apart sources s cpu) (row : Row cfg) :
    ∃ i source r prio s', pop_task sources cpu s row =
        some ((r, prio), s', update_prio row prio (if source.is_prio_per_cpu then some cpu else none)) ∧
      sources[i]? = some source ∧
      (∀ (j : ℕ) (other : EventSource cfg σ τ), sources[j]? = some other →
        source.hightest_priority s cpu ≤ other.hightest_priority s cpu ∧
        (j < i → source.hightest_priority s cpu < other.hightest_priority s cpu)) ∧
      source.take_task s cpu = some ((r, source.hightest_priority s' cpu), s') ∧
      (∀ task, r = some task → task ∈ ready i s cpu ∧ priority task = source.hightest_priority s cpu) ∧
      (r = none ↔ ∀ j, j < sources.length → ready j s cpu = ∅) ∧
      IsLeast {a | ∃ other ∈ sources, other.hightest_priority s' cpu = a} prio := by
  obtain ⟨i, source, hi, hsource, hleast, hsecond⟩ :=
    two_least_chosen hne fun j other hj => (hcontract j other hj).below
  obtain ⟨r, s', htake, hbelow, -, hnone, hfrom⟩ := (hcontract i source hsource).takes
  have hkept : ∀ (j : ℕ) (other : EventSource cfg σ τ), j ≠ i → sources[j]? = some other →
      other.hightest_priority s' cpu = other.hightest_priority s cpu :=
    fun j other hj hother => hapart i j source other hj.symm hsource hother _ _ htake
  obtain ⟨prio, hprio⟩ : ∃ prio, prio = if source.hightest_priority s' cpu < (two_least sources s cpu).2.2
    then source.hightest_priority s' cpu else (two_least sources s cpu).2.2 := ⟨_, rfl⟩
  have hpop : pop_task sources cpu s row =
      some ((r, prio), s', update_prio row prio (if source.is_prio_per_cpu then some cpu else none)) := by
    simp only [pop_task, hi, Option.bind_some, hsource, htake, Option.map_some, hprio]
  refine ⟨i, source, r, prio, s', hpop, hsource,
    fun j other hj => ⟨(hleast j other hj).1, (hleast j other hj).2.1⟩, htake, hfrom, ?_, ?_, ?_⟩
  · rw [hnone]
    constructor
    · intro hempty j hj
      have hother := List.getElem?_eq_getElem hj
      have hlow := ((hcontract i source hsource).exact.none_iff).mp hempty
      exact ((hcontract j _ hother).exact.none_iff).mpr (hlow.trans (hleast j _ hother).1)
    · intro hall
      obtain ⟨hlt, -⟩ := List.getElem?_eq_some_iff.mp hsource
      exact hall i hlt
  · -- attained by the source itself or by the second
    rw [hprio]
    split
    · exact ⟨source, List.mem_of_getElem? hsource, rfl⟩
    · rename_i hge
      rcases hsecond with htop | ⟨j, other, hj, hother, heq⟩
      · omega
      · exact ⟨other, List.mem_of_getElem? hother, by rw [hkept j other hj hother, heq]⟩
  · rintro a ⟨other, hmem, rfl⟩
    obtain ⟨j, hother⟩ := List.getElem?_of_mem hmem
    rcases eq_or_ne j i with rfl | hj
    · obtain rfl : source = other := Option.some.inj (hsource.symm.trans hother)
      rw [hprio]
      split <;> omega
    · have hle := (hleast j other hother).2.2 hj
      rw [hkept j other hj hother, hprio]
      split <;> omega

end

/-- `pop_task` on any list of sources that keep the contract and do not interfere. Without a source it
    returns no task and `isize::MAX`. -/
theorem SchedulerCall.pop_task_leftmost (c : SchedulerCall cfg σ) (sources : List (EventSourceEntry cfg σ τ))
    (t : ProcessInfoTable cfg) (priority : τ → ℤ) (ready : ℕ → σ → Cpu cfg → Set τ)
    (hcontract : ∀ (i : ℕ) (entry : EventSourceEntry cfg σ τ), sources[i]? = some entry →
      Contract (entry.source c.in_kernel) priority (ready i) c.state c.cpu_id)
    (hapart : Apart (sources.map (EventSourceEntry.source c.in_kernel)) c.state c.cpu_id) :
    ∃ r prio s' t', c.pop_task sources t = some ((r, prio), s', t') ∧
      (r = none ↔ ∀ i, i < sources.length → ready i c.state c.cpu_id = ∅) ∧
      (∀ q, q ≠ c.global_index → t'.table q = t.table q) ∧
      (sources = [] → prio = cfg.isize_max ∧ s' = c.state ∧ (t'.table c.global_index).highest_prio =
        update_prio (t.table c.global_index).highest_prio prio (some c.cpu_id)) ∧
      (sources ≠ [] →
        IsLeast {a | ∃ entry ∈ sources, (entry.source c.in_kernel).hightest_priority s' c.cpu_id = a} prio ∧
        ∃ (i : ℕ) (entry : EventSourceEntry cfg σ τ), sources[i]? = some entry ∧
          (∀ (j : ℕ) (other : EventSourceEntry cfg σ τ), sources[j]? = some other →
            (entry.source c.in_kernel).hightest_priority c.state c.cpu_id ≤
              (other.source c.in_kernel).hightest_priority c.state c.cpu_id ∧
            (j < i → (entry.source c.in_kernel).hightest_priority c.state c.cpu_id <
              (other.source c.in_kernel).hightest_priority c.state c.cpu_id)) ∧
          (entry.source c.in_kernel).take_task c.state c.cpu_id =
            some ((r, (entry.source c.in_kernel).hightest_priority s' c.cpu_id), s') ∧
          (∀ task, r = some task → task ∈ ready i c.state c.cpu_id) ∧
          (t'.table c.global_index).highest_prio = update_prio (t.table c.global_index).highest_prio prio
            (if entry.vtable.is_prio_per_cpu then some c.cpu_id else none)) := by
  have hother : ∀ (row : Row cfg) (q : Pid cfg), q ≠ c.global_index →
      (t.set c.global_index { t.table c.global_index with highest_prio := row }).table q = t.table q := by
    intro row q hq
    simp [ProcessInfoTable.set, hq]
  rcases eq_or_ne sources [] with rfl | hne
  · refine ⟨none, cfg.isize_max, c.state, _, rfl, by simp, hother _, fun _ => ⟨rfl, rfl, ?_⟩, fun h => absurd rfl h⟩
    simp [ProcessInfoTable.set]
  -- an entry of the list and the source it is for the kernel or for user space
  have hsome : ∀ (i : ℕ) (source : EventSource cfg σ τ),
      (sources.map (EventSourceEntry.source c.in_kernel))[i]? = some source →
      ∃ entry, sources[i]? = some entry ∧ entry.source c.in_kernel = source := by
    intro i source hi
    rw [List.getElem?_map, Option.map_eq_some_iff] at hi
    exact hi
  obtain ⟨i, source, r, prio, s', hpop, hsource, hleast, htake, hfrom, hnone, hmin⟩ :=
    pop_task_chosen (by simpa using hne) (fun i source hi => by
      obtain ⟨entry, hentry, rfl⟩ := hsome i source hi
      exact hcontract i entry hentry) hapart (t.table c.global_index).highest_prio
  obtain ⟨entry, hentry, rfl⟩ := hsome i source hsource
  refine ⟨r, prio, s', _, by rw [SchedulerCall.pop_task, hpop]; rfl, by simpa using hnone, hother _,
    fun h => absurd h hne, fun _ => ⟨by simpa using hmin, i, entry, hentry, fun j other hj => ?_, htake,
      fun task htask => (hfrom task htask).1, ?_⟩⟩
  · exact hleast j _ (by rw [List.getElem?_map, hj]; rfl)
  · simp only [ProcessInfoTable.set, Function.update_self]
    rfl

/-! ### The scheduler's own sources -/

/-- The entry `init` or `init_sources` pushes for a source of the scheduler's own. Both addresses name
    one object, and so do the functions for the kernel and for user space. -/
def Source.entry (fresh : TaskPtr × Task cfg) (kernel_data user_data : Source → ℕ) (src : Source) :
    EventSourceEntry cfg (Scheduler cfg × Tasks cfg) TaskPtr :=
  let source := src.vtable fresh
  ⟨kernel_data src, user_data src,
    ⟨fun _ => source.hightest_priority, fun _ => source.hightest_priority, fun _ => source.take_task,
      fun _ => source.take_task, source.is_prio_per_cpu⟩⟩

section

variable (c : SchedulerCall cfg (Scheduler cfg × Tasks cfg)) (fresh : TaskPtr × Task cfg)
  (kernel_data user_data : Source → ℕ)

@[simp] theorem Source.entry_source (in_kernel : Bool) (src : Source) :
    (src.entry fresh kernel_data user_data).source in_kernel = src.vtable fresh := by
  cases in_kernel <;> rfl

theorem Source.map_entry_source (in_kernel : Bool) (sources : List Source) :
    (sources.map (Source.entry fresh kernel_data user_data)).map (EventSourceEntry.source in_kernel) =
      sources.map (Source.vtable fresh) := by
  simp

/-- Through the entries of its own sources, `pop_task` is the scheduler's. -/
theorem SchedulerCall.pop_task_sources (t : ProcessInfoTable cfg) :
    c.pop_task (c.state.1.sources.map (Source.entry fresh kernel_data user_data)) t =
      (c.state.1.pop_task c.state.2 c.cpu_id fresh (t.table c.global_index).highest_prio).map fun r =>
        (r.1, r.2.1, t.set c.global_index { t.table c.global_index with highest_prio := r.2.2 }) := by
  rw [SchedulerCall.pop_task, Source.map_entry_source]
  rfl

/-- So is the priority that registering a source publishes. -/
theorem SchedulerCall.get_and_update_all_prio_sources (row : Row cfg) :
    c.get_and_update_all_prio (c.state.1.sources.map (Source.entry fresh kernel_data user_data)) row =
      c.state.1.get_and_update_all_prio c.cpu_id row := by
  rw [SchedulerCall.get_and_update_all_prio, Source.map_entry_source, Scheduler.sources_priority_vtable]
  rfl

end

/-- A source of `n` tasks of priority 3, where `n` is the part of the state that `get` reads. -/
def counting (get : ℕ × ℕ → ℕ) (put : ℕ × ℕ → ℕ → ℕ × ℕ) : EventSourceEntry solo (ℕ × ℕ) TaskPtr :=
  let hightest_priority := fun (_ : ℕ) s (_ : Cpu solo) => if get s = 0 then 16 else 3
  let take_task := fun (_ : ℕ) s (_ : Cpu solo) =>
    some ((if get s = 0 then none else some (get s), if get s - 1 = 0 then 16 else 3), put s (get s - 1))
  ⟨16, 16, ⟨hightest_priority, hightest_priority, take_task, take_task, false⟩⟩

theorem counting_exact (n : ℕ) : Exact solo (fun _ : ℕ => 3) {k | 0 < k ∧ k ≤ n} (if n = 0 then 16 else 3) := by
  refine ⟨fun h => ?_, fun ⟨k, hpos, hle⟩ => ?_⟩
  · have hn : n = 0 := by
      by_contra hn
      have hmem : n ∈ {k | 0 < k ∧ k ≤ n} := ⟨by omega, le_refl n⟩
      rw [h] at hmem
      exact hmem
    rw [if_pos hn]
    rfl
  · rw [if_neg (by omega)]
    exact ⟨⟨⟨k, ⟨hpos, hle⟩, rfl⟩, by rintro a ⟨_, -, rfl⟩; exact le_refl _⟩, by decide⟩

theorem counting_contract {get : ℕ × ℕ → ℕ} {put : ℕ × ℕ → ℕ → ℕ × ℕ} (hput : ∀ s n, get (put s n) = n)
    (s : ℕ × ℕ) : Contract ((counting get put).source true) (fun _ => 3) (fun s _ => {k | 0 < k ∧ k ≤ get s}) s
      solo_cpu := by
  have hbelow : ∀ n : ℕ, (if n = 0 then 16 else 3 : ℤ) < solo.isize_max := by
    intro n
    split <;> decide
  refine ⟨counting_exact (get s), hbelow (get s), if get s = 0 then none else some (get s), put s (get s - 1),
    ?_, hbelow _, counting_exact _, ?_, ?_⟩
  · simp [counting, EventSourceEntry.source, EventSourceVtable.take_task, EventSourceVtable.hightest_priority, hput]
  · rw [(counting_exact (get s)).none_iff]
    by_cases h : get s = 0
    · simp [h]
      decide
    · simp [h]
      decide
  · intro task htask
    by_cases h : get s = 0
    · simp [h] at htask
    · obtain rfl : get s = task := by simpa [h] using htask
      exact ⟨⟨Nat.pos_of_ne_zero h, le_refl _⟩, by
        simp [counting, EventSourceEntry.source, EventSourceVtable.hightest_priority, h]⟩

/-- Two sources of a task each. -/
def two_sources : List (EventSourceEntry solo (ℕ × ℕ) TaskPtr) :=
  [counting Prod.fst fun s n => (n, s.2), counting Prod.snd fun s n => (s.1, n)]

def two_sources_call : SchedulerCall solo (ℕ × ℕ) := ⟨.kernel, fun _ => true, solo_cpu, (1, 1)⟩

/-- The task of the first source is taken, and the second has the priority left. -/
theorem SchedulerCall.pop_task_leftmost_tie : ∃ r prio s' t',
    two_sources_call.pop_task two_sources .default = some ((r, prio), s', t') ∧ r ≠ none ∧
    IsLeast {a | ∃ entry ∈ two_sources, (entry.source true).hightest_priority s' solo_cpu = a} prio := by
  have hcontract : ∀ (i : ℕ) (entry : EventSourceEntry solo (ℕ × ℕ) TaskPtr), two_sources[i]? = some entry →
      Contract (entry.source true) (fun _ => 3)
        (fun s _ => {k | 0 < k ∧ k ≤ if i = 0 then s.1 else s.2}) (1, 1) solo_cpu := by
    intro i entry hi
    match i, hi with
    | 0, hi =>
      obtain rfl := Option.some.inj hi
      exact counting_contract (fun _ _ => rfl) (1, 1)
    | 1, hi =>
      obtain rfl := Option.some.inj hi
      exact counting_contract (fun _ _ => rfl) (1, 1)
    | i + 2, hi => simp [two_sources] at hi
  have hapart : Apart (two_sources.map (EventSourceEntry.source true)) (1, 1) solo_cpu := by
    intro i j source other hne hi hj r s' htake
    match i, j, hi, hj with
    | 0, 0, _, _ => exact absurd rfl hne
    | 1, 1, _, _ => exact absurd rfl hne
    | 0, 1, hi, hj | 1, 0, hi, hj =>
      obtain rfl := Option.some.inj hi
      obtain rfl := Option.some.inj hj
      obtain ⟨-, rfl⟩ := Prod.mk.inj (Option.some.inj htake)
      rfl
    | i + 2, _, hi, _ => simp [two_sources] at hi
    | 0, j + 2, _, hj | 1, j + 2, _, hj => simp [two_sources] at hj
  obtain ⟨r, prio, s', t', hpop, hnone, -, -, hmin⟩ :=
    SchedulerCall.pop_task_leftmost two_sources_call two_sources .default (fun _ => 3)
      (fun i s _ => {k | 0 < k ∧ k ≤ if i = 0 then s.1 else s.2}) hcontract hapart
  refine ⟨r, prio, s', t', hpop, fun hr => ?_, (hmin (by simp [two_sources])).1⟩
  have hempty := hnone.mp hr 0 (by decide)
  have hone : 1 ∈ {k : ℕ | 0 < k ∧ k ≤ 1} := ⟨Nat.one_pos, le_refl 1⟩
  exact absurd hempty (Set.nonempty_iff_ne_empty.mp ⟨1, hone⟩)

end Vsched2
