import Vsched2.EventSource
import Vsched2.AddressSpaces

/-! What a process slot still holds when it is claimed again.

    `unregister_process` resets the vspace pointer and the valid bit only, and the line of
    `process_init` that reset the priorities is commented out. So a claimed slot is as an unused one just
    the first time: later the scheduler pointer is the predecessor's, and the priorities are the last
    ones that scheduler published. -/

namespace Vsched2

variable {cfg : Config}

/-- The slots with the published priorities. `registered` is kept for the statements: every slot that
    `register_process` returned. -/
structure SlotReuse (cfg : Config) where
  slots : ProcessSlots cfg
  highest_prio : Pid cfg → Row cfg
  registered : List (Pid cfg)

namespace ProcessSlots

/-- The slot that `register_process` returns with this step. -/
def claimed (s : ProcessSlots cfg) : Act cfg → Option (Pid cfg)
  | .next i =>
    match s.calls i with
    | .claim _ _ index => if (s.table index).valid then none else some index
    | _ => none
  | _ => none

variable {user_data : UserData} {s s' : ProcessSlots cfg} {act : Act cfg} {p : Pid cfg}

/-- What a step does to one slot. -/
inductive SlotStep (s : ProcessSlots cfg) (act : Act cfg) (p : Pid cfg) (s' : ProcessSlots cfg) : Prop
  | same (hclaim : s.claimed act ≠ some p) (htable : s'.table p = s.table p) (hlife : s'.life p = s.life p)
  | claim (i : ℕ) (hclaim : s.claimed act = some p) (hv : (s.table p).valid = false)
      (htable : s'.table p = { s.table p with valid := true }) (hlife : s'.life p = .starting i)
  | init (i : ℕ) (hclaim : s.claimed act ≠ some p) (hold : s.life p = .starting i)
      (hlife : s'.life p = .starting i ∨ ∃ vspace, s'.life p = .live vspace)
  | drop (i vspace : ℕ) (hclaim : s.claimed act ≠ some p) (hold : s.life p = .live vspace)
      (htable : s'.table p = { s.table p with vspace := 0 }) (hlife : s'.life p = .dropping i vspace)
  | invalidate (i vspace : ℕ) (hclaim : s.claimed act ≠ some p) (hold : s.life p = .dropping i vspace)
      (htable : s'.table p = { s.table p with valid := false }) (hlife : s'.life p = .free)

/-- A step on one slot is none of another. -/
theorem SlotStep.of_other {q : Pid cfg} {slot : Slot} {life : Life} {i : ℕ} {call : Call cfg} (hq : q ≠ p)
    (hclaim : s.claimed act ≠ some q) :
    SlotStep s act q (((s.set_table p slot).set_life p life).set_call i call) :=
  .same hclaim (by simp [set_table, set_life, set_call, hq]) (by simp [set_table, set_life, set_call, hq])

/-- The thread of `process_init` moves on with the slot `p`. -/
theorem SlotStep.of_init {q : Pid cfg} {i : ℕ} (hold : s.life p = .starting i) (hclaim : s.claimed act ≠ some q)
    (htable : q ≠ p → s'.table q = s.table q) (hlife : q ≠ p → s'.life q = s.life q)
    (hself : s'.life p = .starting i ∨ ∃ vspace, s'.life p = .live vspace) : SlotStep s act q s' := by
  rcases eq_or_ne q p with rfl | hne
  · exact .init i hclaim hold hself
  · exact .same hclaim (htable hne) (hlife hne)

theorem next_slot {i : ℕ} (hO : s.Owned user_data) (h : s.next user_data i = some s') (q : Pid cfg) :
    SlotStep s (.next i) q s' := by
  simp only [next] at h
  cases hcall : s.calls i with
  | idle => simp [hcall] at h
  | failed r => simp [hcall] at h
  | claim vspace start index =>
    simp only [hcall] at h
    split at h
    · rename_i hv
      obtain rfl := Option.some.inj h
      exact .same (by simp [claimed, hcall, hv]) rfl rfl
    · rename_i hv
      obtain rfl := Option.some.inj h
      rcases eq_or_ne q index with rfl | hne
      · exact .claim i (by simp [claimed, hcall, hv]) (by simpa using hv)
          (by simp [set_table, set_life, set_call]) (by simp [set_table, set_life, set_call])
      · exact .of_other hne (by simp [claimed, hcall, hv, hne.symm])
  | draw vspace start =>
    simp only [hcall] at h
    obtain rfl := Option.some.inj h
    exact .same (by simp [claimed, hcall]) rfl rfl
  | store_vspace vspace p =>
    simp only [hcall] at h
    obtain rfl := Option.some.inj h
    obtain ⟨hold, -, -⟩ := hO.starting (p := p) (by rw [hcall]; rfl) (by simp [hcall])
    exact .of_init hold (by simp [claimed, hcall]) (fun hne => by simp [set_table, set_call, hne])
      (fun _ => rfl) (Or.inl hold)
  | store_scheduler vspace p =>
    simp only [hcall] at h
    obtain ⟨hold, -, -⟩ := hO.starting (p := p) (by rw [hcall]; rfl) (by simp [hcall])
    split at h
    · obtain rfl := Option.some.inj h
      exact .of_init hold (by simp [claimed, hcall]) (fun _ => rfl) (fun _ => rfl) (Or.inl hold)
    · obtain rfl := Option.some.inj h
      exact .of_init hold (by simp [claimed, hcall]) (fun hne => by simp [set_table, set_call, hne])
        (fun _ => rfl) (Or.inl hold)
  | init_stack vspace p =>
    simp only [hcall] at h
    obtain ⟨hold, -, -⟩ := hO.starting (p := p) (by rw [hcall]; rfl) (by simp [hcall])
    split at h
    · obtain rfl := Option.some.inj h
      exact .of_init hold (by simp [claimed, hcall]) (fun _ => rfl) (fun _ => rfl) (Or.inl hold)
    · obtain rfl := Option.some.inj h
      exact .of_init hold (by simp [claimed, hcall]) (fun _ => rfl)
        (fun hne => by simp [set_life, set_call, hne]) (Or.inr ⟨vspace, by simp [set_life, set_call]⟩)
  | invalidate p =>
    simp only [hcall] at h
    obtain rfl := Option.some.inj h
    rcases eq_or_ne q p with rfl | hne
    · obtain ⟨j, vspace, hold⟩ := hO.dropping hcall
      exact .invalidate j vspace (by simp [claimed, hcall]) hold (by simp [set_table, set_life, set_call])
        (by simp [set_table, set_life, set_call])
    · exact .of_other hne (by simp [claimed, hcall])

theorem step_slot (hO : s.Owned user_data) (h : step user_data s act = some s') (q : Pid cfg) :
    SlotStep s act q s' := by
  cases act with
  | switch_vspace c p =>
    obtain ⟨htable, hlife, -⟩ := switch_vspace_unchanged h
    exact .same (by simp [claimed]) (by rw [htable]) (by rw [hlife])
  | switch_next c =>
    obtain ⟨htable, hlife, -⟩ := switch_next_unchanged h
    exact .same (by simp [claimed]) (by rw [htable]) (by rw [hlife])
  | process_init i vspace =>
    simp only [step, process_init] at h
    split at h
    · obtain rfl := Option.some.inj h
      exact .same (by simp [claimed]) rfl rfl
    · cases h
  | process_drop i p =>
    simp only [step, process_drop] at h
    split at h
    · rename_i vspace hidle hold
      obtain rfl := Option.some.inj h
      rcases eq_or_ne q p with rfl | hne
      · exact .drop i vspace (by simp [claimed]) hold (by simp [set_table, set_life, set_call])
          (by simp [set_table, set_life, set_call])
      · exact .of_other hne (by simp [claimed])
    · cases h
  | next i => exact next_slot hO h q

end ProcessSlots

namespace SlotReuse

/-- The steps: those of the slots, and `update_prio` as `user_init` and the other operations of the
    scheduler of `p` call it. -/
inductive Act (cfg : Config) where
  | slots (act : ProcessSlots.Act cfg)
  | update_prio (p : Pid cfg) (prio : ℤ) (cpu_id : Option (Cpu cfg))
  deriving DecidableEq

/-- A scheduler publishes once it was initialised: the kernel's is, the others come with the pointer. -/
def step (user_data : UserData) (s : SlotReuse cfg) : Act cfg → Option (SlotReuse cfg)
  | .slots act =>
    (ProcessSlots.step user_data s.slots act).map fun slots =>
      { s with slots := slots, registered := (s.slots.claimed act).toList ++ s.registered }
  | .update_prio p prio cpu_id =>
    if p = .kernel ∨ (s.slots.table p).scheduler ≠ 0 then
      some { s with
        highest_prio := Function.update s.highest_prio p (Vsched2.update_prio (s.highest_prio p) prio cpu_id) }
    else none

def boot (cfg : Config) : SlotReuse cfg := ⟨.boot cfg, fun _ _ => cfg.isize_max, []⟩

def Act.claimed (s : SlotReuse cfg) : Act cfg → Option (Pid cfg)
  | .slots act => s.slots.claimed act
  | .update_prio .. => none

/-- The slot is as one never used, up to its valid bit. -/
def Clean (s : SlotReuse cfg) (p : Pid cfg) : Prop :=
  (∀ c, s.highest_prio p c = cfg.isize_max) ∧ (s.slots.table p).scheduler = 0 ∧ (s.slots.table p).vspace = 0

/-- If this step returns a slot from `register_process`, the slot is clean then. -/
def ClaimsClean (user_data : UserData) (s : SlotReuse cfg) (act : Act cfg) : Prop :=
  ∀ p s', act.claimed s = some p → step user_data s act = some s' → s'.Clean p

/-- If this step returns a slot from `register_process`, it was never returned before. -/
def ClaimsFirst (s : SlotReuse cfg) (act : Act cfg) : Prop :=
  ∀ p, act.claimed s = some p → p ∉ s.registered

/-- A slot never claimed is clean; one that was dropped has the scheduler pointer of its process. -/
structure Inv (user_data : UserData) (s : SlotReuse cfg) : Prop where
  owned : s.slots.Owned user_data
  kernel : s.slots.life .kernel = .kernel
  unused : ∀ p, p ∉ s.registered → p ≠ .kernel → s.slots.life p = .free ∧ s.Clean p
  dropped : ∀ p, p ∈ s.registered → s.slots.life p = .free ∨ (∃ i vspace, s.slots.life p = .dropping i vspace) →
    (s.slots.table p).scheduler ≠ 0

variable {user_data : UserData} {s s' : SlotReuse cfg} {act : Act cfg} {p : Pid cfg}

theorem boot_inv : (boot cfg).Inv user_data := by
  refine ⟨ProcessSlots.boot_owned user_data, by simp [boot, ProcessSlots.boot], fun p _ hp => ⟨?_, ?_⟩, ?_⟩
  · simp [boot, ProcessSlots.boot, hp]
  · exact ⟨fun _ => rfl, rfl, rfl⟩
  · intro p hp
    simp [boot] at hp

/-- A claimed slot is free. -/
theorem claimed_free (hI : s.Inv user_data) (hv : (s.slots.table p).valid = false) :
    s.slots.life p = .free ∧ p ≠ .kernel := by
  have hfree := (hI.owned.kept p).free hv
  refine ⟨hfree, ?_⟩
  rintro rfl
  rw [hI.kernel] at hfree
  cases hfree

theorem slots_inv {slots : ProcessSlots cfg} {a : ProcessSlots.Act cfg} (hI : s.Inv user_data)
    (h : ProcessSlots.step user_data s.slots a = some slots) :
    ({ s with slots := slots, registered := (s.slots.claimed a).toList ++ s.registered } : SlotReuse cfg).Inv
      user_data := by
  have hmem : ∀ p, p ∈ (s.slots.claimed a).toList ++ s.registered ↔ s.slots.claimed a = some p ∨ p ∈ s.registered := by
    simp
  refine ⟨ProcessSlots.step_owned hI.owned h, ?_, fun p hp hne => ?_, fun p hp hl => ?_⟩
  · cases ProcessSlots.step_slot hI.owned h .kernel with
    | same _ _ hlife => exact hlife.trans hI.kernel
    | claim i _ hv _ _ => exact absurd rfl (claimed_free hI hv).2
    | init i _ hold _ => simp [hI.kernel] at hold
    | drop i vspace _ hold _ _ => simp [hI.kernel] at hold
    | invalidate i vspace _ hold _ _ => simp [hI.kernel] at hold
  · obtain ⟨hclaim, hreg⟩ := not_or.mp fun hor => hp ((hmem p).mpr hor)
    obtain ⟨hfree, hclean⟩ := hI.unused p hreg hne
    cases ProcessSlots.step_slot hI.owned h p with
    | same _ htable hlife => exact ⟨hlife.trans hfree, by simpa [Clean, htable] using hclean⟩
    | claim i hc _ _ _ => exact absurd hc hclaim
    | init i _ hold _ => simp [hfree] at hold
    | drop i vspace _ hold _ _ => simp [hfree] at hold
    | invalidate i vspace _ hold _ _ => simp [hfree] at hold
  · cases ProcessSlots.step_slot hI.owned h p with
    | same hc htable hlife =>
      rw [hlife] at hl
      simpa [htable] using hI.dropped p (((hmem p).mp hp).resolve_left hc) hl
    | claim i _ _ _ hlife => simp [hlife] at hl
    | init i _ _ hlife =>
      rcases hlife with hlife | ⟨vspace, hlife⟩ <;> simp [hlife] at hl
    | drop i vspace _ hold htable _ =>
      -- a live process has its scheduler pointer
      have hk := hI.owned.kept p
      simp only [ProcessSlots.Kept, hold] at hk
      obtain ⟨-, -, hnull, hsched⟩ := hk
      simpa [htable, hsched] using hnull
    | invalidate i vspace hc hold htable _ =>
      have hold' := hI.dropped p (((hmem p).mp hp).resolve_left hc) (Or.inr ⟨i, vspace, hold⟩)
      simpa [htable] using hold'

theorem step_inv (hI : s.Inv user_data) (h : step user_data s act = some s') : s'.Inv user_data := by
  cases act with
  | slots a =>
    obtain ⟨slots, hslots, rfl⟩ := Option.map_eq_some_iff.mp h
    exact slots_inv hI hslots
  | update_prio p prio cpu_id =>
    simp only [step] at h
    split at h
    · rename_i hinit
      obtain rfl := Option.some.inj h
      refine ⟨hI.owned, hI.kernel, fun q hq hne => ?_, hI.dropped⟩
      obtain ⟨hfree, hclean⟩ := hI.unused q hq hne
      have hqp : q ≠ p := by
        rintro rfl
        exact hinit.elim hne fun hs => hs hclean.2.1
      exact ⟨hfree, by simpa [Clean, hqp] using hclean⟩
    · cases h

/-- A claimed slot is clean if and only if it is claimed for the first time. -/
theorem claimed_clean_iff {slots : ProcessSlots cfg} {a : ProcessSlots.Act cfg} (hI : s.Inv user_data)
    (h : ProcessSlots.step user_data s.slots a = some slots) (hc : s.slots.claimed a = some p) :
    ({ s with slots := slots, registered := (s.slots.claimed a).toList ++ s.registered } : SlotReuse cfg).Clean p ↔
      p ∉ s.registered := by
  cases ProcessSlots.step_slot hI.owned h p with
  | claim i _ hv htable _ =>
    obtain ⟨hfree, hne⟩ := claimed_free hI hv
    constructor
    · rintro ⟨-, hsched, -⟩ hreg
      rw [htable] at hsched
      exact hI.dropped p hreg (Or.inl hfree) hsched
    · intro hreg
      simpa [Clean, htable] using (hI.unused p hreg hne).2
  | same hne _ _ | init _ hne _ _ | drop _ _ hne _ _ _ | invalidate _ _ hne _ _ _ => exact absurd hc hne

theorem claims_clean_iff (hI : s.Inv user_data) (h : step user_data s act = some s') :
    ClaimsClean user_data s act ↔ ClaimsFirst s act := by
  cases act with
  | update_prio p prio cpu_id => simp [ClaimsClean, ClaimsFirst, Act.claimed]
  | slots a =>
    obtain ⟨slots, hslots, rfl⟩ := Option.map_eq_some_iff.mp h
    constructor
    · intro hclean p hc
      exact (claimed_clean_iff hI hslots hc).mp (hclean p _ hc h)
    · intro hfirst p t hc ht
      obtain rfl := Option.some.inj (h.symm.trans ht)
      exact (claimed_clean_iff hI hslots hc).mpr (hfirst p hc)

/-- In every run, the slots that `register_process` returns are all as unused ones if and only if each is
    returned for the first time. -/
theorem claimed_slots_clean_iff (user_data : UserData) (acts : List (Act cfg)) :
    Runs.Along (step user_data) (ClaimsClean user_data) (boot cfg) acts ↔
      Runs.Along (step user_data) ClaimsFirst (boot cfg) acts :=
  Runs.along_congr (fun _ _ _ hI h => step_inv hI h) (fun _ _ _ hI h => claims_clean_iff hI h) acts boot_inv

instance (s : SlotReuse cfg) (p : Pid cfg) : Decidable (s.Clean p) :=
  inferInstanceAs (Decidable ((∀ c, s.highest_prio p c = cfg.isize_max) ∧ (s.slots.table p).scheduler = 0 ∧
    (s.slots.table p).vspace = 0))

instance (user_data : UserData) (s : SlotReuse cfg) (act : Act cfg) : Decidable (ClaimsClean user_data s act) :=
  match h : step user_data s act with
  | none => isTrue fun p s' _ hs => by simp [h] at hs
  | some t => decidable_of_iff (∀ p, act.claimed s = some p → t.Clean p) (by simp [ClaimsClean, h])

/-- A process publishes the priority 5 and is dropped; its slot is claimed for the next one. -/
def recycle : List (Act ProcessSlots.tiny) :=
  (.process_init 0 4096 :: List.replicate 4 (.next 0)).map .slots ++
    (.update_prio ProcessSlots.tiny_pid 5 none ::
      (.process_drop 0 ProcessSlots.tiny_pid :: .next 0 :: .process_init 0 8192 ::
        List.replicate 3 (.next 0)).map .slots)

/-- The slot is claimed with the priority and the scheduler of the process before. -/
theorem recycled_slot :
    ¬ Runs.Along (step ProcessSlots.at_offset) (ClaimsClean ProcessSlots.at_offset) (boot _) recycle ∧
    (Runs.run (step ProcessSlots.at_offset) (boot _) recycle).map (fun s =>
      ((s.slots.table ProcessSlots.tiny_pid).valid, s.highest_prio ProcessSlots.tiny_pid ProcessSlots.tiny_cpu,
        (s.slots.table ProcessSlots.tiny_pid).scheduler)) = some (true, 5, 4160) := by
  refine ⟨?_, ?_⟩ <;> decide +kernel

end SlotReuse

end Vsched2
