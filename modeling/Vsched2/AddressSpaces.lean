import Vsched2.ProcessSlots

/-! The address space a CPU is in after `switch_vspace`.

    The function compares pids: it skips the switch when `CURRENT_VSPACE` already names the process. So
    a pid must not be handed out again while a CPU still names it from the slot's earlier process, and
    a null pointer, which `process_drop` leaves, must not be loaded for a process that is not yet
    invalid. Along runs where neither happens, every CPU is in the address space of the process that
    its `CURRENT_VSPACE` names. -/

namespace Vsched2

namespace ProcessSlots

variable {cfg : Config} {user_data : UserData} {s s' : ProcessSlots cfg}

/-- CPU `c` has entered `vspace`, or its `switch_vspace` has yet to load a pointer or has loaded
    `vspace`. -/
def Enters (s : ProcessSlots cfg) (c : Cpu cfg) (vspace : ℕ) : Prop :=
  match s.switching c with
  | .idle => s.entered c = vspace
  | .load _ => True
  | .into _ loaded => loaded = vspace

/-- When `process_init` returns a pid, the CPUs whose `CURRENT_VSPACE` names it enter the address space
    of the new process. -/
def HandedOut (s : ProcessSlots cfg) : Call cfg → Prop
  | .init_stack vspace p => vspace = 0 ∨ ∀ c, s.current_vspace c = p → s.Enters c vspace
  | _ => True

/-- A null pointer is loaded only for a process without an address space of its own, or by a CPU that is
    in that address space. -/
def Loaded (s : ProcessSlots cfg) (c : Cpu cfg) : Switch cfg → Prop
  | .load p => (s.table p).vspace = 0 → ∀ vspace ∈ (s.life p).inited, vspace = 0 ∨ s.entered c = vspace
  | _ => True

instance (s : ProcessSlots cfg) (c : Cpu cfg) (vspace : ℕ) : Decidable (s.Enters c vspace) :=
  match h : s.switching c with
  | .idle => decidable_of_iff (s.entered c = vspace) (by simp only [Enters, h])
  | .load _ => isTrue (by simp only [Enters, h])
  | .into _ loaded => decidable_of_iff (loaded = vspace) (by simp only [Enters, h])

instance (s : ProcessSlots cfg) : ∀ call, Decidable (s.HandedOut call)
  | .init_stack vspace p =>
    inferInstanceAs (Decidable (vspace = 0 ∨ ∀ c, s.current_vspace c = p → s.Enters c vspace))
  | .idle | .claim .. | .draw .. | .store_vspace .. | .store_scheduler .. | .invalidate _ | .failed _ =>
    isTrue trivial

instance (s : ProcessSlots cfg) (c : Cpu cfg) : ∀ switch, Decidable (s.Loaded c switch)
  | .load p => inferInstanceAs (Decidable ((s.table p).vspace = 0 →
      ∀ vspace ∈ (s.life p).inited, vspace = 0 ∨ s.entered c = vspace))
  | .idle | .into .. => isTrue trivial

/-- The condition on a step. -/
def Handed (s : ProcessSlots cfg) : Act cfg → Prop
  | .next i => s.HandedOut (s.calls i)
  | .switch_next c => s.Loaded c (s.switching c)
  | _ => True

instance (s : ProcessSlots cfg) : ∀ act, Decidable (s.Handed act)
  | .next i => inferInstanceAs (Decidable (s.HandedOut (s.calls i)))
  | .switch_next c => inferInstanceAs (Decidable (s.Loaded c (s.switching c)))
  | .switch_vspace .. | .process_init .. | .process_drop .. => isTrue trivial

/-- Every CPU enters the address space of the process its `CURRENT_VSPACE` names. -/
structure Coherent (s : ProcessSlots cfg) : Prop where
  enters : ∀ c vspace, (s.life (s.current_vspace c)).inited = some vspace → vspace ≠ 0 → s.Enters c vspace
  load : ∀ c p, s.switching c = .load p → s.current_vspace c = p
  into : ∀ c p vspace, s.switching c = .into p vspace → s.current_vspace c = p

/-- While a process is not dropped, its slot holds the pointer it was initialised with; a dropped one
    that is still valid holds null. -/
theorem inited_vspace {p : Pid cfg} {vspace : ℕ} (hO : s.Owned user_data)
    (h : (s.life p).inited = some vspace) : (s.table p).vspace = vspace ∨ (s.table p).vspace = 0 := by
  have hk := hO.kept p
  unfold Kept at hk
  cases hl : s.life p with
  | live v =>
    rw [hl] at hk h
    obtain rfl : v = vspace := Option.some.inj h
    exact Or.inl hk.2.1
  | dropping i v =>
    rw [hl] at hk
    exact Or.inr hk.2.1
  | _ => simp [hl, Life.inited] at h

/-- The CPUs stand still, and a process that has become initialised is entered by the CPUs that name
    it. -/
theorem Coherent.frame (hC : s.Coherent) (hcurrent : s'.current_vspace = s.current_vspace)
    (hentered : s'.entered = s.entered) (hswitching : s'.switching = s.switching)
    (hinited : ∀ p vspace, (s'.life p).inited = some vspace → (s.life p).inited = some vspace ∨
      (vspace ≠ 0 → ∀ c, s.current_vspace c = p → s.Enters c vspace)) : s'.Coherent := by
  have same : ∀ c vspace, s'.Enters c vspace ↔ s.Enters c vspace := by
    intro c vspace
    simp only [Enters, hentered, hswitching]
  refine ⟨fun c vspace hv hne => ?_, ?_, ?_⟩
  · rw [same]
    rw [hcurrent] at hv
    rcases hinited _ _ hv with hold | hnew
    · exact hC.enters c vspace hold hne
    · exact hnew hne c rfl
  · rw [hcurrent, hswitching]
    exact hC.load
  · rw [hcurrent, hswitching]
    exact hC.into

/-- One CPU moves on. -/
theorem Coherent.move {c : Cpu cfg} (hC : s.Coherent) (hlife : s'.life = s.life)
    (hother : ∀ d, d ≠ c → s'.current_vspace d = s.current_vspace d ∧ s'.entered d = s.entered d ∧
      s'.switching d = s.switching d)
    (henters : ∀ vspace, (s'.life (s'.current_vspace c)).inited = some vspace → vspace ≠ 0 → s'.Enters c vspace)
    (hload : ∀ p, s'.switching c = .load p → s'.current_vspace c = p)
    (hinto : ∀ p vspace, s'.switching c = .into p vspace → s'.current_vspace c = p) : s'.Coherent := by
  refine ⟨fun d vspace hv hne => ?_, fun d p hp => ?_, fun d p vspace hp => ?_⟩
  · rcases eq_or_ne d c with rfl | hd
    · exact henters vspace hv hne
    · obtain ⟨hcurrent, hentered, hswitching⟩ := hother d hd
      rw [hlife, hcurrent] at hv
      simpa only [Enters, hentered, hswitching] using hC.enters d vspace hv hne
  · rcases eq_or_ne d c with rfl | hd
    · exact hload p hp
    · rw [(hother d hd).2.2] at hp
      rw [(hother d hd).1]
      exact hC.load d p hp
  · rcases eq_or_ne d c with rfl | hd
    · exact hinto p vspace hp
    · rw [(hother d hd).2.2] at hp
      rw [(hother d hd).1]
      exact hC.into d p vspace hp

/-- Setting the life of a slot that is not initialised thereby initialises nothing. -/
theorem inited_of_set_life {p q : Pid cfg} {life : Life} {vspace : ℕ}
    (hlife : s'.life = Function.update s.life p life) (h : (s'.life q).inited = some vspace) :
    (s.life q).inited = some vspace ∨ q = p ∧ life.inited = some vspace := by
  rw [hlife] at h
  rcases eq_or_ne q p with rfl | hne
  · exact Or.inr ⟨rfl, by simpa using h⟩
  · exact Or.inl (by simpa [hne] using h)

theorem next_coherent {i : ℕ} (hC : s.Coherent) (hg : s.HandedOut (s.calls i))
    (h : s.next user_data i = some s') : s'.Coherent := by
  simp only [next] at h
  cases hcall : s.calls i with
  | idle => simp [hcall] at h
  | failed q => simp [hcall] at h
  | claim vspace start index =>
    simp only [hcall] at h
    split at h
    · obtain rfl := Option.some.inj h
      exact hC.frame rfl rfl rfl fun p v hp => Or.inl hp
    · obtain rfl := Option.some.inj h
      refine hC.frame rfl rfl rfl fun p v hp => Or.inl ?_
      rcases inited_of_set_life rfl hp with hold | ⟨-, hnew⟩
      · exact hold
      · cases hnew
  | draw vspace start =>
    simp only [hcall] at h
    obtain rfl := Option.some.inj h
    exact hC.frame rfl rfl rfl fun p v hp => Or.inl hp
  | store_vspace vspace p =>
    simp only [hcall] at h
    obtain rfl := Option.some.inj h
    exact hC.frame rfl rfl rfl fun p v hp => Or.inl hp
  | store_scheduler vspace p =>
    simp only [hcall] at h
    split at h
    all_goals
      obtain rfl := Option.some.inj h
      exact hC.frame rfl rfl rfl fun p v hp => Or.inl hp
  | init_stack vspace p =>
    simp only [hcall] at h
    split at h
    · obtain rfl := Option.some.inj h
      exact hC.frame rfl rfl rfl fun p v hp => Or.inl hp
    · obtain rfl := Option.some.inj h
      refine hC.frame rfl rfl rfl fun q v hq => ?_
      rcases inited_of_set_life rfl hq with hold | ⟨rfl, hnew⟩
      · exact Or.inl hold
      · obtain rfl : vspace = v := Option.some.inj hnew
        rw [hcall] at hg
        exact Or.inr fun hne => hg.resolve_left hne
  | invalidate p =>
    simp only [hcall] at h
    obtain rfl := Option.some.inj h
    refine hC.frame rfl rfl rfl fun q v hq => Or.inl ?_
    rcases inited_of_set_life rfl hq with hold | ⟨-, hnew⟩
    · exact hold
    · cases hnew

/-- A CPU that names the process already skips the switch; another one is about to load. -/
theorem switch_vspace_coherent {c : Cpu cfg} {p : Pid cfg} (hC : s.Coherent)
    (h : s.switch_vspace c p = some s') : s'.Coherent := by
  simp only [switch_vspace] at h
  split at h
  · rename_i hidle
    obtain rfl := Option.some.inj h
    split
    · refine hC.move (c := c) rfl (fun d hd => ?_) ?_ ?_ ?_
      · simp [set_switch, hd]
      · intro vspace _ _
        simp [Enters, set_switch]
      · simp [set_switch]
      · simp [set_switch]
    · rename_i hsame
      have hself : Function.update s.current_vspace c p = s.current_vspace := by
        rw [not_not] at hsame
        rw [hsame, Function.update_eq_self]
      exact hC.frame hself rfl rfl fun q v hq => Or.inl hq
  · cases h

theorem switch_next_coherent {c : Cpu cfg} (hO : s.Owned user_data) (hC : s.Coherent)
    (hg : s.Loaded c (s.switching c)) (h : s.switch_next c = some s') : s'.Coherent := by
  simp only [switch_next] at h
  cases hswitch : s.switching c with
  | idle => simp [hswitch] at h
  | load p =>
    simp only [hswitch] at h
    have hcurrent := hC.load c p hswitch
    obtain rfl := Option.some.inj h
    refine hC.move (c := c) rfl (fun d hd => by simp [set_switch, hd]) (fun vspace hv hne => ?_) ?_ ?_
    · simp only [set_switch, hcurrent] at hv
      simp only [Enters, set_switch, Function.update_self]
      by_cases hnull : (s.table p).vspace = 0
      · rw [hswitch] at hg
        rw [if_pos hnull]
        exact (hg hnull vspace hv).resolve_left hne
      · rw [if_neg hnull]
        exact (inited_vspace hO hv).resolve_right hnull
    · intro q hq
      simp only [set_switch, Function.update_self] at hq
      split at hq <;> cases hq
    · intro q vspace hq
      simp only [set_switch, Function.update_self] at hq
      split at hq
      · cases hq
      · obtain ⟨rfl, -⟩ := Switch.into.inj hq
        exact hcurrent
  | into p loaded =>
    simp only [hswitch] at h
    obtain rfl := Option.some.inj h
    refine hC.move (c := c) rfl (fun d hd => by simp [set_switch, hd]) (fun vspace hv hne => ?_) ?_ ?_
    · have henters := hC.enters c vspace hv hne
      simp only [Enters, hswitch] at henters
      simpa [Enters, set_switch] using henters
    · simp [set_switch]
    · simp [set_switch]

theorem step_coherent {act : Act cfg} (hO : s.Owned user_data) (hC : s.Coherent) (hg : s.Handed act)
    (h : step user_data s act = some s') : s'.Coherent := by
  cases act with
  | switch_vspace c p => exact switch_vspace_coherent hC h
  | switch_next c => exact switch_next_coherent hO hC hg h
  | process_init i vspace =>
    simp only [step, process_init] at h
    split at h
    · obtain rfl := Option.some.inj h
      exact hC.frame rfl rfl rfl fun p v hp => Or.inl hp
    · cases h
  | process_drop i p =>
    simp only [step, process_drop] at h
    split at h
    · rename_i vspace hidle hl
      obtain rfl := Option.some.inj h
      refine hC.frame rfl rfl rfl fun q v hq => Or.inl ?_
      rcases inited_of_set_life rfl hq with hold | ⟨rfl, hnew⟩
      · exact hold
      · rw [hl]
        exact hnew
    · cases h
  | next i => exact next_coherent hC hg h

theorem boot_coherent : (boot cfg).Coherent :=
  ⟨fun c vspace hv => by simp [boot, Life.inited] at hv, by simp [boot], by simp [boot]⟩

/-- Along a run whose steps meet the condition, a CPU whose last `switch_vspace`, to `p`, has completed is
    in the address space that `process_init` gave `p`, if `p` is still valid and that was not null. -/
theorem switched_into_vspace (user_data : UserData) (as : List (Act cfg)) (s : ProcessSlots cfg)
    (hrun : Runs.run (step user_data) (boot cfg) as = some s)
    (hguard : Runs.Along (step user_data) Handed (boot cfg) as) (c : Cpu cfg) (p : Pid cfg) (vspace : ℕ)
    (hdone : s.switching c = .idle) (hcurrent : s.current_vspace c = p)
    (hinited : (s.life p).inited = some vspace) (hne : vspace ≠ 0) : s.entered c = vspace := by
  have hstep : ∀ (t : ProcessSlots cfg) (act : Act cfg) (t' : ProcessSlots cfg),
      t.Owned user_data ∧ t.Coherent → t.Handed act → step user_data t act = some t' →
      t'.Owned user_data ∧ t'.Coherent :=
    fun _ _ _ hI hg hs => ⟨step_owned hI.1 hs, step_coherent hI.1 hI.2 hg hs⟩
  obtain ⟨-, hC⟩ := Runs.along_invariant hstep as ⟨boot_owned user_data, boot_coherent⟩ hguard hrun
  have henters := hC.enters c vspace (by rwa [hcurrent]) hne
  simpa only [Enters, hdone] using henters

/-- A table with one slot beside the kernel's. -/
def tiny : Config := { solo with process_num := 2, process_pos := Nat.two_pos }

def tiny_cpu : Cpu tiny := ⟨0, by decide⟩

/-- The pid of that slot. -/
def tiny_pid : Pid tiny := ⟨1, by decide⟩

/-- A process with the vspace pointer 4096 is created, entered and dropped. -/
def use_and_drop : List (Act tiny) :=
  .process_init 0 4096 :: List.replicate 4 (.next 0) ++
    [.switch_vspace tiny_cpu tiny_pid, .switch_next tiny_cpu, .switch_next tiny_cpu,
      .process_drop 0 tiny_pid, .next 0]

/-- Its slot goes to a process with the pointer 8192. -/
def reuse : List (Act tiny) := .process_init 0 8192 :: List.replicate 6 (.next 0)

/-- The CPU has switched to the kernel in between. -/
def by_kernel : List (Act tiny) :=
  use_and_drop ++ [.switch_vspace tiny_cpu .kernel, .switch_next tiny_cpu] ++ reuse ++
    [.switch_vspace tiny_cpu tiny_pid, .switch_next tiny_cpu, .switch_next tiny_cpu]

theorem switched_into_vspace_reused : ∃ s : ProcessSlots tiny,
    Runs.run (step at_offset) (boot tiny) by_kernel = some s ∧ s.entered tiny_cpu = 8192 :=
  ⟨_, rfl, switched_into_vspace at_offset by_kernel _ rfl (by decide) tiny_cpu tiny_pid 8192 rfl rfl rfl
    (by decide)⟩

/-- `CURRENT_VSPACE` still names the slot when it is handed out again: `switch_vspace` to the new process
    does nothing, and the CPU stays in the address space of the dropped one. -/
theorem stays_in_dropped_vspace : ∃ s : ProcessSlots tiny,
    Runs.run (step at_offset) (boot tiny) (use_and_drop ++ reuse ++ [.switch_vspace tiny_cpu tiny_pid]) =
      some s ∧
    s.switching tiny_cpu = .idle ∧ s.current_vspace tiny_cpu = tiny_pid ∧
    (s.table tiny_pid).valid = true ∧ s.life tiny_pid = .live 8192 ∧ s.entered tiny_cpu = 4096 :=
  ⟨_, rfl, rfl, rfl, rfl, rfl, rfl⟩

end ProcessSlots

end Vsched2
