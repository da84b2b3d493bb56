import Vsched2.Interface
import Vsched2.Lib.Run

/-! The slots of the process table in the hands of many threads: `process_init`, `process_drop` and
    `switch_vspace`, one atomic access at a time.

    Pointers are addresses, and 0 is the null pointer. `process_init` and `process_drop` run in threads
    of the kernel, any number of them; `switch_vspace` runs on its CPU with interrupts off. A call
    whose assertion fails goes no further. `init_once` panics on an object initialised before; here it
    passes, which only adds runs.

    `Kernel` takes each of these calls in one step, so the interleavings here are not among its runs. The
    other way round, the calls of `Kernel` are the runs here in which no two calls overlap (`SlotCalls`). -/

namespace Vsched2

variable {cfg : Config}

/-- The objects `get_user_data` is asked for. -/
inductive PrivateData where | user_scheduler | stack_handler
  deriving DecidableEq, Repr

/-- `UserData::get_user_data`: the address of an object in the address space that a vspace pointer
    designates. -/
abbrev UserData := PrivateData → ℕ → ℕ

/-- The fields of `ProcessInfo` read and written here. -/
structure Slot where
  valid : Bool
  vspace : ℕ
  scheduler : ℕ
  deriving DecidableEq

/-- Where a thread stands in `process_init` or `process_drop`. -/
inductive Call (cfg : Config) where
  | idle
  -- `register_process`: before the swap of `valid`, and before the next draw of an index
  | claim (vspace : ℕ) (start_index index : Pid cfg) | draw (vspace : ℕ) (start_index : Pid cfg)
  -- the rest of `process_init`
  | store_vspace (vspace : ℕ) (pid : Pid cfg)
  | store_scheduler (vspace : ℕ) (pid : Pid cfg)
  | init_stack (vspace : ℕ) (pid : Pid cfg)
  -- `unregister_process`: before the swap of `valid`
  | invalidate (pid : Pid cfg)
  | failed (pid : Option (Pid cfg))
  deriving DecidableEq

/-- Where a CPU stands in `switch_vspace`: before the load of the pointer, and before `into_vspace`. -/
inductive Switch (cfg : Config) where
  | idle
  | load (vspace_pid : Pid cfg)
  | into (vspace_pid : Pid cfg) (vspace : ℕ)
  deriving DecidableEq

/-- What has become of a slot: the thread that works on it, and the vspace pointer with which
    `process_init` has returned it. -/
inductive Life where
  | kernel
  | free
  | starting (thread : ℕ)
  | live (vspace : ℕ)
  | dropping (thread : ℕ) (vspace : ℕ)
  deriving DecidableEq

/-- The state: `entered` is the address space a CPU entered last through `VSpace::into_vspace`, `life`
    is kept for the statements. -/
structure ProcessSlots (cfg : Config) where
  table : Pid cfg → Slot
  next_i : ℕ
  current_vspace : Cpu cfg → Pid cfg
  entered : Cpu cfg → ℕ
  switching : Cpu cfg → Switch cfg
  calls : ℕ → Call cfg
  life : Pid cfg → Life

/-- The vspace pointer of a process that `process_init` returned and that is still valid. -/
def Life.inited : Life → Option ℕ
  | .live vspace | .dropping _ vspace => some vspace
  | _ => none

/-- The thread at work on a slot. -/
def Life.owner : Life → Option ℕ
  | .starting i | .dropping i _ => some i
  | _ => none

/-- The slot a call works on. -/
def Call.slot : Call cfg → Option (Pid cfg)
  | .store_vspace _ p | .store_scheduler _ p | .init_stack _ p | .invalidate p => some p
  | .failed p => p
  | _ => none

namespace ProcessSlots

/-! ### Accesses -/

def set_table (s : ProcessSlots cfg) (p : Pid cfg) (slot : Slot) : ProcessSlots cfg :=
  { s with table := Function.update s.table p slot }

def set_life (s : ProcessSlots cfg) (p : Pid cfg) (life : Life) : ProcessSlots cfg :=
  { s with life := Function.update s.life p life }

def set_call (s : ProcessSlots cfg) (i : ℕ) (call : Call cfg) : ProcessSlots cfg :=
  { s with calls := Function.update s.calls i call }

def set_switch (s : ProcessSlots cfg) (c : Cpu cfg) (switch : Switch cfg) : ProcessSlots cfg :=
  { s with switching := Function.update s.switching c switch }

/-- `next_i.fetch_add(1) % PROCESS_NUM`: the index drawn. -/
def index (s : ProcessSlots cfg) : Pid cfg := ⟨s.next_i % cfg.process_num, Nat.mod_lt _ cfg.process_pos⟩

/-- `switch_vspace` up to the comparison of the pids. -/
def switch_vspace (s : ProcessSlots cfg) (c : Cpu cfg) (vspace_pid : Pid cfg) : Option (ProcessSlots cfg) :=
  match s.switching c with
  | .idle =>
    let prev_vspace_pid := s.current_vspace c
    let s' := { s with current_vspace := Function.update s.current_vspace c vspace_pid }
    some (if vspace_pid ≠ prev_vspace_pid then s'.set_switch c (.load vspace_pid) else s')
  | _ => none

/-- The next access of `switch_vspace`. -/
def switch_next (s : ProcessSlots cfg) (c : Cpu cfg) : Option (ProcessSlots cfg) :=
  match s.switching c with
  | .idle => none
  | .load p =>
    let vspace := (s.table p).vspace
    some (s.set_switch c (if vspace = 0 then .idle else .into p vspace))
  | .into _ vspace => some ({ s with entered := Function.update s.entered c vspace }.set_switch c .idle)

/-- `process_init` up to the first draw of `register_process`. -/
def process_init (s : ProcessSlots cfg) (i : ℕ) (vspace : ℕ) : Option (ProcessSlots cfg) :=
  match s.calls i with
  | .idle => some ({ s with next_i := s.next_i + 1 }.set_call i (.claim vspace s.index s.index))
  | _ => none

/-- `process_drop` up to the swap of the pointer, for a pid that `process_init` returned and that was
    not dropped since. -/
def process_drop (s : ProcessSlots cfg) (i : ℕ) (p : Pid cfg) : Option (ProcessSlots cfg) :=
  match s.calls i, s.life p with
  | .idle, .live vspace =>
    some (((s.set_table p { s.table p with vspace := 0 }).set_life p (.dropping i vspace)).set_call i
      (.invalidate p))
  | _, _ => none

/-- The next access of a thread. -/
def next (user_data : UserData) (s : ProcessSlots cfg) (i : ℕ) : Option (ProcessSlots cfg) :=
  match s.calls i with
  | .claim vspace start_index index =>
    if (s.table index).valid then some (s.set_call i (.draw vspace start_index))
    else
      some (((s.set_table index { s.table index with valid := true }).set_life index (.starting i)).set_call i
        (.store_vspace vspace index))
  | .draw vspace start_index =>
    some ({ s with next_i := s.next_i + 1 }.set_call i
      (if s.index = start_index then .failed none else .claim vspace start_index s.index))
  | .store_vspace vspace p =>
    some ((s.set_table p { s.table p with vspace := vspace }).set_call i (.store_scheduler vspace p))
  | .store_scheduler vspace p =>
    let user_scheduler := user_data .user_scheduler vspace
    if user_scheduler = 0 then some (s.set_call i (.failed (some p)))
    else
      some ((s.set_table p { s.table p with scheduler := user_scheduler }).set_call i (.init_stack vspace p))
  | .init_stack vspace p =>
    if user_data .stack_handler vspace = 0 then some (s.set_call i (.failed (some p)))
    else some ((s.set_life p (.live vspace)).set_call i .idle)
  | .invalidate p =>
    some (((s.set_table p { s.table p with valid := false }).set_life p .free).set_call i .idle)
  | .idle | .failed _ => none

/-- The steps, of the CPU `c` or of the thread `i`. -/
inductive Act (cfg : Config) where
  | switch_vspace (c : Cpu cfg) (vspace_pid : Pid cfg)
  | switch_next (c : Cpu cfg)
  | process_init (i : ℕ) (vspace : ℕ)
  | process_drop (i : ℕ) (p : Pid cfg)
  | next (i : ℕ)
  deriving DecidableEq

def step (user_data : UserData) (s : ProcessSlots cfg) : Act cfg → Option (ProcessSlots cfg)
  | .switch_vspace c p => s.switch_vspace c p
  | .switch_next c => s.switch_next c
  | .process_init i vspace => s.process_init i vspace
  | .process_drop i p => s.process_drop i p
  | .next i => s.next user_data i

/-- After the initialisation of the kernel: `ProcessInfoTable::default`, and `CURRENT_VSPACE` 0. -/
def boot (cfg : Config) : ProcessSlots cfg where
  table := fun p => ⟨p = .kernel, 0, 0⟩
  next_i := 1
  current_vspace := fun _ => .kernel
  entered := fun _ => 0
  switching := fun _ => .idle
  calls := fun _ => .idle
  life := fun p => if p = .kernel then .kernel else .free

/-! ### Who works on a slot -/

/-- How far `process_init` has come with a slot. -/
def Starts (user_data : UserData) (slot : Slot) (p : Pid cfg) : Call cfg → Prop
  | .store_vspace _ q => q = p
  | .store_scheduler vspace q => q = p ∧ slot.vspace = vspace
  | .init_stack vspace q => q = p ∧ slot.vspace = vspace ∧ user_data .user_scheduler vspace ≠ 0 ∧
    slot.scheduler = user_data .user_scheduler vspace
  | .failed q => q = some p
  | _ => False

/-- What the life of a slot says of its fields and of the thread at work on it. -/
def Kept (user_data : UserData) (s : ProcessSlots cfg) (p : Pid cfg) : Prop :=
  match s.life p with
  | .kernel => p = .kernel ∧ (s.table p).valid = true ∧ (s.table p).scheduler = 0
  | .free => (s.table p).valid = false
  | .starting i => (s.table p).valid = true ∧ Starts user_data (s.table p) p (s.calls i)
  | .live vspace => (s.table p).valid = true ∧ (s.table p).vspace = vspace ∧
    user_data .user_scheduler vspace ≠ 0 ∧ (s.table p).scheduler = user_data .user_scheduler vspace
  | .dropping i _ => (s.table p).valid = true ∧ (s.table p).vspace = 0 ∧ s.calls i = .invalidate p

/-- Each slot is worked on by its owner alone. -/
structure Owned (user_data : UserData) (s : ProcessSlots cfg) : Prop where
  kept : ∀ p, s.Kept user_data p
  owner : ∀ i p, (s.calls i).slot = some p → (s.life p).owner = some i

variable {user_data : UserData} {s s' : ProcessSlots cfg} {p q : Pid cfg} {i : ℕ}

theorem Starts.slot {slot : Slot} : ∀ {call : Call cfg}, Starts user_data slot p call → call.slot = some p
  | .store_vspace _ _, h => congrArg some h
  | .store_scheduler _ _, h | .init_stack _ _, h => congrArg some h.1
  | .failed _, h => h

/-- The owner of a slot works on it. -/
theorem Kept.slot (h : s.Kept user_data p) (ho : (s.life p).owner = some i) : (s.calls i).slot = some p := by
  unfold Kept at h
  cases hl : s.life p with
  | kernel => simp [hl, Life.owner] at ho
  | free => simp [hl, Life.owner] at ho
  | live vspace => simp [hl, Life.owner] at ho
  | starting j =>
    rw [hl] at h ho
    obtain rfl : j = i := by simpa [Life.owner] using ho
    exact h.2.slot
  | dropping j vspace =>
    rw [hl] at h ho
    obtain rfl : j = i := by simpa [Life.owner] using ho
    rw [h.2.2]
    rfl

/-- A slot nobody else touches stays as it is. -/
theorem Kept.frame (h : s.Kept user_data q) (htable : s'.table q = s.table q) (hlife : s'.life q = s.life q)
    (hcalls : ∀ j, (s.life q).owner = some j → s'.calls j = s.calls j) : s'.Kept user_data q := by
  unfold Kept at h ⊢
  rw [hlife, htable]
  cases hl : s.life q with
  | starting j =>
    rw [hl] at h
    simpa only [hcalls j (by rw [hl]; rfl)] using h
  | dropping j vspace =>
    rw [hl] at h
    simpa only [hcalls j (by rw [hl]; rfl)] using h
  | _ => simpa only [hl] using h

/-- One thread moves on, from a call on `p` or on no slot: only `p` and what it owns are looked at. -/
theorem Owned.move {call : Call cfg} (hO : s.Owned user_data) (htable : ∀ q, q ≠ p → s'.table q = s.table q)
    (hlife : ∀ q, q ≠ p → s'.life q = s.life q) (hcalls : s'.calls = Function.update s.calls i call)
    (hfrom : ∀ q, (s.calls i).slot = some q → q = p) (hto : ∀ q, call.slot = some q → q = p)
    (hown : ∀ j, (s.life p).owner = some j → j = i)
    (howner : call.slot = some p → (s'.life p).owner = some i)
    (hkept : s'.Kept user_data p) : s'.Owned user_data := by
  refine ⟨fun q => ?_, fun j q hq => ?_⟩
  · rcases eq_or_ne q p with rfl | hne
    · exact hkept
    · refine (hO.kept q).frame (htable q hne) (hlife q hne) fun j hj => ?_
      have hji : j ≠ i := by
        rintro rfl
        exact hne (hfrom q ((hO.kept q).slot hj))
      rw [hcalls, Function.update_of_ne hji]
  · rcases eq_or_ne j i with rfl | hji
    · rw [hcalls, Function.update_self] at hq
      obtain rfl := hto q hq
      exact howner hq
    · rw [hcalls, Function.update_of_ne hji] at hq
      have ho := hO.owner j q hq
      have hne : q ≠ p := by
        rintro rfl
        exact hji (hown j ho)
      rw [hlife q hne]
      exact ho

/-- A thread that works on no slot moves on to a call on no slot. -/
theorem Owned.pass {call : Call cfg} (hO : s.Owned user_data) (htable : s'.table = s.table)
    (hlife : s'.life = s.life) (hcalls : s'.calls = Function.update s.calls i call)
    (hfrom : (s.calls i).slot = none) (hto : call.slot = none) : s'.Owned user_data := by
  refine ⟨fun q => ?_, fun j q hq => ?_⟩
  · refine (hO.kept q).frame (by rw [htable]) (by rw [hlife]) fun j hj => ?_
    have hji : j ≠ i := by
      rintro rfl
      have hq := (hO.kept q).slot hj
      rw [hfrom] at hq
      cases hq
    rw [hcalls, Function.update_of_ne hji]
  · rw [hlife]
    rcases eq_or_ne j i with rfl | hji
    · rw [hcalls, Function.update_self, hto] at hq
      cases hq
    · rw [hcalls, Function.update_of_ne hji] at hq
      exact hO.owner j q hq

/-- A slot that is not valid is free. -/
theorem Kept.free (h : s.Kept user_data p) (hv : (s.table p).valid = false) : s.life p = .free := by
  unfold Kept at h
  cases hl : s.life p with
  | free => rfl
  | _ => simp [hl, hv] at h

theorem switch_vspace_unchanged {c : Cpu cfg} (h : s.switch_vspace c p = some s') :
    s'.table = s.table ∧ s'.life = s.life ∧ s'.calls = s.calls := by
  simp only [switch_vspace] at h
  split at h
  · obtain rfl := Option.some.inj h
    split <;> exact ⟨rfl, rfl, rfl⟩
  · cases h

theorem switch_next_unchanged {c : Cpu cfg} (h : s.switch_next c = some s') :
    s'.table = s.table ∧ s'.life = s.life ∧ s'.calls = s.calls := by
  simp only [switch_next] at h
  split at h
  · cases h
  · obtain rfl := Option.some.inj h
    exact ⟨rfl, rfl, rfl⟩
  · obtain rfl := Option.some.inj h
    exact ⟨rfl, rfl, rfl⟩

/-- A thread moves on in a call on `p`, from one on `p` or on no slot. -/
theorem Owned.work {slot : Slot} {life : Life} {call : Call cfg} (hO : s.Owned user_data)
    (hs' : s' = ((s.set_table p slot).set_life p life).set_call i call)
    (hfrom : ∀ q, (s.calls i).slot = some q → q = p) (hto : ∀ q, call.slot = some q → q = p)
    (hown : ∀ j, (s.life p).owner = some j → j = i) (howner : call.slot = some p → life.owner = some i)
    (hkept : s'.Kept user_data p) : s'.Owned user_data := by
  subst hs'
  refine hO.move (fun q hq => ?_) (fun q hq => ?_) rfl hfrom hto hown ?_ hkept
  · simp [set_table, set_life, set_call, hq]
  · simp [set_table, set_life, set_call, hq]
  · simpa [set_table, set_life, set_call] using howner

/-- A thread inside `process_init` is at work on a slot that is starting. -/
theorem Owned.starting (hO : s.Owned user_data) (hslot : (s.calls i).slot = some p)
    (hcall : s.calls i ≠ .invalidate p) :
    s.life p = .starting i ∧ (s.table p).valid = true ∧ Starts user_data (s.table p) p (s.calls i) := by
  have ho := hO.owner i p hslot
  have hk := hO.kept p
  unfold Kept at hk
  cases hl : s.life p with
  | starting j =>
    rw [hl] at hk ho
    obtain rfl : j = i := by simpa [Life.owner] using ho
    exact ⟨rfl, hk⟩
  | dropping j vspace =>
    rw [hl] at hk ho
    obtain rfl : j = i := by simpa [Life.owner] using ho
    exact absurd hk.2.2 hcall
  | _ => simp [hl, Life.owner] at ho

/-- A thread about to invalidate a slot is dropping it. -/
theorem Owned.dropping (hO : s.Owned user_data) (hcall : s.calls i = .invalidate p) :
    ∃ j vspace, s.life p = .dropping j vspace := by
  have ho := hO.owner i p (by rw [hcall]; rfl)
  have hk := hO.kept p
  unfold Kept at hk
  cases hl : s.life p with
  | dropping j vspace => exact ⟨j, vspace, rfl⟩
  | starting j =>
    rw [hl] at hk ho
    obtain rfl : j = i := by simpa [Life.owner] using ho
    obtain ⟨-, hstarts⟩ := hk
    rw [hcall] at hstarts
    exact hstarts.elim
  | _ => simp [hl, Life.owner] at ho

/-- A thread inside `process_init` goes on with its slot. -/
theorem Owned.advance {slot : Slot} {call : Call cfg} (hO : s.Owned user_data)
    (hslot : (s.calls i).slot = some p) (hcall : s.calls i ≠ .invalidate p)
    (hs' : s' = (s.set_table p slot).set_call i call) (hvalid : slot.valid = true)
    (hstarts : Starts user_data slot p call) : s'.Owned user_data := by
  obtain ⟨hl, -, -⟩ := hO.starting hslot hcall
  have hself : (s.set_table p slot).set_life p (.starting i) = s.set_table p slot := by
    rw [← hl]
    simp [set_table, set_life]
  have hown : ∀ j, (s.life p).owner = some j → j = i := by
    intro j hj
    rw [hl] at hj
    exact (Option.some.inj hj).symm
  have hto : ∀ q, call.slot = some q → q = p := by
    intro q hq
    rw [hstarts.slot] at hq
    exact (Option.some.inj hq).symm
  refine hO.work (hs'.trans (by rw [hself])) (fun q hq => ?_) hto hown (fun _ => rfl) ?_
  · rw [hslot] at hq
    exact (Option.some.inj hq).symm
  · subst hs'
    simpa [Kept, set_table, set_life, set_call, hl] using ⟨hvalid, hstarts⟩

theorem Owned.fail (hO : s.Owned user_data) (hslot : (s.calls i).slot = some p)
    (hcall : s.calls i ≠ .invalidate p) (hs' : s' = s.set_call i (.failed (some p))) : s'.Owned user_data := by
  obtain ⟨-, hvalid, -⟩ := hO.starting hslot hcall
  have htable : s' = (s.set_table p (s.table p)).set_call i (.failed (some p)) := by
    rw [hs']
    simp [set_table]
  exact hO.advance hslot hcall htable hvalid rfl

/-- A thread leaves its slot. -/
theorem Owned.release {slot : Slot} {life : Life} (hO : s.Owned user_data)
    (hslot : (s.calls i).slot = some p) (hs' : s' = ((s.set_table p slot).set_life p life).set_call i .idle)
    (hkept : s'.Kept user_data p) : s'.Owned user_data := by
  have hown : ∀ j, (s.life p).owner = some j → j = i := by
    intro j hj
    rw [hO.owner i p hslot] at hj
    exact (Option.some.inj hj).symm
  refine hO.work hs' (fun q hq => ?_) (by simp [Call.slot]) hown (by simp [Call.slot]) hkept
  rw [hslot] at hq
  exact (Option.some.inj hq).symm

theorem next_owned (hO : s.Owned user_data) (h : s.next user_data i = some s') : s'.Owned user_data := by
  have htable : ∀ p, s.set_table p (s.table p) = s := fun p => by simp [set_table]
  simp only [next] at h
  cases hcall : s.calls i with
  | idle => simp [hcall] at h
  | failed q => simp [hcall] at h
  | claim vspace start index =>
    simp only [hcall] at h
    split at h
    · obtain rfl := Option.some.inj h
      exact hO.pass rfl rfl rfl (by rw [hcall]; rfl) rfl
    · rename_i hv
      have hfree := (hO.kept index).free (by simpa using hv)
      obtain rfl := Option.some.inj h
      refine hO.work rfl (by simp [hcall, Call.slot]) (by simp [Call.slot]) (by simp [hfree, Life.owner])
        (fun _ => rfl) ?_
      simp [Kept, set_table, set_life, set_call, Starts]
  | draw vspace start =>
    simp only [hcall] at h
    obtain rfl := Option.some.inj h
    refine hO.pass rfl rfl rfl (by rw [hcall]; rfl) ?_
    split <;> rfl
  | store_vspace vspace p =>
    simp only [hcall] at h
    have hslot : (s.calls i).slot = some p := by rw [hcall]; rfl
    have hne : s.calls i ≠ .invalidate p := by simp [hcall]
    obtain ⟨-, hvalid, -⟩ := hO.starting hslot hne
    exact hO.advance hslot hne (Option.some.inj h).symm hvalid ⟨rfl, rfl⟩
  | store_scheduler vspace p =>
    simp only [hcall] at h
    have hslot : (s.calls i).slot = some p := by rw [hcall]; rfl
    have hne : s.calls i ≠ .invalidate p := by simp [hcall]
    obtain ⟨-, hvalid, hstarts⟩ := hO.starting hslot hne
    rw [hcall] at hstarts
    split at h
    · exact hO.fail hslot hne (Option.some.inj h).symm
    · rename_i hnull
      exact hO.advance hslot hne (Option.some.inj h).symm hvalid ⟨rfl, hstarts.2, hnull, rfl⟩
  | init_stack vspace p =>
    simp only [hcall] at h
    have hslot : (s.calls i).slot = some p := by rw [hcall]; rfl
    have hne : s.calls i ≠ .invalidate p := by simp [hcall]
    obtain ⟨hl, hvalid, hstarts⟩ := hO.starting hslot hne
    rw [hcall] at hstarts
    split at h
    · exact hO.fail hslot hne (Option.some.inj h).symm
    · obtain rfl := Option.some.inj h
      have hkept : ((s.set_life p (.live vspace)).set_call i .idle).Kept user_data p := by
        simpa [Kept, set_life, set_call] using ⟨hvalid, hstarts.2⟩
      rw [← htable p] at hkept ⊢
      exact hO.release hslot rfl hkept
  | invalidate p =>
    simp only [hcall] at h
    refine hO.release (by rw [hcall]; rfl) (Option.some.inj h).symm ?_
    obtain rfl := Option.some.inj h
    simp [Kept, set_table, set_life, set_call]

theorem step_owned {act : Act cfg} (hO : s.Owned user_data) (h : step user_data s act = some s') :
    s'.Owned user_data := by
  have switched (hs : s'.table = s.table ∧ s'.life = s.life ∧ s'.calls = s.calls) : s'.Owned user_data := by
    obtain ⟨htable, hlife, hcalls⟩ := hs
    refine ⟨fun q => (hO.kept q).frame (by rw [htable]) (by rw [hlife]) fun j _ => by rw [hcalls], fun j q hq => ?_⟩
    rw [hcalls] at hq
    rw [hlife]
    exact hO.owner j q hq
  cases act with
  | switch_vspace c p => exact switched (switch_vspace_unchanged h)
  | switch_next c => exact switched (switch_next_unchanged h)
  | process_init i vspace =>
    simp only [step, process_init] at h
    split at h
    · rename_i hidle
      obtain rfl := Option.some.inj h
      exact hO.pass rfl rfl rfl (by rw [hidle]; rfl) rfl
    · cases h
  | process_drop i p =>
    simp only [step, process_drop] at h
    split at h
    · rename_i vspace hidle hl
      have hk := hO.kept p
      simp only [Kept, hl] at hk
      refine hO.work (Option.some.inj h).symm (by simp [hidle, Call.slot]) (by simp [Call.slot])
        (by simp [hl, Life.owner]) (fun _ => rfl) ?_
      obtain rfl := Option.some.inj h
      simpa [Kept, set_table, set_life, set_call] using hk.1
    · cases h
  | next i => exact next_owned hO h

theorem boot_owned (user_data : UserData) : (boot cfg).Owned user_data := by
  refine ⟨fun p => ?_, fun i p hp => by simp [boot, Call.slot] at hp⟩
  by_cases hp : p = .kernel
  · simp [Kept, boot, hp]
  · simp [Kept, boot, hp]

theorem run_owned {as : List (Act cfg)} (h : Runs.run (step user_data) (boot cfg) as = some s) :
    s.Owned user_data :=
  Runs.run_invariant (fun _ _ _ hO hs => step_owned hO hs) as (boot_owned user_data) h

/-- Objects 64 bytes behind the vspace pointer. -/
def at_offset : UserData := fun _ vspace => vspace + 64

end ProcessSlots

end Vsched2
