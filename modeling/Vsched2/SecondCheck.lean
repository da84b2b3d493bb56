import Vsched2.SharedReadyQueue
import Vsched2.Scheduler
import Vsched2.Machine

/-! A CPU goes to sleep while others push tasks.

    One CPU runs the loop of `kschedule`: `pop_task` of the kernel scheduler, and
    `wait_for_runnable_task` when it has found nothing. The others run `push_task`. `pop_task` reads the
    queues and stores what it has read for its CPU, and what a `push_task` has stored for the CPU in
    between is lost: the second check, which reads the stored priority, does not see the task. -/

namespace Vsched2

variable {cfg : Config}

namespace SecondCheck

/-- Where a CPU stands. -/
inductive Pc (cfg : Config) where
  -- outside `push_task`, with what it last returned
  | idle (res : Option (Except TaskPtr Unit))
  -- `push_task`: before `push_back`, before `fetch_or`, before the two reads of `hightest_priority`,
  -- and before the stores of `update_prio` still to be made
  | push (l : Level cfg) (task : TaskPtr)
  | pushed (l : Level cfg) (task : TaskPtr)
  | read_traps (task : TaskPtr)
  | read_bitmap (task : TaskPtr) (trap_prio : ℤ)
  | publish (task : TaskPtr) (prio : ℤ) (cpus : List (Cpu cfg))
  -- `pop_task`: before the reads of the two priorities, in `take_task` of the trap wait queue and of
  -- the ready queue, and before the stores of `update_prio` when nothing was taken
  | pop_traps
  | pop_bitmap (trap_prio : ℤ)
  | take_trap (second_prio : ℤ)
  | take_task (levels : List (Level cfg)) (second_prio : ℤ)
  | store (prio : ℤ) (cpus : List (Cpu cfg))
  -- `pop_task` has a task, and `kschedule` ends
  | found
  -- `wait_for_runnable_task`: before the store of IS_SLEEPING, before the read of the kernel's priority
  -- in `process_schedule`, before the read of the selected process's priority, before the store that
  -- clears IS_SLEEPING, and in `wait_irqs`
  | sleeping
  | check
  | recheck (kernel : Bool)
  | clear
  | wait_irqs
  | panicked
  deriving DecidableEq

/-- The shared data: the ready queue of the kernel scheduler, the CPUs with a pending trap, the
    kernel's row of published priorities, the least priority the other processes have published for
    the CPU that schedules, and its IS_SLEEPING.

    `fresh` says that a `push_task` has stored its priority for that CPU since the CPU has read the
    bitmap. `sent` are the tasks whose `push_task` has stored it, `returned` those whose `push_task` has
    returned `Ok`, `early` those of them it had when the CPU set IS_SLEEPING. -/
structure State (cfg : Config) where
  queue : ReadyQueue cfg TaskPtr
  traps : Cpu cfg → Bool
  highest_prio : Row cfg
  others : ℤ
  is_sleeping : Bool
  pc : Cpu cfg → Pc cfg
  fresh : Bool
  sent : List TaskPtr
  returned : List TaskPtr
  early : List TaskPtr

/-- A CPU calls `push_task` with a task whose `priority()` is `prio`, or makes its next access. -/
inductive Act (cfg : Config) where
  | push_task (c : Cpu cfg) (task : TaskPtr) (prio : ℤ)
  | next (c : Cpu cfg)
  deriving DecidableEq

def State.set_pc (s : State cfg) (c : Cpu cfg) (pc : Pc cfg) : State cfg :=
  { s with pc := Function.update s.pc c pc }

/-- `hightest_priority` of the trap wait queue on a CPU. -/
def State.trap_prio (s : State cfg) (c : Cpu cfg) : ℤ :=
  if s.traps c then cfg.active_priority else cfg.inactive_priority

/-- The next access of a CPU; `a` is the one that schedules. -/
def next (a : Cpu cfg) (s : State cfg) (c : Cpu cfg) : Option (State cfg) :=
  match s.pc c with
  | .push l task =>
    match s.queue.push_back l task with
    | some q => some ({ s with queue := q }.set_pc c (.pushed l task))
    | none => some (s.set_pc c (.idle (some (.error task))))
  | .pushed l task => some ({ s with queue := s.queue.fetch_or l }.set_pc c (.read_traps task))
  | .read_traps task => some (s.set_pc c (.read_bitmap task (s.trap_prio c)))
  | .read_bitmap task trap_prio =>
    let prio := [trap_prio, s.queue.hightest_priority].foldl (fun a b => if a < b then a else b) cfg.isize_max
    some (s.set_pc c (.publish task prio (List.finRange cfg.cpu_num)))
  | .publish task prio (d :: cpus) =>
    let s' := { s with highest_prio := Function.update s.highest_prio d prio }.set_pc c (.publish task prio cpus)
    some (if d = a then { s' with fresh := true, sent := s.sent ++ [task] } else s')
  | .publish task _ [] => some ({ s with returned := s.returned ++ [task] }.set_pc c (.idle (some (.ok ()))))
  | .pop_traps => some (s.set_pc c (.pop_bitmap (s.trap_prio c)))
  | .pop_bitmap trap_prio =>
    let s' := { s with fresh := false }
    let least := fold_two (fold_two ((none, cfg.isize_max), (none, cfg.isize_max)) (some 0, trap_prio))
      (some 1, s.queue.hightest_priority)
    match least.1.1 with
    | none => some (s'.set_pc c (.store cfg.isize_max [c]))
    | some 0 => some (s'.set_pc c (.take_trap least.2.2))
    | some _ => some (s'.set_pc c (.take_task (List.finRange cfg.priority_levels) least.2.2))
  | .take_trap second_prio =>
    let new_prio := cfg.inactive_priority
    if s.traps c then some (s.set_pc c .found)
    else some (s.set_pc c (.store (if new_prio < second_prio then new_prio else second_prio) [c]))
  | .take_task (l :: levels) second_prio =>
    match s.queue.queues l with
    | [] => some (s.set_pc c (.take_task levels second_prio))
    | _ :: rest => some ({ s with queue := s.queue.set_level l rest }.set_pc c .found)
  | .take_task [] second_prio =>
    let new_prio := cfg.lowest_priority + 1
    some (s.set_pc c (.store (if new_prio < second_prio then new_prio else second_prio) (List.finRange cfg.cpu_num)))
  | .store prio (d :: cpus) =>
    some ({ s with highest_prio := Function.update s.highest_prio d prio }.set_pc c (.store prio cpus))
  | .store _ [] => some (s.set_pc c .sleeping)
  | .sleeping => some ({ s with is_sleeping := true, early := s.returned }.set_pc c .check)
  | .check => some (s.set_pc c (.recheck (s.highest_prio c ≤ s.others)))
  | .recheck kernel =>
    let next_prio := if kernel then s.highest_prio c else s.others
    some (s.set_pc c (if next_prio ≤ cfg.lowest_priority then .clear else .wait_irqs))
  | .clear => some ({ s with is_sleeping := false }.set_pc c .pop_traps)
  | .wait_irqs => some (s.set_pc c .pop_traps)
  | .idle _ | .found | .panicked => none

def step (a : Cpu cfg) (s : State cfg) : Act cfg → Option (State cfg)
  | .push_task c task prio =>
    match s.pc c, cfg.level prio with
    | .idle _, some l => some (s.set_pc c (.push l task))
    | .idle _, none => some (s.set_pc c .panicked)
    | _, _ => none
  | .next c => next a s c

/-- CPU `a` begins `pop_task`, the others are outside `push_task`. -/
def start (a : Cpu cfg) (queue : ReadyQueue cfg TaskPtr) (traps : Cpu cfg → Bool) (row : Row cfg) (others : ℤ) :
    State cfg where
  queue := queue
  traps := traps
  highest_prio := row
  others := others
  is_sleeping := false
  pc := Function.update (fun _ => .idle none) a .pop_traps
  fresh := false
  sent := []
  returned := []
  early := []

/-- The CPU has not gone to sleep over a task whose `push_task` had returned before IS_SLEEPING was
    set. -/
def NoneMissed (a : Cpu cfg) (s : State cfg) : Prop :=
  s.pc a = .wait_irqs → ∀ task ∈ s.early, ∀ l, task ∉ s.queue.queues l

/-- The next access of `pop_task` is its store into the entry of `c`. -/
def Pc.stores (c : Cpu cfg) : Pc cfg → Bool
  | .store _ (d :: _) => d = c
  | _ => false

/-- When `pop_task` has found nothing and stores that for its CPU, no `push_task` has stored a priority
    there since it has read the bitmap. -/
def Undisturbed (a : Cpu cfg) (s : State cfg) (act : Act cfg) : Prop :=
  act = .next a → (s.pc a).stores a = true → s.fresh = false

instance (a : Cpu cfg) (s : State cfg) (act : Act cfg) : Decidable (Undisturbed a s act) :=
  inferInstanceAs (Decidable (_ → _ → _))

/-! ### The invariant -/

variable {a c : Cpu cfg} {s s' : State cfg} {task : TaskPtr} {l : Level cfg}

/-- A place of the CPU that schedules. -/
def Pc.schedules : Pc cfg → Bool
  | .pop_traps | .pop_bitmap _ | .take_trap _ | .take_task _ _ | .store _ _ | .found | .sleeping | .check | .recheck _
  | .clear | .wait_irqs => true
  | _ => false

/-- The task of a `push_task` that has set the bit and has not returned. -/
def Pc.publishes : Pc cfg → Option TaskPtr
  | .read_traps task | .read_bitmap task _ | .publish task _ _ => some task
  | _ => none

/-- The task is in a deque whose bit is set. -/
def Shown (s : State cfg) (task : TaskPtr) : Prop := ∃ l, task ∈ s.queue.queues l ∧ s.queue.Ready l

/-- What the CPU that schedules can rely on where it stands. A task that was published before it has
    read the bitmap will be found; one that was published after it has stored the priority will be
    seen. -/
def Expects (a : Cpu cfg) (s : State cfg) : Pc cfg → Prop
  | .pop_bitmap trap_prio => trap_prio = s.trap_prio a
  | .take_trap _ => s.traps a = true ∨ (s.fresh = false → s.sent = [])
  | .take_task levels _ => (∃ l ∈ levels, s.queue.queues l ≠ []) ∨ (s.fresh = false → s.sent = [])
  | .store _ cpus =>
    if a ∈ cpus then s.fresh = false → s.sent = [] else s.sent = [] ∨ s.highest_prio a ≤ cfg.lowest_priority
  | .sleeping => s.sent = [] ∨ s.highest_prio a ≤ cfg.lowest_priority
  | .check | .recheck true => s.early = [] ∨ s.highest_prio a ≤ cfg.lowest_priority
  | .recheck false => s.early = [] ∨ s.others ≤ cfg.lowest_priority
  | .wait_irqs => s.early = []
  | _ => True

structure Sound (a : Cpu cfg) (s : State cfg) : Prop where
  own : (s.pc a).schedules = true
  pushers : ∀ c, c ≠ a → (s.pc c).schedules = false
  pushed : ∀ c l task, s.pc c = .pushed l task → task ∈ s.queue.queues l
  shown : ∀ c task, (s.pc c).publishes = some task → Shown s task
  urgent : ∀ c task prio cpus, s.pc c = .publish task prio cpus →
    prio ≤ cfg.lowest_priority ∧ (a ∉ cpus → task ∈ s.sent)
  sent : ∀ task ∈ s.sent, Shown s task
  returned : ∀ task ∈ s.returned, task ∈ s.sent
  expects : Expects a s (s.pc a)

/-- As long as the CPU has not taken a task. -/
def Inv (a : Cpu cfg) (s : State cfg) : Prop := s.pc a = .found ∨ Sound a s

/-! ### The steps of the others -/

/-- What the CPU that schedules sees of them. -/
structure Pushes (a : Cpu cfg) (s s' : State cfg) : Prop where
  pc : s'.pc a = s.pc a
  queues : ∀ l task, task ∈ s.queue.queues l → task ∈ s'.queue.queues l
  ready : ∀ l, s.queue.Ready l → s'.queue.Ready l
  traps : s'.traps = s.traps
  others : s'.others = s.others
  early : s'.early = s.early
  published : (s'.fresh = s.fresh ∧ s'.sent = s.sent ∧ s'.highest_prio a = s.highest_prio a) ∨
    (s'.fresh = true ∧ s'.highest_prio a ≤ cfg.lowest_priority)

theorem Pushes.shown (hp : Pushes a s s') (h : Shown s task) : Shown s' task := by
  obtain ⟨l, hmem, hready⟩ := h
  exact ⟨l, hp.queues l task hmem, hp.ready l hready⟩

theorem Pushes.expects (hp : Pushes a s s') : ∀ {pc : Pc cfg}, Expects a s pc → Expects a s' pc := by
  intro pc h
  rcases hp.published with ⟨hf, hs, hr⟩ | ⟨hf, hr⟩
  · cases pc with
    | take_task levels second =>
      simp only [Expects, hf, hs] at h ⊢
      refine h.imp_left ?_
      rintro ⟨l, hl, hne⟩
      obtain ⟨task, hmem⟩ := List.exists_mem_of_ne_nil _ hne
      exact ⟨l, hl, List.ne_nil_of_mem (hp.queues l task hmem)⟩
    | recheck kernel => cases kernel <;> simpa only [Expects, hp.early, hp.others, hr] using h
    | pop_bitmap | take_trap | store | sleeping | check | wait_irqs =>
      simpa only [Expects, State.trap_prio, hp.traps, hp.early, hf, hs, hr] using h
    | _ => trivial
  · cases pc with
    | take_trap | take_task => exact Or.inr (by simp [hf])
    | store prio cpus =>
      simp only [Expects]
      split
      · simp [hf]
      · exact Or.inr hr
    | sleeping | check => exact Or.inr hr
    | recheck kernel =>
      cases kernel
      · simpa only [Expects, hp.early, hp.others] using h
      · exact Or.inr hr
    | pop_bitmap | wait_irqs => simpa only [Expects, State.trap_prio, hp.traps, hp.early] using h
    | _ => trivial

/-- A step of another CPU that moves to `pc`. -/
theorem Sound.push {s₁ : State cfg} (hS : Sound a s) (hc : c ≠ a) (hp : Pushes a s s₁) (hpc : s₁.pc = s.pc)
    (pc : Pc cfg) (hsched : pc.schedules = false)
    (hpushed : ∀ l task, pc = .pushed l task → task ∈ s₁.queue.queues l)
    (hshown : ∀ task, pc.publishes = some task → Shown s₁ task)
    (hurgent : ∀ task prio cpus, pc = .publish task prio cpus →
      prio ≤ cfg.lowest_priority ∧ (a ∉ cpus → task ∈ s₁.sent))
    (hmono : ∀ task ∈ s.sent, task ∈ s₁.sent) (hsent : ∀ task ∈ s₁.sent, Shown s₁ task)
    (hreturned : ∀ task ∈ s₁.returned, task ∈ s₁.sent) : Sound a (s₁.set_pc c pc) := by
  have hself : (s₁.set_pc c pc).pc c = pc := by simp [State.set_pc]
  have hother : ∀ d, d ≠ c → (s₁.set_pc c pc).pc d = s.pc d := fun d hd => by simp [State.set_pc, hd, hpc]
  constructor
  · rw [hother a hc.symm]
    exact hS.own
  · intro d hd
    rcases eq_or_ne d c with rfl | hdc
    · rw [hself]
      exact hsched
    · rw [hother d hdc]
      exact hS.pushers d hd
  · intro d l task hd
    rcases eq_or_ne d c with rfl | hdc
    · exact hpushed l task (hself ▸ hd)
    · exact hp.queues l task (hS.pushed d l task (hother d hdc ▸ hd))
  · intro d task hd
    rcases eq_or_ne d c with rfl | hdc
    · exact hshown task (hself ▸ hd)
    · exact hp.shown (hS.shown d task (hother d hdc ▸ hd))
  · intro d task prio cpus hd
    rcases eq_or_ne d c with rfl | hdc
    · exact hurgent task prio cpus (hself ▸ hd)
    · obtain ⟨hprio, hstored⟩ := hS.urgent d task prio cpus (hother d hdc ▸ hd)
      exact ⟨hprio, fun h => hmono task (hstored h)⟩
  · exact hsent
  · exact hreturned
  · rw [hother a hc.symm]
    exact hp.expects hS.expects

/-- The other CPU touches nothing the CPU that schedules looks at. -/
theorem Pushes.refl (a : Cpu cfg) (s : State cfg) : Pushes a s s :=
  ⟨rfl, fun _ _ h => h, fun _ h => h, rfl, rfl, rfl, Or.inl ⟨rfl, rfl, rfl⟩⟩

/-- A step that moves on without touching shared data. -/
theorem Sound.moves (hS : Sound a s) (hc : c ≠ a) {pc : Pc cfg} (hsched : pc.schedules = false)
    (hpushed : ∀ l task, pc ≠ .pushed l task) (hshown : ∀ task, pc.publishes = some task → Shown s task)
    (hurgent : ∀ task prio cpus, pc = .publish task prio cpus → prio ≤ cfg.lowest_priority ∧ a ∈ cpus) :
    Sound a (s.set_pc c pc) := by
  refine hS.push hc (Pushes.refl a s) rfl _ hsched (fun l task h => absurd h (hpushed l task)) hshown ?_
    (fun _ h => h) hS.sent hS.returned
  intro task prio cpus h
  exact ⟨(hurgent task prio cpus h).1, fun hno => absurd (hurgent task prio cpus h).2 hno⟩

/-- `push_back` under the lock. -/
theorem Sound.push_back (hS : Sound a s) (hc : c ≠ a) {l : Level cfg} {task : TaskPtr} {q : ReadyQueue cfg TaskPtr}
    (hq : s.queue.push_back l task = some q) : Sound a ({ s with queue := q }.set_pc c (.pushed l task)) := by
  obtain rfl := ReadyQueue.push_back_eq_some hq
  have hmem : ∀ m u, u ∈ s.queue.queues m → u ∈ (s.queue.set_level l (s.queue.queues l ++ [task])).queues m := by
    intro m u hu
    exact ReadyQueue.mem_set_level hu fun hml => by simp [← hml, hu]
  have hp : Pushes a s { s with queue := s.queue.set_level l (s.queue.queues l ++ [task]) } :=
    ⟨rfl, hmem, fun _ h => h, rfl, rfl, rfl, Or.inl ⟨rfl, rfl, rfl⟩⟩
  refine hS.push hc hp rfl _ rfl ?_ (by simp [Pc.publishes]) (by simp) (fun _ h => h)
    (fun u hu => hp.shown (hS.sent u hu)) hS.returned
  rintro m u h
  obtain ⟨rfl, rfl⟩ := Pc.pushed.inj h
  simp

/-- `fetch_or`: the task is shown from now on. -/
theorem Sound.fetch_or (hS : Sound a s) (hc : c ≠ a) {l : Level cfg} {task : TaskPtr}
    (hpc : s.pc c = .pushed l task) : Sound a ({ s with queue := s.queue.fetch_or l }.set_pc c (.read_traps task)) := by
  have hp : Pushes a s { s with queue := s.queue.fetch_or l } :=
    ⟨rfl, fun _ _ h => h, fun m h => by simp [h], rfl, rfl, rfl, Or.inl ⟨rfl, rfl, rfl⟩⟩
  refine hS.push hc hp rfl _ rfl (by simp) ?_ (by simp) (fun _ h => h) (fun u hu => hp.shown (hS.sent u hu))
    hS.returned
  rintro u h
  obtain rfl := Option.some.inj h
  exact ⟨l, hS.pushed c l task hpc, by simp⟩

/-- A priority read while the task is shown is at least as urgent as the lowest one. -/
theorem Shown.urgent (h : Shown s task) (trap_prio : ℤ) :
    [trap_prio, s.queue.hightest_priority].foldl (fun a b => if a < b then a else b) cfg.isize_max ≤
      cfg.lowest_priority := by
  obtain ⟨l, -, hready⟩ := h
  have hle := ReadyQueue.hightest_priority_le hready
  have hmin := foldl_least_le_mem [trap_prio, s.queue.hightest_priority] cfg.isize_max
    (List.mem_cons_of_mem _ List.mem_cons_self)
  exact hmin.trans (hle.trans l.prio_le)

/-- `push_task` returns `Ok`; the priority is stored for every CPU by then. -/
theorem Sound.returns (hS : Sound a s) (hc : c ≠ a) (hsent : task ∈ s.sent) :
    Sound a ({ s with returned := s.returned ++ [task] }.set_pc c (.idle (some (.ok ())))) := by
  have hp : Pushes a s { s with returned := s.returned ++ [task] } :=
    ⟨rfl, fun _ _ h => h, fun _ h => h, rfl, rfl, rfl, Or.inl ⟨rfl, rfl, rfl⟩⟩
  refine hS.push hc hp rfl _ rfl (by simp) (by simp [Pc.publishes]) (by simp) (fun _ h => h) hS.sent ?_
  intro u hu
  rcases List.mem_append.mp hu with hu | hu
  · exact hS.returned u hu
  · rwa [List.mem_singleton.mp hu]

/-- The store of the priority for the CPU that schedules. -/
theorem Sound.publish_own (hS : Sound a s) (hc : c ≠ a) {prio : ℤ} {cpus : List (Cpu cfg)} (hshown : Shown s task)
    (hprio : prio ≤ cfg.lowest_priority) :
    Sound a ({ s with
      highest_prio := Function.update s.highest_prio a prio
      fresh := true
      sent := s.sent ++ [task] }.set_pc c (.publish task prio cpus)) := by
  have hp : Pushes a s { s with
      highest_prio := Function.update s.highest_prio a prio, fresh := true, sent := s.sent ++ [task] } :=
    ⟨rfl, fun _ _ h => h, fun _ h => h, rfl, rfl, rfl, Or.inr ⟨rfl, by simpa using hprio⟩⟩
  have hsent : ∀ u ∈ s.sent ++ [task], Shown s u := by
    intro u hu
    rcases List.mem_append.mp hu with hu | hu
    · exact hS.sent u hu
    · rwa [List.mem_singleton.mp hu]
  refine hS.push hc hp rfl (.publish task prio cpus) rfl (by simp) ?_ ?_ (fun u h => List.mem_append_left _ h) hsent
    (fun u hu => List.mem_append_left _ (hS.returned u hu))
  · rintro u h
    obtain rfl := Option.some.inj h
    exact hshown
  · rintro u prio' cpus' h
    obtain ⟨rfl, rfl, rfl⟩ := Pc.publish.inj h
    exact ⟨hprio, fun _ => by simp⟩

/-- The store of the priority for another CPU. -/
theorem Sound.publish_other (hS : Sound a s) (hc : c ≠ a) {d : Cpu cfg} {prio : ℤ} {cpus : List (Cpu cfg)}
    (hda : d ≠ a) (hshown : Shown s task) (hprio : prio ≤ cfg.lowest_priority) (hstored : a ∉ cpus → task ∈ s.sent) :
    Sound a ({ s with highest_prio := Function.update s.highest_prio d prio }.set_pc c
      (.publish task prio cpus)) := by
  have hp : Pushes a s { s with highest_prio := Function.update s.highest_prio d prio } :=
    ⟨rfl, fun _ _ h => h, fun _ h => h, rfl, rfl, rfl, Or.inl ⟨rfl, rfl, Function.update_of_ne (Ne.symm hda) _ _⟩⟩
  refine hS.push hc hp rfl _ rfl (by simp) ?_ ?_ (fun _ h => h) hS.sent hS.returned
  · rintro u h
    obtain rfl := Option.some.inj h
    exact hshown
  · rintro u prio' cpus' h
    obtain ⟨rfl, rfl, rfl⟩ := Pc.publish.inj h
    exact ⟨hprio, hstored⟩

theorem push_step_sound (hS : Sound a s) (hc : c ≠ a) (hs : next a s c = some s') : Sound a s' := by
  have hsched := hS.pushers c hc
  cases hpc : s.pc c with
  | push l task =>
    simp only [next, hpc] at hs
    split at hs <;> rename_i hq <;> rw [← Option.some.inj hs]
    · exact hS.push_back hc hq
    · exact hS.moves hc rfl (by simp) (by simp [Pc.publishes]) (by simp)
  | pushed l task =>
    simp only [next, hpc] at hs
    rw [← Option.some.inj hs]
    exact hS.fetch_or hc hpc
  | read_traps task =>
    simp only [next, hpc] at hs
    rw [← Option.some.inj hs]
    exact hS.moves hc rfl (by simp) (fun u h => hS.shown c u (by rw [hpc]; exact h)) (by simp)
  | read_bitmap task trap_prio =>
    have hshown : Shown s task := hS.shown c task (by simp [hpc, Pc.publishes])
    simp only [next, hpc] at hs
    rw [← Option.some.inj hs]
    refine hS.moves hc rfl (by simp) (fun u h => hS.shown c u (by rw [hpc]; exact h)) ?_
    rintro u prio cpus h
    obtain ⟨-, rfl, rfl⟩ := Pc.publish.inj h
    exact ⟨hshown.urgent trap_prio, by simp⟩
  | publish task prio cpus =>
    obtain ⟨hprio, hstored⟩ := hS.urgent c task prio cpus hpc
    have hshown : Shown s task := hS.shown c task (by simp [hpc, Pc.publishes])
    cases cpus with
    | nil =>
      simp only [next, hpc] at hs
      rw [← Option.some.inj hs]
      exact hS.returns hc (hstored (by simp))
    | cons d cpus =>
      simp only [next, hpc] at hs
      rw [← Option.some.inj hs]
      split
      · rename_i hda
        subst hda
        exact hS.publish_own hc hshown hprio
      · rename_i hda
        exact hS.publish_other hc hda hshown hprio fun hno => hstored (by simp [Ne.symm hda, hno])
  | idle | panicked => simp [next, hpc] at hs
  | _ => simp [hpc, Pc.schedules] at hsched

/-! ### The steps of the CPU that schedules -/

/-- The CPU goes on to `pc`, and no task comes or goes. -/
structure GoesOn (s s₁ : State cfg) (pc : Pc cfg) : Prop where
  schedules : pc.schedules = true
  queue : s₁.queue = s.queue
  places : s₁.pc = s.pc
  sent : s₁.sent = s.sent
  returned : s₁.returned = s.returned

theorem Sound.go {s₁ : State cfg} {pc : Pc cfg} (hS : Sound a s) (hg : GoesOn s s₁ pc) (hexp : Expects a s₁ pc) :
    Sound a (s₁.set_pc a pc) := by
  obtain ⟨hsched, hq, hpc, hsent, hret⟩ := hg
  have hself : (s₁.set_pc a pc).pc a = pc := by simp [State.set_pc]
  have hother : ∀ d, d ≠ a → (s₁.set_pc a pc).pc d = s.pc d := fun d hd => by simp [State.set_pc, hd, hpc]
  have hshown : ∀ task, Shown s task → Shown s₁ task := fun task h => by simpa [Shown, hq] using h
  -- where it stands it pushes nothing
  have hpc' : ∀ d pc', pc'.schedules = false → (s₁.set_pc a pc).pc d = pc' → s.pc d = pc' := by
    rintro d pc' hno hd
    rcases eq_or_ne d a with rfl | hda
    · rw [hself] at hd
      simp [← hd, hsched] at hno
    · exact hother d hda ▸ hd
  constructor
  · rw [hself]
    exact hsched
  · intro d hd
    rw [hother d hd]
    exact hS.pushers d hd
  · intro d l task hd
    have h := hS.pushed d l task (hpc' d _ rfl hd)
    simpa [State.set_pc, hq] using h
  · intro d task hd
    rcases eq_or_ne d a with rfl | hda
    · rw [hself] at hd
      cases pc <;> simp [Pc.publishes] at hd <;> simp [Pc.schedules] at hsched
    · rw [hother d hda] at hd
      exact hshown task (hS.shown d task hd)
  · intro d task prio cpus hd
    have h := hS.urgent d task prio cpus (hpc' d _ rfl hd)
    simpa [State.set_pc, hsent] using h
  · intro task h
    have h' : task ∈ s.sent := hsent ▸ h
    exact hshown task (hS.sent task h')
  · intro task h
    have h' : task ∈ s.returned := hret ▸ h
    show task ∈ s₁.sent
    rw [hsent]
    exact hS.returned task h'
  · rw [hself]
    exact hexp

/-- What `pop_task` does after it has read the bitmap: a task whose bit was set is on its way. -/
theorem pop_bitmap_sound {trap_prio : ℤ} (hS : Sound a s) (hpc : s.pc a = .pop_bitmap trap_prio)
    (hs : next a s a = some s') : Sound a s' := by
  have hmax := cfg.lowest_lt_max
  have hhl := cfg.highest_le_lowest
  have htrap : trap_prio = s.trap_prio a := by
    have h := hS.expects
    rwa [hpc] at h
  simp only [next, hpc] at hs
  by_cases hnil : s.sent = []
  · -- nothing was published before
    split at hs <;> rw [← Option.some.inj hs] <;> refine hS.go (by constructor <;> rfl) ?_
    · simp [Expects, hnil]
    · exact Or.inr fun _ => hnil
    · exact Or.inr fun _ => hnil
  · obtain ⟨task, hmem⟩ := List.exists_mem_of_ne_nil _ hnil
    obtain ⟨l, hqueue, hready⟩ := hS.sent task hmem
    have hle := ReadyQueue.hightest_priority_le hready
    have hge := ReadyQueue.highest_le_hightest_priority (q := s.queue)
    have hlow := l.prio_le
    by_cases ht : s.traps a = true
    · have hp : trap_prio = cfg.highest_priority := by simp [htrap, State.trap_prio, ht, Config.active_priority]
      obtain ⟨second, -, hfold⟩ :=
        fold_two_left (by omega : trap_prio < cfg.isize_max) (by omega : trap_prio ≤ s.queue.hightest_priority)
      rw [hfold] at hs
      rw [← Option.some.inj hs]
      exact hS.go (by constructor <;> rfl) (Or.inl ht)
    · have hp : trap_prio = cfg.lowest_priority + 1 := by simp [htrap, State.trap_prio, ht, Config.inactive_priority]
      obtain ⟨second, -, hfold⟩ :=
        fold_two_right (by omega : s.queue.hightest_priority < trap_prio) (by omega : trap_prio ≤ cfg.isize_max)
      rw [hfold] at hs
      rw [← Option.some.inj hs]
      exact hS.go (by constructor <;> rfl) (Or.inl ⟨l, by simp, List.ne_nil_of_mem hqueue⟩)

/-- `take_task` of the ready queue, level by level. -/
theorem take_task_sound {levels : List (Level cfg)} {second : ℤ} (hS : Sound a s)
    (hpc : s.pc a = .take_task levels second) (hs : next a s a = some s') : Inv a s' := by
  have hexp := hS.expects
  rw [hpc] at hexp
  cases levels with
  | nil =>
    simp only [next, hpc] at hs
    rw [← Option.some.inj hs]
    refine Or.inr (hS.go (by constructor <;> rfl) ?_)
    simpa [Expects] using hexp
  | cons l levels =>
    simp only [next, hpc] at hs
    split at hs <;> rename_i hq <;> rw [← Option.some.inj hs]
    · refine Or.inr (hS.go (by constructor <;> rfl) (hexp.imp_left ?_))
      rintro ⟨m, hm, hne⟩
      rcases List.mem_cons.mp hm with rfl | hm
      · exact absurd hq hne
      · exact ⟨m, hm, hne⟩
    · exact Or.inl (by simp [State.set_pc])

/-- The stores of `update_prio` when nothing was taken. Before the CPU stores its own entry nothing has been
    published since it has read the bitmap. -/
theorem store_sound {prio : ℤ} {cpus : List (Cpu cfg)} (hS : Sound a s) (hpc : s.pc a = .store prio cpus)
    (hu : Undisturbed a s (.next a)) (hs : next a s a = some s') : Sound a s' := by
  have hexp := hS.expects
  rw [hpc] at hexp
  cases cpus with
  | nil =>
    simp only [next, hpc] at hs
    rw [← Option.some.inj hs]
    exact hS.go (by constructor <;> rfl) hexp
  | cons d cpus =>
    simp only [next, hpc] at hs
    rw [← Option.some.inj hs]
    refine hS.go (by constructor <;> rfl) ?_
    rcases eq_or_ne d a with rfl | hda
    · have hnil : s.sent = [] := by
        simp only [Expects, List.mem_cons, true_or, if_true] at hexp
        exact hexp (hu rfl (by simp [hpc, Pc.stores]))
      simp [Expects, hnil]
    · simp only [Expects, List.mem_cons, hda.symm, false_or] at hexp ⊢
      simpa [hda.symm] using hexp

/-- The store of IS_SLEEPING. What has been returned by then has been sent. -/
theorem sleeping_sound (hS : Sound a s) (hpc : s.pc a = .sleeping) (hs : next a s a = some s') : Sound a s' := by
  have hexp := hS.expects
  rw [hpc] at hexp
  simp only [next, hpc] at hs
  rw [← Option.some.inj hs]
  refine hS.go (by constructor <;> rfl) (hexp.imp_left fun hnil => ?_)
  refine List.eq_nil_iff_forall_not_mem.mpr fun task hmem => ?_
  have hsent := hS.returned task hmem
  simp [hnil] at hsent

/-- The reads of the second check: the kernel's priority, and that of the process selected. -/
theorem check_sound (hS : Sound a s) (hpc : s.pc a = .check ∨ ∃ kernel, s.pc a = .recheck kernel)
    (hs : next a s a = some s') : Sound a s' := by
  have hexp := hS.expects
  rcases hpc with hpc | ⟨kernel, hpc⟩
  · rw [hpc] at hexp
    simp only [next, hpc] at hs
    rw [← Option.some.inj hs]
    refine hS.go (by constructor <;> rfl) ?_
    by_cases hk : s.highest_prio a ≤ s.others
    · simp only [hk, decide_true]
      exact hexp
    · simp only [hk, decide_false]
      exact hexp.imp_right fun h => by omega
  · rw [hpc] at hexp
    simp only [next, hpc] at hs
    rw [← Option.some.inj hs]
    by_cases hlow : (if kernel then s.highest_prio a else s.others) ≤ cfg.lowest_priority
    · rw [if_pos hlow]
      exact hS.go (by constructor <;> rfl) trivial
    · rw [if_neg hlow]
      refine hS.go (by constructor <;> rfl) ?_
      cases kernel
      · exact hexp.resolve_right hlow
      · exact hexp.resolve_right hlow

theorem own_step (hS : Sound a s) (hu : Undisturbed a s (.next a)) (hs : next a s a = some s') : Inv a s' := by
  have hown := hS.own
  have hexp := hS.expects
  cases hpc : s.pc a with
  | pop_bitmap trap_prio => exact Or.inr (pop_bitmap_sound hS hpc hs)
  | pop_traps =>
    simp only [next, hpc] at hs
    rw [← Option.some.inj hs]
    exact Or.inr (hS.go (by constructor <;> rfl) rfl)
  | take_trap second =>
    simp only [next, hpc] at hs
    split at hs <;> rename_i ht <;> rw [← Option.some.inj hs]
    · exact Or.inl (by simp [State.set_pc])
    · rw [hpc] at hexp
      refine Or.inr (hS.go (by constructor <;> rfl) ?_)
      simpa [Expects, ht] using hexp
  | take_task levels second => exact take_task_sound hS hpc hs
  | store prio cpus => exact Or.inr (store_sound hS hpc hu hs)
  | sleeping => exact Or.inr (sleeping_sound hS hpc hs)
  | check => exact Or.inr (check_sound hS (Or.inl hpc) hs)
  | recheck kernel => exact Or.inr (check_sound hS (Or.inr ⟨kernel, hpc⟩) hs)
  | clear | wait_irqs =>
    simp only [next, hpc] at hs
    rw [← Option.some.inj hs]
    exact Or.inr (hS.go (by constructor <;> rfl) trivial)
  | found => exact Or.inl (by simp [next, hpc] at hs)
  | _ => simp [hpc, Pc.schedules] at hown

/-! ### Runs -/

/-- A CPU changes no place but its own. -/
theorem next_other (hc : c ≠ a) (hs : next a s c = some s') : s'.pc a = s.pc a := by
  have hset : ∀ (s₁ : State cfg) (pc : Pc cfg), s₁.pc = s.pc → (s₁.set_pc c pc).pc a = s.pc a := by
    intro s₁ pc h
    simp [State.set_pc, hc.symm, h]
  cases hpc : s.pc c with
  | publish task prio cpus =>
    cases cpus <;> simp only [next, hpc] at hs <;> rw [← Option.some.inj hs]
    · exact hset _ _ rfl
    · split <;> exact hset _ _ rfl
  | store prio cpus =>
    cases cpus <;> simp only [next, hpc] at hs <;> rw [← Option.some.inj hs] <;> exact hset _ _ rfl
  | take_task levels second =>
    cases levels <;> simp only [next, hpc] at hs
    · rw [← Option.some.inj hs]
      exact hset _ _ rfl
    · split at hs <;> rw [← Option.some.inj hs] <;> exact hset _ _ rfl
  | push | pop_bitmap | take_trap =>
    simp only [next, hpc] at hs
    split at hs <;> rw [← Option.some.inj hs] <;> exact hset _ _ rfl
  | idle | found | panicked => simp [next, hpc] at hs
  | _ =>
    simp only [next, hpc] at hs
    rw [← Option.some.inj hs]
    exact hset _ _ rfl

theorem step_inv {act : Act cfg} (hI : Inv a s) (hu : Undisturbed a s act) (hs : step a s act = some s') :
    Inv a s' := by
  cases act with
  | push_task c task prio =>
    simp only [step] at hs
    -- the CPU was outside `push_task`, so it is not the one that schedules
    have hidle : ∀ res pc, s.pc c = .idle res → pc.schedules = false → (∀ l task, pc ≠ .pushed l task) →
        pc.publishes = none → Inv a (s.set_pc c pc) := by
      intro res pc hpc h₁ h₂ h₃
      rcases hI with hfound | hS
      · have hne : a ≠ c := by
          rintro rfl
          simp [hfound] at hpc
        exact Or.inl (by simp [State.set_pc, hne, hfound])
      · have hne : c ≠ a := by
          rintro rfl
          have hown := hS.own
          simp [hpc, Pc.schedules] at hown
        refine Or.inr (hS.push hne (Pushes.refl a s) rfl pc h₁ (fun l u h => absurd h (h₂ l u)) (by simp [h₃]) ?_
          (fun _ h => h) hS.sent hS.returned)
        rintro u prio cpus rfl
        simp [Pc.publishes] at h₃
    split at hs
    · rename_i hpc _
      rw [← Option.some.inj hs]
      exact hidle _ _ hpc rfl (by simp) rfl
    · rename_i hpc _
      rw [← Option.some.inj hs]
      exact hidle _ _ hpc rfl (by simp) rfl
    · cases hs
  | next c =>
    rcases hI with hfound | hS
    · rcases eq_or_ne c a with rfl | hc
      · simp [step, next, hfound] at hs
      · exact Or.inl ((next_other hc hs).trans hfound)
    · rcases eq_or_ne c a with rfl | hc
      · exact own_step hS hu hs
      · exact Or.inr (push_step_sound hS hc hs)

theorem start_inv (a : Cpu cfg) (queue : ReadyQueue cfg TaskPtr) (traps : Cpu cfg → Bool) (row : Row cfg)
    (others : ℤ) : Inv a (start a queue traps row others) := by
  have hself : (start a queue traps row others).pc a = .pop_traps := by simp [start]
  have hother : ∀ c, c ≠ a → (start a queue traps row others).pc c = .idle none := fun c hc => by simp [start, hc]
  have hplace : ∀ c, (start a queue traps row others).pc c = .pop_traps ∨
      (start a queue traps row others).pc c = .idle none := by
    intro c
    rcases eq_or_ne c a with rfl | hc
    · exact Or.inl hself
    · exact Or.inr (hother c hc)
  refine Or.inr ⟨by simp [hself, Pc.schedules], fun c hc => by simp [hother c hc, Pc.schedules], ?_, ?_, ?_, ?_, ?_, ?_⟩
  · intro c l task h
    rcases hplace c with hc | hc <;> simp [hc] at h
  · intro c task h
    rcases hplace c with hc | hc <;> simp [hc, Pc.publishes] at h
  · intro c task prio cpus h
    rcases hplace c with hc | hc <;> simp [hc] at h
  · intro task h
    simp [start] at h
  · intro task h
    simp [start] at h
  · rw [hself]
    trivial

/-- From any state of the scheduler, for any number of CPUs and every interleaving: if every store of
    `pop_task` for its CPU is undisturbed, the CPU does not go to sleep while a task is in the ready
    queue whose `push_task` had returned before IS_SLEEPING was set. -/
theorem no_sleep_over_published (a : Cpu cfg) (queue : ReadyQueue cfg TaskPtr) (traps : Cpu cfg → Bool) (row : Row cfg)
    (others : ℤ) (acts : List (Act cfg)) (s : State cfg)
    (hrun : Runs.run (step a) (start a queue traps row others) acts = some s)
    (halong : Runs.Along (step a) (Undisturbed a) (start a queue traps row others) acts) : NoneMissed a s := by
  have hI : Inv a s := Runs.along_invariant (fun _ _ _ hI hu hs => step_inv hI hu hs) acts
    (start_inv a queue traps row others) halong hrun
  intro hpc task hmem
  rcases hI with hfound | hS
  · simp [hfound] at hpc
  · have hnil : s.early = [] := by
      have h := hS.expects
      rwa [hpc] at h
    simp [hnil] at hmem

def other_cpu : Cpu duo := duo_second

/-- An empty scheduler, as the last round has left it. -/
def empty : State duo := start duo_first .new (fun _ => false) (fun _ => duo.lowest_priority + 1) duo.isize_max

/-- The other CPU pushes a task. -/
def push : List (Act duo) := .push_task other_cpu 7 0 :: List.replicate 7 (.next other_cpu)

/-- The push comes after the store, and the second check sees it. -/
theorem no_sleep_over_published_late : ∃ s : State duo,
    Runs.run (step duo_first) empty (List.replicate 4 (.next duo_first) ++ push ++ List.replicate 4 (.next duo_first)) =
      some s ∧ s.early = [7] ∧ s.pc duo_first = .clear ∧ NoneMissed duo_first s := by
  have hrun : ((Runs.run (step duo_first) empty (List.replicate 4 (.next duo_first) ++ push ++
      List.replicate 4 (.next duo_first))).map fun s => decide (s.early = [7] ∧ s.pc duo_first = .clear)) =
      some true := by decide +kernel
  obtain ⟨s, hs, hfacts⟩ := Option.map_eq_some_iff.mp hrun
  obtain ⟨hearly, hpc⟩ := of_decide_eq_true hfacts
  exact ⟨s, hs, hearly, hpc, no_sleep_over_published duo_first _ _ _ _ _ s hs (by decide +kernel)⟩

/-- The push comes between the read of the bitmap and the store: `pop_task` overwrites the priority the
    push has published, and the CPU sleeps over the task. -/
theorem sleeps_over_published : ∃ s : State duo,
    Runs.run (step duo_first) empty (List.replicate 2 (.next duo_first) ++ push ++ List.replicate 6 (.next duo_first)) =
      some s ∧ s.pc duo_first = .wait_irqs ∧ 7 ∈ s.early ∧ 7 ∈ s.queue.queues .top ∧ ¬ NoneMissed duo_first s := by
  have hrun : ((Runs.run (step duo_first) empty (List.replicate 2 (.next duo_first) ++ push ++
      List.replicate 6 (.next duo_first))).map fun s =>
        decide (s.pc duo_first = .wait_irqs ∧ 7 ∈ s.early ∧ 7 ∈ s.queue.queues .top)) = some true := by decide +kernel
  obtain ⟨s, hs, hfacts⟩ := Option.map_eq_some_iff.mp hrun
  obtain ⟨hpc, hearly, hqueue⟩ := of_decide_eq_true hfacts
  exact ⟨s, hs, hpc, hearly, hqueue, fun h => h hpc 7 hearly .top hqueue⟩

end SecondCheck

end Vsched2
