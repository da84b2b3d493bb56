import Vsched2.MainLoop
import Vsched2.ProcessSlots

/-! The calls of `Kernel` as uninterrupted runs of `ProcessSlots`.

    `Kernel` takes `switch_vspace`, `process_init` and `process_drop` in one step each. Such a step is the
    run of the accesses of one call, with no other thread or CPU in between. -/

namespace Vsched2

variable {cfg : Config}

/-- The calls on the process table, on the CPU `c` or in any thread of the kernel. -/
inductive ProcessCall (cfg : Config) where
  | switch_vspace (c : Cpu cfg) (vspace_pid : Pid cfg)
  | process_init (vspace : ℕ)
  | process_drop (p : Pid cfg)

/-- One call, in one step; a process is dropped while it is valid. -/
def Kernel.process_call (k : Kernel cfg) : ProcessCall cfg → Option (Kernel cfg)
  | .switch_vspace c vspace_pid => some (k.switch_vspace c vspace_pid)
  | .process_init vspace => (k.process_init vspace).map Prod.snd
  | .process_drop p =>
    if p ≠ .kernel ∧ (k.process_info_table.table p).valid = true then some (k.process_drop p) else none

namespace ProcessSlots

variable {user_data : UserData} {s s' : ProcessSlots cfg} {k k' : Kernel cfg} {p : Pid cfg} {i : ℕ}

/-- The slots hold what the table of the kernel holds, and the CPUs are in the address spaces it has them
    in. A scheduler is an address here, and the process it belongs to there. -/
structure Shows (s : ProcessSlots cfg) (k : Kernel cfg) : Prop where
  valid : ∀ p, (s.table p).valid = (k.process_info_table.table p).valid
  vspace : ∀ p, (s.table p).vspace = (k.process_info_table.table p).vspace
  scheduler : ∀ p, (s.table p).scheduler = 0 ↔ (k.process_info_table.table p).scheduler = none
  next_i : s.next_i = k.process_info_table.next_i
  current_vspace : s.current_vspace = k.current_vspace
  entered : s.entered = k.vspace

/-- No call is at work. -/
structure Quiet (s : ProcessSlots cfg) : Prop where
  calls : ∀ i, s.calls i = .idle
  switching : ∀ c, s.switching c = .idle

theorem boot_quiet : (boot cfg).Quiet := ⟨fun _ => rfl, fun _ => rfl⟩

theorem boot_shows (tasks : Tasks cfg) (init_task wait_context : Cpu cfg → TaskPtr) :
    (boot cfg).Shows (Kernel.boot tasks init_task wait_context) := by
  refine ⟨fun p => ?_, fun p => ?_, fun p => ?_, rfl, rfl, rfl⟩ <;>
    rcases eq_or_ne p .kernel with rfl | hp <;>
    simp [boot, Kernel.boot, ProcessInfoTable.default, ProcessInfoTable.unused, *]

/-- With no call at work, the valid slots but the kernel's are those of the processes. -/
theorem Quiet.live (hs : s.Quiet) (hO : s.Owned user_data) (hp : p ≠ .kernel)
    (hv : (s.table p).valid = true) : ∃ vspace, s.life p = .live vspace := by
  have hk := hO.kept p
  unfold Kept at hk
  cases hl : s.life p with
  | kernel =>
    rw [hl] at hk
    exact absurd hk.1 hp
  | free =>
    rw [hl] at hk
    rw [hv] at hk
    cases hk
  | live vspace => exact ⟨vspace, rfl⟩
  | starting i =>
    rw [hl] at hk
    have hslot := hk.2.slot
    rw [hs.calls i] at hslot
    cases hslot
  | dropping i vspace =>
    rw [hl] at hk
    have hcall := hk.2.2
    rw [hs.calls i] at hcall
    cases hcall

/-! ### One call -/

/-- A CPU that was in no call is in none again. -/
theorem Quiet.set_idle (hs : s.Quiet) (c : Cpu cfg) : Function.update s.switching c .idle = s.switching := by
  rw [← hs.switching c, Function.update_eq_self]

theorem Quiet.set_call_idle (hs : s.Quiet) (i : ℕ) : Function.update s.calls i .idle = s.calls := by
  rw [← hs.calls i, Function.update_eq_self]

/-- `switch_vspace` takes up to three accesses. -/
theorem switch_vspace_run (hs : s.Quiet) (c : Cpu cfg) (p : Pid cfg) :
    ∃ n, Runs.run (step user_data) s (.switch_vspace c p :: List.replicate n (.switch_next c)) =
      some { s with
        current_vspace := Function.update s.current_vspace c p
        entered := if p ≠ s.current_vspace c ∧ (s.table p).vspace ≠ 0 then
          Function.update s.entered c (s.table p).vspace else s.entered } := by
  have hidle := hs.switching c
  rcases eq_or_ne p (s.current_vspace c) with hsame | hne
  · refine ⟨0, ?_⟩
    simp [step, switch_vspace, hidle, ← hsame]
  · by_cases hnull : (s.table p).vspace = 0
    · refine ⟨1, ?_⟩
      simp [step, switch_vspace, switch_next, hidle, hne, set_switch, hnull, hs.set_idle]
    · refine ⟨2, ?_⟩
      simp [step, switch_vspace, switch_next, hidle, hne, set_switch, hnull, hs.set_idle]

/-- A draw that does not end the search. -/
theorem draw_step {vspace : ℕ} {start_index : Pid cfg} (hcall : s.calls i = .draw vspace start_index)
    (hne : s.index ≠ start_index) : step user_data s (.next i) =
      some ({ s with next_i := s.next_i + 1 }.set_call i (.claim vspace start_index s.index)) := by
  simp only [step, next, hcall]
  rw [if_neg hne]

/-- A swap that finds the slot valid, and the draw of the next index. -/
theorem draw_run {vspace : ℕ} {start_index index : Pid cfg} (hcall : s.calls i = .claim vspace start_index index)
    (hv : (s.table index).valid = true) (hne : s.index ≠ start_index) :
    Runs.run (step user_data) s [.next i, .next i] =
      some ({ s with next_i := s.next_i + 1 }.set_call i (.claim vspace start_index s.index)) := by
  have hswap : step user_data s (.next i) = some (s.set_call i (.draw vspace start_index)) := by
    simp [step, next, hcall, hv]
  have hdraw := @draw_step cfg user_data (s.set_call i (.draw vspace start_index)) i vspace start_index
    (by simp [set_call]) hne
  rw [Runs.run_cons, hswap, Option.bind_some, Runs.run_cons, hdraw]
  simp only [set_call, Function.update_idem]
  rfl

/-- The search of `register_process`, up to the swap of the slot it returns. -/
theorem register_run {vspace : ℕ} {start_index index : Pid cfg} {t t' : ProcessInfoTable cfg}
    {r : Option (Pid cfg)} (h : ProcessInfoTable.Registers start_index index t r t') (hr : r = some p) :
    ∀ {s : ProcessSlots cfg}, (∀ q, (s.table q).valid = (t.table q).valid) → s.next_i = t.next_i →
    s.calls i = .claim vspace start_index index →
    ∃ n, Runs.run (step user_data) s (List.replicate n (.next i)) =
      some ((({ s with next_i := t'.next_i }.set_table p { s.table p with valid := true }).set_life p
        (.starting i)).set_call i (.store_vspace vspace p)) := by
  induction h with
  | found hv =>
    intro s hvalid hnext hcall
    obtain rfl := Option.some.inj hr
    refine ⟨1, ?_⟩
    have hv' := (hvalid _).trans hv
    simp [step, next, hcall, hv', set_table, set_life, set_call, ProcessInfoTable.set, hnext]
  | full => cases hr
  | @next index t r t' hv hne hrest ih =>
    intro s hvalid hnext hcall
    have hindex : s.index = cfg.index t.next_i := by rw [← hnext]; rfl
    rw [← hindex] at hne ih
    have hdraw := @draw_run cfg user_data s i vspace start_index index hcall ((hvalid _).trans hv) hne
    obtain ⟨n, hn⟩ := @ih hr ({ s with next_i := s.next_i + 1 }.set_call i (.claim vspace start_index s.index))
      hvalid (by simp [set_call, hnext]) (by simp [set_call])
    refine ⟨2 + n, ?_⟩
    rw [List.replicate_add, Runs.run_append]
    refine (congrArg (Option.bind · _) hdraw).trans (hn.trans ?_)
    simp [set_call, set_table, set_life]

/-- `process_init` that finds both objects and the slot `p`: the accesses of the search and three more. -/
theorem process_init_run {vspace : ℕ} {t' : ProcessInfoTable cfg} (hs : s.Quiet) (hk : s.Shows k) (i : ℕ)
    (hfound : ∀ data, user_data data vspace ≠ 0) (hreg : k.process_info_table.register_process = (some p, t')) :
    ∃ n, Runs.run (step user_data) s (.process_init i vspace :: List.replicate n (.next i)) =
      some ({ s with next_i := t'.next_i }.set_table p ⟨true, vspace, user_data .user_scheduler vspace⟩
        |>.set_life p (.live vspace)) := by
  obtain ⟨r, t₁, hr, hregisters, -⟩ := k.process_info_table.register_process_first
  obtain ⟨rfl, rfl⟩ := Prod.mk.inj (hreg.symm.trans hr)
  have hindex : s.index = cfg.index k.process_info_table.next_i := by rw [← hk.next_i]; rfl
  rw [← hindex] at hregisters
  obtain ⟨s₁, hs₁⟩ : ∃ s₁, s₁ = { s with next_i := s.next_i + 1 }.set_call i (.claim vspace s.index s.index) :=
    ⟨_, rfl⟩
  have hstart : step user_data s (.process_init i vspace) = some s₁ := by
    simp [step, process_init, hs.calls i, hs₁]
  obtain ⟨n, hn⟩ := @register_run cfg user_data p i vspace s.index s.index _ _ _ hregisters rfl s₁
    (by rw [hs₁]; exact hk.valid) (by rw [hs₁]; simp [set_call, hk.next_i]) (by rw [hs₁]; simp [set_call])
  refine ⟨n + 3, ?_⟩
  rw [Runs.run_cons, hstart, Option.bind_some, List.replicate_add, Runs.run_append, hn, Option.bind_some, hs₁]
  simp [List.replicate, step, next, set_call, set_table, set_life, hfound .user_scheduler,
    hfound .stack_handler, hs.set_call_idle]

/-- `process_drop`: the swap of the pointer and that of `valid`. -/
theorem process_drop_run {vspace : ℕ} (hs : s.Quiet) (i : ℕ) (hlive : s.life p = .live vspace) :
    Runs.run (step user_data) s [.process_drop i p, .next i] =
      some ((s.set_table p { s.table p with vspace := 0, valid := false }).set_life p .free) := by
  simp [step, process_drop, next, hs.calls i, hlive, set_call, set_table, set_life, hs.set_call_idle]

/-! ### Sequences of calls -/

/-- The accesses of one call, all by the CPU or the thread that makes it. -/
def Does : ProcessCall cfg → List (Act cfg) → Prop
  | .switch_vspace c p, acts => ∃ n, acts = .switch_vspace c p :: List.replicate n (.switch_next c)
  | .process_init vspace, acts => ∃ i n, acts = .process_init i vspace :: List.replicate n (.next i)
  | .process_drop p, acts => ∃ i, acts = [.process_drop i p, .next i]

/-- Between two calls. -/
structure Between (user_data : UserData) (k : Kernel cfg) (s : ProcessSlots cfg) : Prop where
  shows : s.Shows k
  quiet : s.Quiet
  owned : s.Owned user_data

/-- `get_user_data` finds both objects of a new process. -/
def Found (user_data : UserData) (_ : Kernel cfg) : ProcessCall cfg → Prop
  | .process_init vspace => ∀ data, user_data data vspace ≠ 0
  | _ => True

/-- `switch_vspace` with its two tests in one. -/
theorem switch_vspace_eq (k : Kernel cfg) (c : Cpu cfg) (p : Pid cfg) :
    k.switch_vspace c p = { k with
      current_vspace := Function.update k.current_vspace c p
      vspace := if p ≠ k.current_vspace c ∧ (k.process_info_table.table p).vspace ≠ 0 then
        Function.update k.vspace c (k.process_info_table.table p).vspace else k.vspace } := by
  simp only [Kernel.switch_vspace]
  by_cases hsame : p = k.current_vspace c
  · simp [← hsame]
  · by_cases hnull : (k.process_info_table.table p).vspace = 0
    · simp [hsame, hnull]
    · simp [hsame, hnull]

theorem switch_vspace_between (h : Between user_data k s) (c : Cpu cfg) (p : Pid cfg) :
    ∃ acts s', Does (.switch_vspace c p) acts ∧ Runs.run (step user_data) s acts = some s' ∧
      s'.Quiet ∧ s'.Shows (k.switch_vspace c p) := by
  obtain ⟨n, hrun⟩ := @switch_vspace_run cfg user_data s h.quiet c p
  have hk := h.shows
  refine ⟨_, _, ⟨n, rfl⟩, hrun, ⟨h.quiet.calls, h.quiet.switching⟩, ?_⟩
  rw [switch_vspace_eq]
  exact ⟨hk.valid, hk.vspace, hk.scheduler, hk.next_i, by rw [hk.current_vspace],
    by rw [hk.current_vspace, hk.vspace, hk.entered]⟩

/-- The table after a change of one slot. -/
theorem Shows.set_table {slot : Slot} {life : Life} {t : ProcessInfoTable cfg} (hk : s.Shows k)
    (hother : ∀ q, q ≠ p → t.table q = k.process_info_table.table q)
    (hvalid : slot.valid = (t.table p).valid) (hvspace : slot.vspace = (t.table p).vspace)
    (hsched : slot.scheduler = 0 ↔ (t.table p).scheduler = none)
    (hk' : k'.process_info_table = t) (hcurrent : k'.current_vspace = k.current_vspace)
    (hentered : k'.vspace = k.vspace) :
    (({ s with next_i := t.next_i }.set_table p slot).set_life p life).Shows k' := by
  subst hk'
  refine ⟨fun q => ?_, fun q => ?_, fun q => ?_, rfl, hk.current_vspace.trans hcurrent.symm,
    hk.entered.trans hentered.symm⟩ <;>
    rcases eq_or_ne q p with rfl | hq
  · simp [ProcessSlots.set_table, set_life, hvalid]
  · simp [ProcessSlots.set_table, set_life, hq, hother q hq, hk.valid q]
  · simp [ProcessSlots.set_table, set_life, hvspace]
  · simp [ProcessSlots.set_table, set_life, hq, hother q hq, hk.vspace q]
  · simp [ProcessSlots.set_table, set_life, hsched]
  · simp [ProcessSlots.set_table, set_life, hq, hother q hq, hk.scheduler q]

theorem process_init_between {vspace : ℕ} (h : Between user_data k s)
    (hfound : ∀ data, user_data data vspace ≠ 0) (hinit : k.process_init vspace = some (p, k')) :
    ∃ acts s', Does (.process_init vspace) acts ∧ Runs.run (step user_data) s acts = some s' ∧
      s'.Quiet ∧ s'.Shows k' := by
  obtain ⟨t', hreg, rfl⟩ : ∃ t', k.process_info_table.register_process = (some p, t') ∧
      k' = { k with
        schedulers := Function.update k.schedulers p .new
        process_info_table := t'.set p { t'.table p with vspace := vspace, scheduler := some p } } := by
    simp only [Kernel.process_init] at hinit
    split at hinit
    · cases hinit
    · rename_i pid t' hreg
      obtain ⟨rfl, rfl⟩ := Prod.mk.inj (Option.some.inj hinit)
      exact ⟨t', hreg, rfl⟩
  obtain ⟨n, hrun⟩ := process_init_run h.quiet h.shows 0 hfound hreg
  obtain ⟨-, hother, hnew⟩ := ProcessInfoTable.register_process_spec hreg
  refine ⟨_, _, ⟨0, n, rfl⟩, hrun, ⟨h.quiet.calls, h.quiet.switching⟩, ?_⟩
  refine h.shows.set_table (t := t'.set p { t'.table p with vspace := vspace, scheduler := some p })
    (fun q hq => ?_) ?_ ?_ ?_ rfl rfl rfl
  · rw [← hother q (by simpa using hq.symm)]
    simp [ProcessInfoTable.set, hq]
  · simp [ProcessInfoTable.set, (hnew p rfl).2.1]
  · simp [ProcessInfoTable.set]
  · simp [ProcessInfoTable.set, hfound .user_scheduler]

theorem process_drop_between (h : Between user_data k s) (hp : p ≠ .kernel)
    (hv : (k.process_info_table.table p).valid = true) :
    ∃ acts s', Does (.process_drop p) acts ∧ Runs.run (step user_data) s acts = some s' ∧
      s'.Quiet ∧ s'.Shows (k.process_drop p) := by
  obtain ⟨vspace, hlive⟩ := h.quiet.live h.owned hp ((h.shows.valid p).trans hv)
  refine ⟨_, _, ⟨0, rfl⟩, process_drop_run h.quiet 0 hlive, ⟨h.quiet.calls, h.quiet.switching⟩, ?_⟩
  have hnext : s = { s with next_i := ((k.process_info_table.unregister_process p).2).next_i } := by
    rw [show (k.process_info_table.unregister_process p).2.next_i = s.next_i from h.shows.next_i.symm]
  rw [hnext]
  refine h.shows.set_table (t := (k.process_info_table.unregister_process p).2)
    (fun q hq => ProcessInfoTable.unregister_process_other _ hq) ?_ ?_ ?_ rfl rfl rfl
  · simp [ProcessInfoTable.unregister_process, ProcessInfoTable.set]
  · simp [ProcessInfoTable.unregister_process, ProcessInfoTable.set]
  · simpa [ProcessInfoTable.unregister_process, ProcessInfoTable.set] using h.shows.scheduler p

theorem process_call_matched {call : ProcessCall cfg} (h : Between user_data k s) (hfound : Found user_data k call)
    (hcall : k.process_call call = some k') :
    ∃ acts s', Does call acts ∧ Runs.run (step user_data) s acts = some s' ∧ Between user_data k' s' := by
  obtain ⟨acts, s', hdoes, hrun, hquiet, hshows⟩ : ∃ acts s', Does call acts ∧
      Runs.run (step user_data) s acts = some s' ∧ s'.Quiet ∧ s'.Shows k' := by
    cases call with
    | switch_vspace c p =>
      obtain rfl := Option.some.inj hcall
      exact switch_vspace_between h c p
    | process_init vspace =>
      obtain ⟨⟨p, k₁⟩, hinit, rfl⟩ := Option.map_eq_some_iff.mp hcall
      exact process_init_between h hfound hinit
    | process_drop p =>
      simp only [Kernel.process_call] at hcall
      split at hcall
      · rename_i hp
        obtain rfl := Option.some.inj hcall
        exact process_drop_between h hp.1 hp.2
      · cases hcall
  exact ⟨acts, s', hdoes, hrun, hshows, hquiet,
    Runs.run_invariant (fun _ _ _ hO hs => step_owned hO hs) acts h.owned hrun⟩

/-- Every sequence of the calls of `Kernel` is a run of the slots, call by call: the accesses of each call
    follow on each other, and after every call the slots show the kernel's table. -/
theorem process_calls_run (user_data : UserData) (tasks : Tasks cfg) (init_task wait_context : Cpu cfg → TaskPtr)
    (calls : List (ProcessCall cfg)) (k : Kernel cfg)
    (hfound : Runs.Along Kernel.process_call (Found user_data) (Kernel.boot tasks init_task wait_context) calls)
    (hrun : Runs.run Kernel.process_call (Kernel.boot tasks init_task wait_context) calls = some k) :
    ∃ blocks s, Runs.Tracks Kernel.process_call (step user_data) (fun k s => s.Shows k) Does
        (Kernel.boot tasks init_task wait_context) (boot cfg) calls blocks ∧
      Runs.run (step user_data) (boot cfg) blocks.flatten = some s ∧ s.Shows k := by
  obtain ⟨blocks, s, htracks, hblocks, -, h⟩ := Runs.run_simulation (R := Between user_data)
    (Q := fun _ _ => True)
    (fun k call k' s h hf hcall => by
      obtain ⟨acts, s', hdoes, hacts, h'⟩ := process_call_matched h hf hcall
      exact ⟨acts, s', hdoes, hacts, Runs.along_of_mem acts fun _ _ _ => trivial, h'⟩)
    calls ⟨boot_shows tasks init_task wait_context, boot_quiet, boot_owned user_data⟩ hfound hrun
  exact ⟨blocks, s, htracks.imp fun _ _ h => h.shows, hblocks, h.shows⟩

end ProcessSlots

end Vsched2
