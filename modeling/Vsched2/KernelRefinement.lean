import Vsched2.KernelCalls

/-! The system that schedules by priorities refines the machine that leaves them out.

    A call of the system is a run of its CPU in the machine. -/

namespace Vsched2

variable {cfg : Config}

/-- Where a CPU of the machine stands between two calls of the system. -/
def CpuPlace.At (in_kernel : Bool) (pc : Pc cfg) : CpuPlace → Prop
  | .task => pc = .run
  | .own => pc = .own
  | .call .kschedule | .call .utok_schedule => (∃ b, pc = .sched b) ∧ in_kernel = true
  | .call .uschedule => (∃ b, pc = .sched b) ∧ in_kernel = false
  | .call .run_task => pc = .run_task ∨ pc = .user_run_task ∧ in_kernel = false
  | .call .krun_utask => pc = .krun_utask
  | .call _ => False
  | .wait_irqs => pc = .wait_irqs ∧ in_kernel = true

/-- A state of the system as a state of the machine. -/
structure System.Refines (s : System cfg) (m : Machine cfg) : Prop where
  data : Agrees s.kernel m
  place : ∀ c, (s.place c).At (m.in_kernel c) (m.pc c)
  known : ∀ t, m.known t = true → s.known t = true
  waits : m.waits = s.waits
  waking : m.waking = s.waking
  stage : m.stage = s.stage
  next_info : m.next_info = s.next_info

/-- The relation between the two systems, with what each keeps for itself. -/
structure System.Sim (s : System cfg) (m : Machine cfg) : Prop where
  refines : s.Refines m
  orderly : s.kernel.Orderly
  visible : cfg.cpu_num = 1 → s.kernel.Visible
  homes : m.Homes s.kernel.pointer
  privileged : m.Privileged

/-- The machine's CPU `c` alone comes to a state that matches the system's. -/
def System.Matched (s' : System cfg) (c : Cpu cfg) (m : Machine cfg) : Prop := ∃ m', Machine.Leads c m m' ∧ s'.Sim m'

/-- The machine comes to such a state by these steps. -/
def System.MatchedBy (s' : System cfg) (m : Machine cfg) (acts : List (Machine.Act cfg)) : Prop :=
  ∃ m', Runs.run Machine.step m acts = some m' ∧ Runs.Along Machine.step Machine.UserPids m acts ∧ s'.Sim m'

/-- The CPU that makes a call of `main_loop.rs` or `trap_wait_queue.rs`. -/
def System.Act.cpu : System.Act cfg → Option (Cpu cfg)
  | .trap_entry c _ | .set_self c _ | .leave c _ | .poll_ready c | .kschedule c _ _ | .utok_schedule c _ _
  | .uschedule c _ _ | .wait_return c | .run_task c | .krun_utask c | .trap_handler c | .handle_exits c
  | .handle_returns c => some c
  | .push_task .. | .wake _ | .wake_push .. | .process_init _ | .process_drop _ | .user_init .. => none

/-- What the machine does for a call: the CPU that makes it does some steps, a task comes or is woken, or
    nothing happens, since the machine has no processes. -/
def System.Act.Does : System.Act cfg → List (Machine.Act cfg) → Prop
  | .push_task _ t task, acts => acts = [.arrive t task]
  | .wake t, acts => acts = [.wake t]
  | .wake_push _ t, acts => acts = [.wake_push t]
  | .process_init _, acts | .process_drop _, acts | .user_init .., acts => acts = []
  | call, acts => ∀ a ∈ acts, a.cpu = call.cpu

/-! ### The steps of one CPU -/

namespace Machine

variable {m m' : Machine cfg} {a : Act cfg} {c : Cpu cfg} {ptr : Pid cfg → Option (Pid cfg)}

/-- A CPU makes no user tasks, and moves none to another process. -/
theorem step_homes (hP : Privileged m) (hH : m.Homes ptr) (ha : a.cpu = some c) (hs : m.step a = some m') :
    m'.Homes ptr := by
  intro t hk' hu
  cases hk : m.known t with
  | true =>
    have hu₀ : (m.tasks t).is_kernel = false := (step_data hP.staffed hs hk).is_kernel.symm.trans hu
    have hhome := step_home hP hs hk
    simp only [Task.home, hu, hu₀, Bool.false_eq_true, if_false] at hhome
    rw [hhome]
    exact hH t hk hu₀
  | false =>
    rcases step_new hs hk hk' with ⟨task, rfl, -⟩ | ⟨hker, -⟩
    · cases ha
    · simp [hker] at hu

theorem Leads.kept (h : Leads c m m') (hP : Privileged m) (hH : m.Homes ptr) : Privileged m' ∧ m'.Homes ptr := by
  obtain ⟨acts, hrun, hcpu⟩ := h
  induction acts generalizing m with
  | nil =>
    rw [Runs.run_nil, Option.some.injEq] at hrun
    exact hrun ▸ ⟨hP, hH⟩
  | cons a as ih =>
    rw [Runs.run_cons, Option.bind_eq_some_iff] at hrun
    obtain ⟨m₁, hs, hrun⟩ := hrun
    have ha := hcpu a List.mem_cons_self
    exact ih (step_privileged hP (user_pids_of_cpu m ha) hs) (step_homes hP hH ha hs) hrun
      fun b hb => hcpu b (List.mem_cons_of_mem a hb)

end Machine

namespace System

variable {s s' : System cfg} {m m' : Machine cfg} {c : Cpu cfg}

/-- The CPU `c` has made the steps of its call. -/
theorem Sim.matched (hS : s.Sim m) (hl : Machine.Leads c m m') (hdata : Agrees s'.kernel m')
    (hplace : (s'.place c).At (m'.in_kernel c) (m'.pc c)) (hothers : ∀ d, d ≠ c → s'.place d = s.place d)
    (hknown : ∀ t, m'.known t = true → s'.known t = true) (hwaits : m'.waits = s'.waits)
    (hwaking : m'.waking = s'.waking) (hstage : m'.stage = s'.stage) (hinfo : m'.next_info = s'.next_info)
    (hk : s.kernel.Follows s'.kernel) : s'.Matched c m := by
  obtain ⟨hP, hH⟩ := hl.kept hS.privileged hS.homes
  refine ⟨m', hl, ⟨hdata, fun d => ?_, hknown, hwaits, hwaking, hstage, hinfo⟩,
    hk.orderly hS.orderly, fun hcpu => hk.visible hcpu hS.orderly (hS.visible hcpu), hk.pointer ▸ hH, hP⟩
  rcases eq_or_ne d c with rfl | hd
  · exact hplace
  · have hloc := hl.loc hd
    have hpc : m'.pc d = m.pc d := congrArg Local.pc hloc
    have hin : m'.in_kernel d = m.in_kernel d := congrArg Local.in_kernel hloc
    rw [hothers d hd, hpc, hin]
    exact hS.refines.place d

/-- The same for a call that leaves the rest of the system alone. -/
theorem Sim.matched_same (hS : s.Sim m) (hl : Machine.Leads c m m') {k : Kernel cfg} {pl : CpuPlace}
    (hs : s' = { s with kernel := k, place := Function.update s.place c pl }) (hdata : Agrees k m')
    (hplace : pl.At (m'.in_kernel c) (m'.pc c)) (hg : Machine.SameGhost m m') (hk : s.kernel.Follows k) :
    s'.Matched c m := by
  subst hs
  refine hS.matched hl hdata (by simpa using hplace) (fun d hd => by simp [hd]) (fun t ht => ?_)
    (hg.waits.trans hS.refines.waits) (hg.waking.trans hS.refines.waking) (hg.stage.trans hS.refines.stage)
    (hg.next_info.trans hS.refines.next_info) hk
  rw [hg.known] at ht
  exact hS.refines.known t ht

theorem goto_eq_some {k : Kernel cfg} {f : ScheduleLoop.Fn} {v : ℕ} (h : s.goto c k f v = some s') :
    ∃ g, f.next v = some g ∧ s' = { s with kernel := k, place := Function.update s.place c (.call g) } := by
  obtain ⟨g, hg, rfl⟩ := Option.map_eq_some_iff.mp h
  exact ⟨g, hg, rfl⟩

/-- Where the functions that return the privilege lead to. -/
theorem next_privilege (b : Bool) :
    ScheduleLoop.Fn.next .run_task (if b then 0 else 1) = some (if b then .kschedule else .uschedule) ∧
    ∀ n, n = 0 ∨ n = 2 →
      ScheduleLoop.Fn.next .thread_entry (n + if b then 0 else 1) = some (if b then .kschedule else .uschedule) := by
  cases b <;> refine ⟨by decide, fun n hn => ?_⟩ <;> rcases hn with rfl | rfl <;> decide

/-- A CPU at the head of a loop stands where its privilege says. -/
theorem at_sched (b : Bool) : (CpuPlace.call (if b then .kschedule else .uschedule)).At b (.sched false : Pc cfg) := by
  cases b <;> exact ⟨⟨false, rfl⟩, rfl⟩

/-! ### `kschedule`, `utok_schedule`, `uschedule` -/

variable {user_data : Pid cfg → Pid cfg} {fresh : TaskPtr × Task cfg}

/-- The next function of a scheduler of the kernel. -/
theorem next_schedule {f : ScheduleLoop.Fn} (hf : f = .kschedule ∨ f = .utok_schedule) :
    f.next 0 = some .run_task ∧ f.next 1 = some .krun_utask := by
  rcases hf with rfl | rfl <;> exact ⟨by decide, by decide⟩

/-- A task is dispatched: one that existed, or the new trap handler. -/
theorem Sim.dispatched (hS : s.Sim m) (hl : Machine.Leads c m m') {k' : Kernel cfg} {g : ScheduleLoop.Fn}
    (hfresh : s.known fresh.1 = false) (hdata : Agrees k' m')
    (hplace : (CpuPlace.call g).At (m'.in_kernel c) (m'.pc c)) (hh : Machine.Hires m fresh.1 (k'.current_task c) m')
    (hkept : s.kernel.Follows k') :
    ({ s.adopt c fresh k' with
      kernel := k'
      place := Function.update s.place c (.call g) } : System cfg).Matched c m := by
  cases hh with
  | old hk hg =>
    have hne : k'.current_task c ≠ fresh.1 := by
      intro heq
      rw [← heq, hS.refines.known _ hk] at hfresh
      cases hfresh
    rw [adopt, if_neg hne]
    exact hS.matched_same hl rfl hdata hplace hg hkept
  | new ht hknown hwaits hwaking hstage hinfo =>
    rw [adopt, if_pos ht]
    rw [ht] at hknown hstage
    refine hS.matched hl hdata (by simpa using hplace) (fun d hd => by simp [hd]) (fun t ht => ?_)
      (hwaits.trans hS.refines.waits) (hwaking.trans hS.refines.waking) (by rw [hstage, hS.refines.stage])
      (hinfo.trans hS.refines.next_info) hkept
    rw [hknown] at ht
    rcases eq_or_ne t fresh.1 with rfl | hne
    · simp
    · simp only [Function.update_of_ne hne] at ht ⊢
      exact hS.refines.known t ht

/-- The end of a scheduler in the kernel. -/
theorem Sim.ends (hS : s.Sim m) {f : ScheduleLoop.Fn} (hf : f = .kschedule ∨ f = .utok_schedule)
    (hin : m.in_kernel c = true) {out : Kernel.Outcome} {k' : Kernel cfg} (hfresh : s.known fresh.1 = false)
    (hsch : Machine.Scheduled c fresh.1 s.kernel m out k' m') (h : s.ends c f fresh (out, k') = some s') :
    s'.Matched c m := by
  obtain ⟨hl, hdata, hkept, hends⟩ := hsch
  rcases hends with ⟨rfl, hpc, hg⟩ | ⟨hout, hh⟩
  · have hin' : m'.in_kernel c = true := by
      rw [hdata.in_kernel, hkept.in_kernel, ← hS.refines.data.in_kernel, hin]
    exact hS.matched_same hl (Option.some.inj h).symm hdata ⟨hpc, hin'⟩ hg hkept.toFollows
  · obtain ⟨hrun, hkrun⟩ := next_schedule hf
    have hplace : ∀ g, (s.adopt c fresh k').place = s.place ∧
        { s.adopt c fresh k' with kernel := k', place := Function.update (s.adopt c fresh k').place c (.call g) } =
          ({ s.adopt c fresh k' with kernel := k', place := Function.update s.place c (.call g) } : System cfg) := by
      intro g
      have heq : (s.adopt c fresh k').place = s.place := by
        rw [adopt]
        split <;> rfl
      exact ⟨heq, by rw [heq]⟩
    rcases hout with ⟨rfl, hpc⟩ | ⟨rfl, hpc⟩
    · obtain ⟨g, hg, rfl⟩ := goto_eq_some h
      obtain rfl : ScheduleLoop.Fn.run_task = g := Option.some.inj (hrun.symm.trans hg)
      rw [(hplace _).2]
      exact hS.dispatched hl hfresh hdata (Or.inl hpc) hh hkept.toFollows
    · obtain ⟨g, hg, rfl⟩ := goto_eq_some h
      obtain rfl : ScheduleLoop.Fn.krun_utask = g := Option.some.inj (hkrun.symm.trans hg)
      rw [(hplace _).2]
      exact hS.dispatched hl hfresh hdata hpc hh hkept.toFollows

theorem Sim.unknown (hS : s.Sim m) (hfresh : s.known fresh.1 = false) : m.known fresh.1 = false := by
  rw [← Bool.not_eq_true]
  intro hk
  rw [hS.refines.known _ hk] at hfresh
  cases hfresh

theorem kschedule_matched (huser : ∀ p, p ≠ .kernel → user_data p = p) (hS : s.Sim m) {fuel : ℕ}
    (h : s.kschedule user_data c fuel fresh = some s') : s'.Matched c m := by
  simp only [kschedule] at h
  split at h
  · rename_i hcond
    obtain ⟨⟨out, k'⟩, hsch, h⟩ := Option.bind_eq_some_iff.mp h
    have hpl := hS.refines.place c
    rw [hcond.1] at hpl
    obtain ⟨⟨b, hpc⟩, hin⟩ := hpl
    obtain ⟨m', hm'⟩ := Machine.kscheduled huser hcond.2.2 hS.privileged.inv hS.refines.data hS.orderly hpc hin
      (hS.unknown hcond.2.1) hsch
    exact hS.ends (Or.inl rfl) hin hcond.2.1 hm' h
  · cases h

theorem utok_schedule_matched (huser : ∀ p, p ≠ .kernel → user_data p = p) (hS : s.Sim m) {fuel : ℕ}
    (h : s.utok_schedule user_data c fuel fresh = some s') : s'.Matched c m := by
  simp only [utok_schedule] at h
  split at h
  · rename_i hcond
    obtain ⟨⟨out, k'⟩, hsch, h⟩ := Option.bind_eq_some_iff.mp h
    have hpl := hS.refines.place c
    rw [hcond.1] at hpl
    obtain ⟨⟨b, hpc⟩, hin⟩ := hpl
    obtain ⟨m', hm'⟩ := Machine.utok_scheduled huser hcond.2.2 hS.privileged.inv hS.refines.data hS.orderly hpc hin
      (hS.unknown hcond.2.1) hsch
    exact hS.ends (Or.inr rfl) hin hcond.2.1 hm' h
  · cases h

theorem wait_return_matched (hS : s.Sim m) (h : s.wait_return c = some s') : s'.Matched c m := by
  simp only [wait_return] at h
  split at h
  · rename_i hpl
    have hat := hS.refines.place c
    rw [hpl] at hat
    have h1 : m.step (.wait_return c) = some (m.set_pc c (.sched true)) := if_pos hat.1
    exact hS.matched_same (.of_step h1 rfl) (Option.some.inj h).symm (hS.refines.data.set_pc _)
      ⟨⟨true, by simp [Machine.set_pc]⟩, hat.2⟩ ((Machine.SameGhost.refl m).set_pc _) (.of_eq rfl rfl)
  · cases h

/-- A user scheduler enters the kernel. -/
theorem Sim.into_kernel (hS : s.Sim m) {b : Bool} (hpc : m.pc c = .sched b) (hin : m.in_kernel c = false) {q : Pid cfg}
    {k : Kernel cfg} (hA : Agrees k (m.set_vspace c q)) (hk : s.kernel.Kept k)
    (h : ((k.trap_entry c 2 0 s.next_info).bind fun r => s.goto c r.2 .trap_entry r.1) = some s') : s'.Matched c m := by
  simp only [Kernel.trap_entry, Option.bind_some] at h
  obtain ⟨g, hg, rfl⟩ := goto_eq_some h
  obtain rfl : ScheduleLoop.Fn.utok_schedule = g := Option.some.inj ((by decide : _ = _).symm.trans hg)
  have h1 : m.step (.into_kernel c q) = some (((m.set_vspace c q).set_in_kernel c true).set_pc c (.sched false)) := by
    simp [Machine.step, Machine.into_kernel, hpc, hin]
  refine hS.matched_same (.of_step h1 rfl) rfl ((hA.set_in_kernel true).set_pc _)
    ⟨⟨false, by simp [Machine.set_pc]⟩, by simp [Machine.set_pc, Machine.set_in_kernel]⟩
    ((((Machine.SameGhost.refl m).set_vspace _).set_in_kernel _).set_pc _) (hk.toFollows.trans (.of_eq rfl rfl))

/-- `uschedule` finds a task, or enters the kernel. -/
theorem uschedule_matched (hS : s.Sim m) {p : Pid cfg} (h : s.uschedule c p fresh = some s') : s'.Matched c m := by
  simp only [uschedule] at h
  split at h
  · rename_i hcond
    obtain ⟨hcall, hp, -⟩ := hcond
    obtain ⟨⟨found, k'⟩, hsch, h⟩ := Option.bind_eq_some_iff.mp h
    obtain ⟨next_pid, -, hsch⟩ := Option.bind_eq_some_iff.mp hsch
    obtain ⟨⟨res, k''⟩, hround, heq⟩ := Option.map_eq_some_iff.mp hsch
    clear hsch
    obtain ⟨rfl, rfl⟩ := Prod.mk.inj heq
    have hpl := hS.refines.place c
    rw [hcall] at hpl
    obtain ⟨⟨b, hpc⟩, hin⟩ := hpl
    simp only [Kernel.utask_schedule] at hround
    split at hround
    · obtain ⟨⟨t, k₁⟩, hpop, hround⟩ := Option.map_eq_some_iff.mp hround
      have hk := Kernel.pop_task_kept hpop
      cases Kernel.pop_task_pops hS.orderly hpop with
      | none row =>
        obtain ⟨rfl, rfl⟩ := Prod.mk.inj hround
        exact hS.into_kernel hpc hin (q := m.current_vspace c)
          (by simpa [Machine.set_vspace] using hS.refines.data.put_same p row) hk (by simpa using h)
      | ready l t rest row hq =>
        obtain ⟨rfl, rfl⟩ := Prod.mk.inj hround
        obtain ⟨g, hg, rfl⟩ := goto_eq_some (by simpa using h)
        obtain rfl : ScheduleLoop.Fn.run_task = g := Option.some.inj ((by decide : _ = _).symm.trans hg)
        obtain ⟨m', hl, hpc', hg', hA'⟩ := Machine.leads_run_utask hS.refines.data hpc hin hp hq row
        exact hS.matched_same hl rfl hA' (Or.inl hpc') hg'
          (hk.toFollows.trans (.of_eq rfl rfl))
      | trap t q ts row hp' => exact absurd hp' hp
    · obtain ⟨rfl, rfl⟩ := Prod.mk.inj (Option.some.inj hround)
      exact hS.into_kernel hpc hin (hS.refines.data.set_current_vspace _) (.of_eq rfl rfl rfl)
        (by simpa using h)
  · cases h

/-! ### `trap_entry` -/

theorem Refines.current (hR : s.Refines m) (c : Cpu cfg) : s.current c = m.current_task c :=
  congrFun hR.data.current_task.symm c

theorem Refines.in_code (hR : s.Refines m) (h : s.in_code c = true) : m.in_code c = true := by
  simp only [System.in_code, Bool.and_eq_true, decide_eq_true_eq] at h
  have hpl := hR.place c
  rw [h.1] at hpl
  simp only [Machine.in_code, Bool.and_eq_true, decide_eq_true_eq]
  refine ⟨hpl, ?_⟩
  rw [hR.stage, ← hR.current]
  exact h.2

/-- The task of a CPU outside the scheduler exists. -/
theorem Sim.known_current (hS : s.Sim m) {p : Pc cfg} (hpc : m.pc c = p)
    (ho : p.owner (m.current_task c) = some (m.current_task c)) : m.known (m.current_task c) = true :=
  hS.privileged.inv.known_of_owner ((Machine.owner_of_pc hpc).trans ho)

theorem Sim.known_in_code (hS : s.Sim m) (h : m.in_code c = true) : m.known (m.current_task c) = true :=
  hS.known_current (Machine.run_of_in_code h) rfl

/-- A trap leads to the scheduler. -/
theorem Sim.trapped (hS : s.Sim m) (hl : Machine.Leads c m m') {k₀ k' : Kernel cfg} (hpc : m'.pc c = .sched false)
    (hg : Machine.SameGhost { m with next_info := m.next_info + 1 } m') (hA : Agrees k' m') (hk : k₀.Kept k')
    (hin : k₀.in_kernel c = true) (hk₀ : s.kernel.Follows k₀)
    (h : { s with next_info := s.next_info + 1 }.goto c k' .trap_entry 1 = some s') : s'.Matched c m := by
  obtain ⟨g, hnext, rfl⟩ := goto_eq_some h
  obtain rfl : ScheduleLoop.Fn.kschedule = g := Option.some.inj ((by decide : _ = _).symm.trans hnext)
  have hin' : m'.in_kernel c = true := by rw [hA.in_kernel, hk.in_kernel, hin]
  refine hS.matched hl hA (by simpa using ⟨⟨false, hpc⟩, hin'⟩) (fun d hd => by simp [hd]) (fun t ht => ?_)
    (hg.waits.trans hS.refines.waits) (hg.waking.trans hS.refines.waking) (hg.stage.trans hS.refines.stage)
    (hg.next_info.trans (congrArg (· + 1) hS.refines.next_info)) (hk₀.trans hk.toFollows)
  rw [hg.known] at ht
  exact hS.refines.known t ht

/-- An interrupt in the machine `m₁`, before the swap of IS_SLEEPING. -/
theorem Sim.interrupted (hS : s.Sim m) {k₀ : Kernel cfg} {m₁ : Machine cfg} (hA : Agrees k₀ m₁)
    (hs : m.step (.irq c) = some ((m₁.set_sleeping c false).set_pc c (.irq_push (m₁.is_sleeping c))))
    (hg : Machine.SameGhost m m₁) (hk : m₁.is_sleeping c = false → m₁.known (m₁.current_task c) = true)
    (hH : m₁.Homes s.kernel.pointer) (hin : k₀.in_kernel c = true) (hk₀ : s.kernel.Follows k₀)
    (h : ((k₀.trap_entry_irq c m.next_info).bind fun r =>
      { s with next_info := s.next_info + 1 }.goto c r.2 .trap_entry r.1) = some s') : s'.Matched c m := by
  obtain ⟨⟨r, k'⟩, htrap, h⟩ := Option.bind_eq_some_iff.mp h
  rw [← hg.next_info] at htrap
  have hsleep : m₁.is_sleeping c = k₀.is_sleeping c := congrFun hA.is_sleeping c
  rw [hsleep] at hs hk
  rw [← hk₀.pointer] at hH
  have hA₀ := (hA.set_sleeping (c := c) false).set_pc (c := c) (.irq_push (k₀.is_sleeping c))
  obtain ⟨rfl, m', hl, hpc, hg', hA'⟩ := Machine.leads_trap_entry_irq hA₀ (by simp [Machine.set_pc]) hk
    (hH.congr rfl fun _ => ⟨rfl, fun _ => rfl⟩) htrap
  refine hS.trapped ((Machine.Leads.of_step hs rfl).trans hl) hpc (.trans ⟨?_, ?_, ?_, ?_, ?_⟩ hg') hA'
    (Kernel.trap_entry_irq_kept htrap) hin hk₀ h
  · exact hg.known
  · exact hg.waits
  · exact hg.waking
  · exact hg.stage
  · exact congrArg (· + 1) hg.next_info

theorem trap_entry_matched (hS : s.Sim m) {trap_type : ℕ} (h : s.trap_entry c trap_type = some s') :
    s'.Matched c m := by
  simp only [System.trap_entry, hS.refines.current] at h
  have hinfo := hS.refines.next_info
  have hA := hS.refines.data
  split at h
  · rename_i hcond
    have hcode := hS.refines.in_code hcond.1
    have hk := hS.known_in_code hcode
    rw [← hinfo] at h
    obtain ht | ht : trap_type = 0 ∨ trap_type = 1 := by omega
    · subst ht
      obtain ⟨⟨r, k'⟩, htrap, h⟩ := Option.bind_eq_some_iff.mp h
      obtain ⟨rfl, m', hl, hpc, hg, hA'⟩ := Machine.leads_trap_entry_sync hA hcode hk htrap
      exact hS.trapped hl hpc hg hA' (Kernel.trap_entry_sync_kept htrap) (by simp [Kernel.set_in_kernel])
        (.of_eq rfl rfl) (hinfo ▸ h)
    · subst ht
      refine hS.interrupted ((hA.save_context hk false).set_in_kernel true) (if_pos hcode)
        (((Machine.SameGhost.refl m).save_context false).set_in_kernel true) (fun _ => hk)
        ((hS.homes.save_context _ false).congr rfl fun _ => ⟨rfl, fun _ => rfl⟩) (by simp [Kernel.set_in_kernel])
        (.of_eq rfl rfl) (hinfo ▸ h)
  · split at h
    · rename_i hcode hcond
      obtain ⟨hplace, rfl⟩ := hcond
      have hpl := hS.refines.place c
      rw [hplace] at hpl
      have hnot : ¬ m.in_code c = true := by
        intro hcode
        rw [Machine.run_of_in_code hcode] at hpl
        cases hpl.1
      have hsleep := hS.privileged.inv.asleep c (Or.inr hpl.1)
      have hs : m.step (.irq c) = some (((m.set_in_kernel c true).set_sleeping c false).set_pc c
          (.irq_push (m.is_sleeping c))) := by
        simp [Machine.step, Machine.irq, hnot, hpl.1]
      rw [← hinfo] at h
      refine hS.interrupted (hA.set_in_kernel true) hs ((Machine.SameGhost.refl m).set_in_kernel true) (fun hf => ?_)
        (hS.homes.congr rfl fun _ => ⟨rfl, fun _ => rfl⟩) (by simp [Kernel.set_in_kernel]) (.of_eq rfl rfl)
        (hinfo ▸ h)
      rw [show (m.set_in_kernel c true).is_sleeping c = m.is_sleeping c from rfl, hsleep] at hf
      cases hf
    · cases h

/-! ### Task code -/

/-- A function that returns the privilege has put the task of its CPU away. -/
theorem Sim.left (hS : s.Sim m) (hl : Machine.Leads c m m') {k' : Kernel cfg} (hpc : m'.pc c = .sched false)
    (hA : Agrees k' m') (hk : s.kernel.Kept k') {w : TaskPtr → Bool} (hg : Machine.SameGhost { m with waits := w } m')
    {f : ScheduleLoop.Fn} {n : ℕ} (hf : f = .run_task ∧ n = 0 ∨ f = .thread_entry ∧ (n = 0 ∨ n = 2))
    (h : { s with waits := w }.goto c k' f (n + k'.privilege c) = some s') : s'.Matched c m := by
  obtain ⟨g, hnext, rfl⟩ := goto_eq_some h
  have hin : m'.in_kernel c = k'.in_kernel c := congrFun hA.in_kernel c
  obtain rfl : (if k'.in_kernel c then ScheduleLoop.Fn.kschedule else .uschedule) = g := by
    obtain ⟨hrun, hentry⟩ := next_privilege (k'.in_kernel c)
    rcases hf with ⟨rfl, rfl⟩ | ⟨rfl, hn⟩
    · rw [Nat.zero_add] at hnext
      exact Option.some.inj (hrun.symm.trans hnext)
    · exact Option.some.inj ((hentry n hn).symm.trans hnext)
  refine hS.matched hl hA ?_ (fun d hd => by simp [hd]) (fun t ht => ?_) hg.waits (hg.waking.trans hS.refines.waking)
    (hg.stage.trans hS.refines.stage) (hg.next_info.trans hS.refines.next_info) hk.toFollows
  · simp only [Function.update_self, hpc, hin]
    exact at_sched _
  · rw [hg.known] at ht
    exact hS.refines.known t ht

theorem Sim.in_code_or_own (hS : s.Sim m) (h : s.in_code c = true ∨ s.place c = .own) :
    (m.in_code c = true ∨ m.pc c = .own) ∧ m.known (m.current_task c) = true := by
  rcases h with hcode | hown
  · exact ⟨Or.inl (hS.refines.in_code hcode), hS.known_in_code (hS.refines.in_code hcode)⟩
  · have hpl := hS.refines.place c
    rw [hown] at hpl
    exact ⟨Or.inr hpl, hS.known_current hpl rfl⟩

theorem set_self_matched (hS : s.Sim m) {st : TaskState} (h : s.set_self c st = some s') : s'.Matched c m := by
  simp only [System.set_self, hS.refines.current] at h
  split at h
  · rename_i hcond
    have hcode := hS.refines.in_code hcond.1
    have hk := hS.known_in_code hcode
    obtain rfl := Option.some.inj h
    have h1 : m.step (.set_self c st) =
        some ((m.set_wait (m.current_task c) st (decide (st = .blocking))).set_pc c .own) := if_pos ⟨hcode, hcond.2⟩
    exact hS.matched (.of_step h1 rfl) ((hS.refines.data.set_wait hk _ _).set_pc _)
      (by simp [Machine.set_pc, CpuPlace.At]) (fun d hd => by simp [hd]) hS.refines.known
      (by rw [← hS.refines.waits]; rfl) hS.refines.waking hS.refines.stage hS.refines.next_info
      (.of_eq rfl rfl)
  · cases h

theorem leave_matched (hS : s.Sim m) {b : Bool} (h : s.leave c b = some s') : s'.Matched c m := by
  simp only [System.leave, hS.refines.current] at h
  split at h
  · rename_i hcond
    obtain ⟨hcode, hk⟩ := hS.in_code_or_own hcond
    have hA := hS.refines.data.save_context hk b
    have h1 : m.step (.leave c b) = some ((m.save_context (m.current_task c) b).phase2 c) := if_pos hcode
    have hwaits : s.blocks_itself c = (m.save_context (m.current_task c) b).waits_after c := by
      rw [blocks_itself, hS.refines.current, ← hS.refines.data.tasks _ hk, ← hS.refines.waits, Machine.waits_after]
      simp [Machine.save_context]
    rw [hwaits] at h
    have hput : ∃ k', (s.kernel.save_context (m.current_task c) b).put_prev c = some k' ∧
        ∃ f n, (f = .run_task ∧ n = 0 ∨ f = .thread_entry ∧ (n = 0 ∨ n = 2)) ∧
          { s with waits := (m.save_context (m.current_task c) b).waits_after c }.goto c k' f (n + k'.privilege c) =
            some s' := by
      cases b with
      | false =>
        simp only [Bool.false_eq_true, if_false, Kernel.thread_entry_phase2, Option.bind_map, Function.comp_def] at h
        obtain ⟨k', hput, h⟩ := Option.bind_eq_some_iff.mp h
        exact ⟨k', hput, _, _, Or.inr ⟨rfl, by split <;> simp⟩, h⟩
      | true =>
        simp only [if_true, Kernel.after_poll, Bool.false_eq_true, if_false, Option.bind_map, Function.comp_def] at h
        obtain ⟨k', hput, h⟩ := Option.bind_eq_some_iff.mp h
        exact ⟨k', hput, .run_task, 0, Or.inl ⟨rfl, rfl⟩, by rwa [Nat.zero_add]⟩
    obtain ⟨k', hput, f, n, hf, h⟩ := hput
    obtain ⟨m', hl, hpc, hg, hA'⟩ := Machine.leads_phase2 hA hk (hS.homes.save_context _ b) hput
    exact hS.left ((Machine.Leads.of_step h1 rfl).trans hl) hpc hA'
      ((Kernel.save_context_kept _ _ _).trans (Kernel.put_prev_kept hput))
      ⟨hg.known, hg.waits, hg.waking, hg.stage, hg.next_info⟩ hf h
  · cases h

theorem poll_ready_matched (hS : s.Sim m) (h : s.poll_ready c = some s') : s'.Matched c m := by
  simp only [System.poll_ready, hS.refines.current] at h
  split at h
  · rename_i hcond
    obtain ⟨hcode, hk⟩ := hS.in_code_or_own hcond
    obtain ⟨m₁, hm₁⟩ : ∃ m₁, m₁ = (m.set_wait (m.current_task c) .exited false).set_pc c .dealloc_prev := ⟨_, rfl⟩
    have h1 : m.step (.poll_ready c) = some m₁ := by
      rw [hm₁]
      exact if_pos hcode
    have hpc₁ : m₁.pc c = .dealloc_prev := by simp [hm₁, Machine.set_pc]
    have h2 : m₁.step (.next c) =
        some ({ m₁ with admitted := m₁.admitted.erase (m₁.current_task c) }.set_pc c (.sched false)) := by
      simp only [Machine.step, Machine.next, hpc₁]
    have hA₁ : Agrees (s.kernel.set_state (m.current_task c) .exited) m₁ :=
      hm₁ ▸ (hS.refines.data.set_wait hk .exited false).set_pc _
    simp only [Kernel.after_poll, if_true, Kernel.push_prev_task, Option.map_some, Option.bind_some,
      congrFun hS.refines.data.current_task.symm c] at h
    rw [← hS.refines.waits, ← Nat.zero_add (Kernel.privilege _ c)] at h
    refine hS.left ((Machine.Leads.of_step h1 rfl).step h2 rfl) (by simp [Machine.set_pc])
      (hA₁.congr ⟨rfl, rfl, rfl, rfl, rfl, rfl, rfl, rfl, rfl, rfl⟩) (Kernel.set_state_kept _ _ _) ?_
      (Or.inl ⟨rfl, rfl⟩) h
    rw [hm₁]
    exact ⟨rfl, rfl, rfl, rfl, rfl⟩
  · cases h

theorem run_task_matched (hS : s.Sim m) (h : s.run_task c = some s') : s'.Matched c m := by
  simp only [System.run_task] at h
  split at h
  · rename_i hplace
    obtain ⟨k', hrun, heq⟩ := Option.map_eq_some_iff.mp h
    have hpl := hS.refines.place c
    rw [hplace] at hpl
    have hk : m.known (m.current_task c) = true := by
      rcases hpl with hpc | ⟨hpc, -⟩ <;> exact hS.known_current hpc rfl
    obtain ⟨m', hl, hpc, hg, hA'⟩ := Machine.leads_run hS.refines.data (hpl.imp_right And.left) hk hrun
    have hkept := Kernel.run_task_kept hrun
    exact hS.matched_same hl heq.symm hA' hpc hg hkept.toFollows
  · cases h

theorem krun_utask_matched (hS : s.Sim m) (h : s.krun_utask c = some s') : s'.Matched c m := by
  simp only [System.krun_utask] at h
  split at h
  · rename_i hplace
    have hpl := hS.refines.place c
    rw [hplace] at hpl
    obtain ⟨m', hl, hpc, hg, hA'⟩ := Machine.leads_krun hS.refines.data hpl (hS.known_current hpl rfl)
    refine hS.matched_same hl (Option.some.inj h).symm hA' ?_ hg (.of_eq rfl rfl)
    have hin : m'.in_kernel c = false := by
      rw [hA'.in_kernel]
      simp [Kernel.krun_utask, Kernel.set_in_kernel]
    rw [hpc, hin]
    cases (s.kernel.krun_utask c).1 with
    | false => rfl
    | true => exact Or.inr ⟨rfl, rfl⟩
  · cases h

/-! ### Trap handlers -/

/-- The handler of a CPU has gone on to another stage. -/
theorem Sim.handled (hS : s.Sim m) {st : Stage} {k' : Kernel cfg} (H : Machine.Handling c (m.current_task c) st m m')
    (hA : Agrees k' m') (hk : s.kernel.Kept k') (hplace : s.place c = .task) :
    ({ s with
      kernel := k'
      stage := Function.update s.stage (m.current_task c) (some st) } : System cfg).Matched c m := by
  refine hS.matched H.leads hA ?_ (fun _ _ => rfl) (fun t ht => ?_) (H.ghost.waits.trans hS.refines.waits)
    (H.ghost.waking.trans hS.refines.waking) (H.ghost.stage.trans ?_)
    (H.ghost.next_info.trans hS.refines.next_info) hk.toFollows
  · rw [hplace]
    exact H.pc
  · rw [H.ghost.known] at ht
    exact hS.refines.known t ht
  · rw [← hS.refines.stage]

theorem trap_handler_matched (hS : s.Sim m) (h : s.trap_handler c = some s') : s'.Matched c m := by
  simp only [System.trap_handler, hS.refines.current, ← hS.refines.stage] at h
  split at h
  · rename_i hcond
    obtain ⟨hplace, hst⟩ := hcond
    have hpc := hS.refines.place c
    rw [hplace] at hpc
    have hk := hS.known_current (p := .run) hpc rfl
    cases htake : s.kernel.trap_handler_take c with
    | mk item k₁ =>
      have hkept := Kernel.trap_handler_take_kept htake
      cases item with
      | some item =>
        simp only [htake, Option.some.injEq] at h
        subst h
        obtain ⟨m', H, hA'⟩ := Machine.leads_trap_handler_take hS.privileged.inv hS.refines.data hpc hst hk htake
        have hS' := hS.handled H hA' hkept hplace
        rwa [hS.refines.stage]
      | none =>
        simp only [htake] at h
        obtain ⟨k₂, hresched, h⟩ := Option.bind_eq_some_iff.mp h
        obtain ⟨r, hentry, h⟩ := Option.bind_eq_some_iff.mp h
        obtain ⟨k', hput, rfl⟩ := Option.map_eq_some_iff.mp hentry
        obtain ⟨m', hl, hpc', hg, hA'⟩ := Machine.leads_reschedule_handler hS.refines.data hpc hst hk hS.homes
          (hS.privileged.staffed.kernel _ (by simp [hst])) htake hresched hput
        refine hS.left hl hpc' hA' (hkept.trans ((Kernel.reschedule_handler_kept hresched).trans
          ((Kernel.save_context_kept _ _ _).trans (Kernel.put_prev_kept hput)))) (w := s.waits) ?_
          (Or.inr ⟨rfl, ?_⟩) h
        · rw [← hS.refines.waits]
          exact hg
        · split <;> simp
  · cases h

theorem handle_exits_matched (hS : s.Sim m) (h : s.handle_exits c = some s') : s'.Matched c m := by
  simp only [System.handle_exits, hS.refines.current, ← hS.refines.stage] at h
  split at h
  · rename_i info task hplace hst
    obtain rfl := Option.some.inj h
    have hpc := hS.refines.place c
    rw [hplace] at hpc
    have hpc' : m.pc c = .run := hpc
    have h1 : m.step (.handle_exits c) = some (m.set_state task .exited) := by
      simp only [Machine.step, Machine.handle_exits, hpc', hst]
    have hk : m.known task = true :=
      hS.privileged.inv.known_of_at (P := .hand (m.current_task c)) ⟨_, hst, rfl⟩
    refine hS.matched (.of_step h1 rfl) (hS.refines.data.set_state hk .exited) ?_ (fun _ _ => rfl) hS.refines.known
      hS.refines.waits hS.refines.waking rfl hS.refines.next_info (.of_eq rfl rfl)
    rw [hplace]
    exact hpc'
  · cases h

theorem handle_returns_matched (hS : s.Sim m) (h : s.handle_returns c = some s') : s'.Matched c m := by
  simp only [System.handle_returns, hS.refines.current, ← hS.refines.stage] at h
  split at h
  · rename_i item hplace hst
    obtain ⟨k', hfinish, rfl⟩ := Option.map_eq_some_iff.mp h
    have hpc := hS.refines.place c
    rw [hplace] at hpc
    obtain ⟨m', H, hA'⟩ := Machine.leads_handle_returns hS.privileged.inv hS.refines.data hpc hst hS.homes hfinish
    have hS' := hS.handled H hA' (Kernel.trap_handler_finish_kept hfinish) hplace
    rwa [hS.refines.stage]
  · cases h

/-! ### The OS -/

/-- One step of the machine does what the call does. -/
theorem Sim.step (hS : s.Sim m) {a : Machine.Act cfg} (hs : m.step a = some m') (ha : m.UserPids a)
    (hR : s'.Refines m') (hk : s.kernel.Follows s'.kernel) (hH : m'.Homes s.kernel.pointer) :
    s'.MatchedBy m [a] :=
  ⟨m', by simp [hs], fun _ _ => ⟨ha, trivial⟩, hR, hk.orderly hS.orderly,
    fun hcpu => hk.visible hcpu hS.orderly (hS.visible hcpu), hk.pointer ▸ hH,
    Machine.step_privileged hS.privileged ha hs⟩

/-- The machine does nothing. -/
theorem Sim.stay (hS : s.Sim m) (hR : s'.Refines m) (hO : s'.kernel.Orderly)
    (hV : cfg.cpu_num = 1 → s'.kernel.Visible) (hH : m.Homes s'.kernel.pointer) : s'.MatchedBy m [] :=
  ⟨m, rfl, trivial, hR, hO, hV, hH, hS.privileged⟩

/-- A task that neither side knew arrives in a ready queue. -/
theorem Refines.arrives (hR : s.Refines m) {t : TaskPtr} {task : Task cfg} {k' : Kernel cfg} {p : Pid cfg}
    {l : Level cfg} {q admitted : List TaskPtr} {entered : TaskPtr → Bool}
    (hA : Agrees k' ((m.create t task none).set_ready p l q)) :
    ({ s with
      kernel := k'
      known := Function.update s.known t true
      stage := Function.update s.stage t none } : System cfg).Refines
      { (m.create t task none).set_ready p l q with admitted := admitted, entered := entered } := by
  refine ⟨hA.congr ⟨rfl, rfl, rfl, rfl, rfl, rfl, rfl, rfl, rfl, rfl⟩, hR.place, fun u hu => ?_, hR.waits, hR.waking,
    congrArg (fun st : TaskPtr → Option Stage => Function.update st t none) hR.stage, hR.next_info⟩
  rcases eq_or_ne u t with rfl | hne
  · simp
  · simp only [Machine.set_ready, Machine.create, Function.update_of_ne hne] at hu ⊢
    exact hR.known u hu

theorem push_task_matched (hS : s.Sim m) {t : TaskPtr} {task : Task cfg} (h : s.push_task c t task = some s') :
    s'.MatchedBy m [.arrive t task] := by
  simp only [System.push_task] at h
  split at h
  · rename_i hcond
    obtain ⟨⟨taken, k'⟩, hpush, h⟩ := Option.bind_eq_some_iff.mp h
    cases taken with
    | false => cases h
    | true =>
      obtain rfl := Option.some.inj h
      have hunknown : m.known t = false := by
        rw [← Bool.not_eq_true]
        intro hk
        rw [hS.refines.known _ hk] at hcond
        cases hcond.1
      have hO₀ : ({ s.kernel with tasks := Function.update s.kernel.tasks t task } : Kernel cfg).Orderly :=
        hS.orderly.congr rfl rfl
      obtain ⟨hp, hptr⟩ := Kernel.api_push_task_eq_some hO₀ hpush
      have hkept := Kernel.push_task_kept hp
      simp only [Function.update_self] at hp hptr
      have hhome : (m.create t task none).home t = task.home := by simp [Machine.create, Machine.home, Task.home]
      rw [← hhome] at hp
      obtain ⟨l, q, hp₁, hA'⟩ := (hS.refines.data.create t task none).push_task (by simp [Machine.create]) hp
      have h1 : m.step (.arrive t task) = some
          { (m.create t task none).set_ready ((m.create t task none).home t) l q with
            admitted := (m.create t task none).admitted ++ [t]
            entered := Function.update (m.create t task none).entered t true } := by
        simp only [Machine.step, Machine.arrive, hunknown, hcond.2, and_self, if_true, hp₁, Option.map_some]
        rfl
      refine hS.step h1 ?_ (hS.refines.arrives hA') ((Kernel.with_tasks_kept s.kernel _).trans hkept).toFollows
        (hS.homes.create hptr none)
      -- the kernel has no scheduler pointer, so a user task is none of its
      rintro task' ⟨⟩ hu hpid
      have hnone := hptr hu
      rw [hpid] at hnone
      exact absurd (hS.orderly.kernel_pointer.symm.trans hnone) (by simp)
  · cases h

/-- A waker makes a task `Ready`. -/
theorem Sim.woken (hS : s.Sim m) {t : TaskPtr} (hk : m.known t = true) (ws : List TaskPtr) :
    ({ s with
      kernel := s.kernel.set_state t .ready
      waits := Function.update s.waits t false
      waking := ws } : System cfg).Refines { m.set_wait t .ready false with waking := ws } := by
  obtain ⟨hA, hplace, hknown, hwaits, hwaking, hstage, hinfo⟩ := hS.refines
  refine ⟨(hA.set_wait hk .ready false).congr ⟨rfl, rfl, rfl, rfl, rfl, rfl, rfl, rfl, rfl, rfl⟩, hplace, hknown, ?_,
    rfl, hstage, hinfo⟩
  simp [Machine.set_wait, hwaits]

theorem wake_matched (hS : s.Sim m) (t : TaskPtr) : (s.wake t).MatchedBy m [.wake t] := by
  have hR := hS.refines
  have hu : m.UserPids (.wake t) := by simp [Machine.UserPids, Machine.Act.arrives]
  have hs : m.step (.wake t) = some (m.wake t) := rfl
  have hsame : m.wake t = m → s.MatchedBy m [.wake t] := fun heq =>
    hS.step (hs.trans (congrArg some heq)) hu hR (.of_eq rfl rfl) hS.homes
  cases hw : m.waits t with
  | false =>
    have hw' : s.waits t = false := by rw [← hR.waits, hw]
    simpa [System.wake, hw'] using hsame (by simp [Machine.wake, hw])
  | true =>
    have hw' : s.waits t = true := by rw [← hR.waits, hw]
    obtain ⟨P, hP⟩ := hS.privileged.inv.at_of_waits hw
    have hk := hS.privileged.inv.known_of_at hP
    have hst := congrArg Task.state (hR.data.tasks t hk)
    simp only [System.wake, hw', if_true, ← hst]
    simp only [Machine.wake, hw, if_true] at hs
    have hH : ∀ ws, ({ m.set_wait t .ready false with waking := ws } : Machine cfg).Homes s.kernel.pointer :=
      fun ws => (hS.homes.set_state t .ready).congr rfl fun _ => ⟨rfl, fun _ => rfl⟩
    cases hstate : (m.tasks t).state with
    | blocked =>
      simp only [hstate] at hs
      exact hS.step hs hu (hR.waking ▸ hS.woken hk (m.waking ++ [t])) (.of_eq rfl rfl) (hH _)
    | blocking =>
      simp only [hstate] at hs
      exact hS.step hs hu (hR.waking ▸ hS.woken hk m.waking) (.of_eq rfl rfl) (hH m.waking)
    | _ => exact hsame (by simp [Machine.wake, hw, hstate])

theorem wake_push_matched (hS : s.Sim m) {t : TaskPtr} (h : s.wake_push c t = some s') :
    s'.MatchedBy m [.wake_push t] := by
  simp only [System.wake_push, ← hS.refines.waking] at h
  split at h
  · rename_i hmem
    obtain ⟨⟨taken, k'⟩, hpush, h⟩ := Option.bind_eq_some_iff.mp h
    cases taken with
    | false => cases h
    | true =>
      obtain rfl := Option.some.inj h
      obtain ⟨hR, hO, hV, hH, hP⟩ := hS
      have hk := hP.inv.known_of_at (P := .waking) hmem
      obtain ⟨hp, -⟩ := Kernel.api_push_task_eq_some hO hpush
      have hkept := Kernel.push_task_kept hp
      rw [← hR.data.tasks t hk] at hp
      obtain ⟨l, q, hp', hA'⟩ := hR.data.push_task hk hp
      have h1 : m.step (.wake_push t) = some { m.set_ready (m.home t) l q with waking := m.waking.erase t } := by
        simp only [Machine.step, Machine.wake_push, hmem, if_true, hp', Option.map_some]
        rfl
      refine Sim.step ⟨hR, hO, hV, hH, hP⟩ h1 (by simp [Machine.UserPids, Machine.Act.arrives])
        ⟨hA'.congr ⟨rfl, rfl, rfl, rfl, rfl, rfl, rfl, rfl, rfl, rfl⟩, hR.place, hR.known, hR.waits, ?_, hR.stage,
        hR.next_info⟩ hkept.toFollows (hH.congr rfl fun _ => ⟨rfl, fun _ => rfl⟩)
      rw [hR.waking]
  · cases h

/-- The slot that `process_init` takes was never used, or its process has left no ready task. -/
def Drained (s : System cfg) : Act cfg → Prop
  | .process_init vspace =>
    ∀ r ∈ s.kernel.process_init vspace, ∀ l, (s.kernel.schedulers r.1).ready_queue.queues l = []
  | _ => True

instance (s : System cfg) : DecidablePred s.Drained
  | .process_init vspace => inferInstanceAs (Decidable (∀ r ∈ s.kernel.process_init vspace,
      ∀ l, (s.kernel.schedulers r.1).ready_queue.queues l = []))
  | .trap_entry .. | .set_self .. | .leave .. | .poll_ready .. | .kschedule .. | .utok_schedule .. | .uschedule ..
  | .wait_return .. | .run_task .. | .krun_utask .. | .trap_handler .. | .handle_exits .. | .handle_returns ..
  | .push_task .. | .wake .. | .wake_push .. | .process_drop .. | .user_init .. => isTrue trivial

theorem process_init_matched (hS : s.Sim m) {vspace : ℕ} (hd : s.Drained (.process_init vspace))
    (h : s.process_init vspace = some s') : s'.MatchedBy m [] := by
  obtain ⟨⟨p, k'⟩, hinit, rfl⟩ := Option.map_eq_some_iff.mp h
  have hspec := Kernel.process_init_spec hinit
  obtain ⟨hR, hO, hV, hH, hP⟩ := hS
  refine Sim.stay ⟨hR, hO, hV, hH, hP⟩ ⟨hspec.agrees hO hR.data (hd _ hinit), hR.place, hR.known, hR.waits,
    hR.waking, hR.stage, hR.next_info⟩ (hspec.orderly hO) (fun hcpu => hspec.visible (hV hcpu)) ?_
  intro u hk hu
  rw [hspec.pointer]
  rcases eq_or_ne (m.tasks u).pid p with heq | hne
  · simp [heq]
  · rw [Function.update_of_ne hne]
    exact hH u hk hu

theorem process_drop_matched (hS : s.Sim m) {p : Pid cfg} (h : s.process_drop p = some s') :
    s'.MatchedBy m [] := by
  simp only [System.process_drop] at h
  split at h
  · rename_i hp
    obtain rfl := Option.some.inj h
    obtain ⟨hR, hO, hV, hH, hP⟩ := hS
    have hptr : (s.kernel.process_drop p).pointer = s.kernel.pointer := by
      funext q
      rcases eq_or_ne q p with rfl | hq
      · simp [Kernel.pointer, Kernel.process_drop, ProcessInfoTable.unregister_process, ProcessInfoTable.set]
      · simp [Kernel.pointer, Kernel.process_drop, ProcessInfoTable.unregister_process_other _ hq]
    have hvalid : ((s.kernel.process_drop p).process_info_table.table .kernel).valid = true := by
      rw [Kernel.process_drop, ProcessInfoTable.unregister_process_other _ (Ne.symm hp)]
      exact hO.kernel_valid
    have hrow : ∀ q, (s.kernel.process_drop p).row q = s.kernel.row q := by
      intro q
      rcases eq_or_ne q p with rfl | hq
      · simp [Kernel.row, Kernel.process_drop, ProcessInfoTable.unregister_process, ProcessInfoTable.set]
      · simp [Kernel.row, Kernel.process_drop, ProcessInfoTable.unregister_process_other _ hq]
    have hV' : cfg.cpu_num = 1 → (s.kernel.process_drop p).Visible := fun hcpu =>
      ⟨fun q c => by rw [hrow]; exact (hV hcpu).shown q c,
        ProcessInfoTable.unregister_process_allocated (hV hcpu).allocated p⟩
    obtain ⟨h1, h2, h3, h4, h5, h6, h7, h8, h9⟩ := hR.data
    exact Sim.stay ⟨hR, hO, hV, hH, hP⟩ ⟨⟨h1, h2, h3, h4, h5, h6, h7, h8, h9⟩, hR.place, hR.known, hR.waits, hR.waking,
      hR.stage, hR.next_info⟩ ⟨hO.ok, hO.kernel_sources, hO.user_traps, by rw [hptr]; exact hO.own_pointer,
      by rw [hptr]; exact hO.kernel_pointer, hvalid⟩ hV' (by rw [hptr]; exact hH)
  · cases h

theorem user_init_matched (hS : s.Sim m) {p : Pid cfg} {handlers : Cpu cfg → TaskPtr}
    (h : s.user_init c p handlers = some s') : s'.MatchedBy m [] := by
  simp only [System.user_init] at h
  split at h
  · rename_i hcond
    obtain ⟨hp, -, hsrc, hnew⟩ := hcond
    obtain ⟨k', hinit, rfl⟩ := Option.map_eq_some_iff.mp h
    have hkept := Kernel.init_sources_kept hinit hsrc
    obtain ⟨hR, hO, hV, hH, hP⟩ := hS
    have hA : Agrees k' m := by
      obtain ⟨row, rfl⟩ := Kernel.init_sources_eq_some hinit
      obtain ⟨h1, h2, h3, h4, h5, h6, h7, h8, h9⟩ := hR.data
      refine ⟨fun t hk => ?_, fun q l => ?_, ?_, ?_, h5, h6, h7, h8, h9⟩
      · have hne : ¬ ∃ d, handlers d = t := by
          rintro ⟨d, rfl⟩
          have hfalse := hnew d
          rw [hR.known _ hk] at hfalse
          cases hfalse
        simp only [Kernel.put, if_neg hne]
        exact h1 t hk
      · rcases eq_or_ne q p with rfl | hq
        · rw [Kernel.schedulers_put_self]
          exact h2 q l
        · rw [Kernel.schedulers_put_of_ne _ hq]
          exact h2 q l
      · rw [Kernel.schedulers_put_of_ne _ (Ne.symm hp)]
        exact h3
      · rw [Kernel.schedulers_put_of_ne _ (Ne.symm hp)]
        exact h4
    refine Sim.stay ⟨hR, hO, hV, hH, hP⟩ ⟨hA, hR.place, fun t hk => ?_, hR.waits, hR.waking, hR.stage, hR.next_info⟩
      (hkept.orderly hO) (fun hcpu => hkept.visible hcpu hO (hV hcpu)) (by rw [hkept.pointer]; exact hH)
    simp [hR.known t hk]
  · cases h

/-! ### Runs -/

/-- The CPU that makes the call makes the steps. -/
theorem Matched.does (h : s'.Matched c m) {a : Act cfg} (ha : ∀ acts, (∀ b ∈ acts, b.cpu = some c) → a.Does acts) :
    ∃ acts m', a.Does acts ∧ Runs.run Machine.step m acts = some m' ∧
      Runs.Along Machine.step Machine.UserPids m acts ∧ s'.Sim m' := by
  obtain ⟨m', ⟨acts, hrun, hcpu⟩, hS⟩ := h
  refine ⟨acts, m', ha acts hcpu, hrun, ?_, hS⟩
  exact Runs.along_of_mem acts fun b hb m => Machine.user_pids_of_cpu m (hcpu b hb)

theorem MatchedBy.does {acts : List (Machine.Act cfg)} (h : s'.MatchedBy m acts) {a : Act cfg} (ha : a.Does acts) :
    ∃ acts m', a.Does acts ∧ Runs.run Machine.step m acts = some m' ∧
      Runs.Along Machine.step Machine.UserPids m acts ∧ s'.Sim m' := by
  obtain ⟨m', hrun, halong, hS⟩ := h
  exact ⟨acts, m', ha, hrun, halong, hS⟩

/-- A call of the system is matched by the steps that the machine does for it. -/
theorem step_matched (huser : ∀ p, p ≠ .kernel → user_data p = p) (hS : s.Sim m) {a : Act cfg} (hd : s.Drained a)
    (h : s.step user_data a = some s') :
    ∃ acts m', a.Does acts ∧ Runs.run Machine.step m acts = some m' ∧
      Runs.Along Machine.step Machine.UserPids m acts ∧ s'.Sim m' := by
  cases a with
  | trap_entry c trap_type => exact (trap_entry_matched hS h).does fun _ h => h
  | set_self c st => exact (set_self_matched hS h).does fun _ h => h
  | leave c b => exact (leave_matched hS h).does fun _ h => h
  | poll_ready c => exact (poll_ready_matched hS h).does fun _ h => h
  | kschedule c fuel fresh => exact (kschedule_matched huser hS h).does fun _ h => h
  | utok_schedule c fuel fresh => exact (utok_schedule_matched huser hS h).does fun _ h => h
  | uschedule c p fresh => exact (uschedule_matched hS h).does fun _ h => h
  | wait_return c => exact (wait_return_matched hS h).does fun _ h => h
  | run_task c => exact (run_task_matched hS h).does fun _ h => h
  | krun_utask c => exact (krun_utask_matched hS h).does fun _ h => h
  | trap_handler c => exact (trap_handler_matched hS h).does fun _ h => h
  | handle_exits c => exact (handle_exits_matched hS h).does fun _ h => h
  | handle_returns c => exact (handle_returns_matched hS h).does fun _ h => h
  | push_task c t task => exact (push_task_matched hS h).does rfl
  | wake t =>
    obtain rfl := Option.some.inj h
    exact (wake_matched hS t).does rfl
  | wake_push c t => exact (wake_push_matched hS h).does rfl
  | process_init vspace => exact (process_init_matched hS hd h).does rfl
  | process_drop p => exact (process_drop_matched hS h).does rfl
  | user_init c p handlers => exact (user_init_matched hS h).does rfl

end System

/-- The two systems start alike. -/
theorem Boot.sim (b : Boot cfg) (hkernel : ∀ c, (b.tasks (b.init_task c)).is_kernel = true)
    (hwait : ∀ c, (b.tasks (b.wait_context c)).is_kernel = true) {cpu : Cpu cfg} {s : System cfg}
    (h : b.system cpu = some s) : s.Sim b.machine := by
  obtain ⟨k, hinit, rfl⟩ := Option.map_eq_some_iff.mp h
  obtain ⟨row, rfl⟩ := Kernel.init_sources_eq_some hinit
  have hpointer : ∀ q, (Kernel.boot b.tasks b.init_task b.wait_context).pointer q = none := by
    intro q
    rcases eq_or_ne q .kernel with rfl | hq
    · simp [Kernel.pointer, Kernel.boot, ProcessInfoTable.default, ProcessInfoTable.unused]
    · simp [Kernel.pointer, Kernel.boot, ProcessInfoTable.default, ProcessInfoTable.unused, hq]
  have hP := b.privileged hkernel hwait
  refine ⟨⟨⟨fun t _ => rfl, fun q l => ?_, ?_, ?_, rfl, rfl, rfl, rfl, rfl⟩, fun c => rfl, fun t hk => hk, rfl, rfl,
    rfl, rfl⟩, ⟨fun q => ?_, ?_, fun q hq c => ?_, fun q r hqr => ?_, ?_, ?_⟩, fun hcpu => ?_, fun t hk hu => ?_, hP⟩
  · rcases eq_or_ne q .kernel with rfl | hq
    · simp [Kernel.boot, Scheduler.new, ReadyQueue.new, machine]
    · simp [Kernel.schedulers_put_of_ne _ hq, Kernel.boot, Scheduler.new, ReadyQueue.new, machine]
  · simp [Kernel.boot, Scheduler.new, TrapWaitQueue.new, machine]
  · simp [Kernel.boot, Scheduler.new, TrapWaitQueue.new, machine]
  · rcases eq_or_ne q .kernel with rfl | hq
    · rw [Kernel.schedulers_put_self]
      exact ⟨Scheduler.new_ok.synced, Or.inr (by simp [Kernel.boot, Scheduler.new])⟩
    · rw [Kernel.schedulers_put_of_ne _ hq]
      exact Scheduler.new_ok
  · simp [Kernel.boot, Scheduler.new]
  · simp [Kernel.schedulers_put_of_ne _ hq, Kernel.boot, Scheduler.new, TrapWaitQueue.new]
  · simp [hpointer] at hqr
  · simp [hpointer]
  · rw [(Kernel.table_put _ _ _ _ _ _).1]
    simp [Kernel.boot, ProcessInfoTable.default]
  · have hsound := PriorityOrder.sound_start hcpu hinit
    exact ⟨hsound.visible, hsound.allocated⟩
  · simp [b.known_kernel hkernel hwait hk] at hu

namespace KernelRefinement

/-- What `TrapInfo::new_handler` would return. -/
def spare : TaskPtr × Task solo := (9, ⟨.ready, 0, false, true, .kernel⟩)

/-- The init task starts a process with a user task and blocks; the user task is dispatched, and an interrupt
    in its code leads to the trap handler. -/
def start_user : List (System.Act solo) :=
  [.process_init 4096, .push_task solo_cpu 7 ⟨.ready, 3, false, false, solo_pid⟩,
    .user_init solo_cpu solo_pid fun _ => 8, .set_self solo_cpu .blocking, .leave solo_cpu false,
    .kschedule solo_cpu 2 spare, .krun_utask solo_cpu, .trap_entry solo_cpu 1, .kschedule solo_cpu 1 spare,
    .run_task solo_cpu]

end KernelRefinement

end Vsched2
