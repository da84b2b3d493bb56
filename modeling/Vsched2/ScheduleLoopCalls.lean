import Vsched2.ScheduleLoopRiscv
import Vsched2.ScheduleLoopX86
import Vsched2.Lib.Run

/-! What the schedule loop does in the two architectures, and with the functions of `main_loop.rs`.

    The loops of `riscv64` and `x86_64` make the same calls. They differ in one argument: after a trap the
    status of the stack is 0 on `x86_64`, and what was in the register on `riscv64`. And an `x86_64` without
    APX has not all the instructions after the call of `thread_entry`.

    `LoopCpu` is about the values that the loop keeps in registers, which no other part of this development
    has: the places of `Machine` and `System` are the functions the loop is in, and say nothing of them. -/

namespace Vsched2

namespace ScheduleLoop

/-! ### Two architectures -/

/-- What a caller sees of a reply: the value, and whether the stack was switched. -/
def Reply.seen {w : ℕ} {ρ : Type} (r : Reply w ρ) : BitVec w × Bool := (r.value, r.new_sp.isSome)

/-- A call without the argument that is the status of the stack. -/
def without_status {w : ℕ} (c : Call w) : Call w :=
  match c.1 with
  | .uschedule | .krun_utask => (c.1, [])
  | .run_task => (c.1, c.2.take 1)
  | _ => c

namespace Loop

variable {w : ℕ} {ρ : Type} {l l' : Loop w}

/-- A step by what is seen of the reply, without the status in the call. -/
def plain_step (l : Loop w) (r : BitVec w × Bool) : Option (Call w × Loop w) :=
  if r.2 = true ∧ l.fn.trampoline = none then none
  else (l.next r.1).map fun l' => (without_status (l'.fn, l'.args), l')

theorem step_plain (l : Loop w) (r : Reply w ρ) :
    (l.step r).map (Prod.map without_status id) = l.plain_step r.seen := by
  have hmap : ((l.next r.value).map fun l' => ((l'.fn, l'.args), l')).map (Prod.map without_status id) =
      (l.next r.value).map fun l' => (without_status (l'.fn, l'.args), l') := by
    cases l.next r.value <;> rfl
  cases hsp : r.new_sp with
  | none => simp [step, plain_step, Reply.seen, hsp, hmap]
  | some new_sp =>
    by_cases ht : l.fn.trampoline = none
    · simp [step, plain_step, Reply.seen, hsp, ht]
    · simp only [step, plain_step, Reply.seen, hsp, ht, and_false, if_false, hmap]

/-- Two loops that may be on stacks of different status. -/
structure Alike (l l' : Loop w) : Prop where
  fn : l.fn = l'.fn
  privilege : l.privilege = l'.privilege

theorem next_alike (h : Alike l l') (v : BitVec w) : l.next v = none ∧ l'.next v = none ∨
    ∃ m m', l.next v = some m ∧ l'.next v = some m' ∧ Alike m m' := by
  obtain ⟨fn, privilege, status⟩ := l
  obtain ⟨fn', privilege', status'⟩ := l'
  obtain ⟨rfl, rfl⟩ : fn = fn' ∧ privilege = privilege' := ⟨h.fn, h.privilege⟩
  cases fn with
  | uschedule => exact Or.inr ⟨_, _, rfl, rfl, rfl, rfl⟩
  | trap_entry | thread_entry | kschedule | utok_schedule | run_task =>
    simp only [next]
    split_ifs <;> first
      | exact Or.inl ⟨rfl, rfl⟩
      | exact Or.inr ⟨_, _, rfl, rfl, rfl, rfl⟩
  | krun_utask | thread_entry_phase2 | run_coroutine | run_thread => exact Or.inl ⟨rfl, rfl⟩

theorem Alike.without_status (h : Alike l l') :
    without_status (l.fn, l.args) = without_status (l'.fn, l'.args) := by
  obtain ⟨fn, privilege, status⟩ := l
  obtain ⟨fn', privilege', status'⟩ := l'
  obtain ⟨rfl, rfl⟩ : fn = fn' ∧ privilege = privilege' := ⟨h.fn, h.privilege⟩
  cases fn <;> rfl

theorem plain_step_alike (h : Alike l l') (r : BitVec w × Bool) : l.plain_step r = none ∧ l'.plain_step r = none ∨
    ∃ c m m', l.plain_step r = some (c, m) ∧ l'.plain_step r = some (c, m') ∧ Alike m m' := by
  simp only [plain_step, ← h.fn]
  split_ifs
  · exact Or.inl ⟨rfl, rfl⟩
  · rcases next_alike h r.1 with ⟨hl, hl'⟩ | ⟨m, m', hl, hl', hm⟩
    · exact Or.inl ⟨by rw [hl]; rfl, by rw [hl']; rfl⟩
    · exact Or.inr ⟨_, m, m', by rw [hl]; rfl, by rw [hl', hm.without_status]; rfl, hm⟩

/-- The calls without the status of the stack follow from what is seen of the replies. -/
theorem calls_plain (l : Loop w) (args : List (BitVec w)) (rs : List (Reply w ρ)) :
    (l.calls args rs).map (List.map without_status) =
      ((Refinement.trace plain_step l (rs.map Reply.seen)).map Prod.fst).map
        (List.cons (without_status (l.fn, args))) := by
  have hstep : (fun (l : Loop w) (r : Reply w ρ) => l.plain_step r.seen) =
      fun l r => (l.step r).map (Prod.map without_status id) := by
    funext l r
    exact (step_plain l r).symm
  rw [← Refinement.trace_comap, hstep, Refinement.trace_map, calls]
  simp only [Option.map_map]
  rfl

end Loop

/-- The registers the two codes are entered with hold the same values, but for the status of the stack. -/
structure Same (s : Assembly.State 64 Riscv.Reg) (s' : Assembly.State 64 X86.Reg) : Prop where
  trap_type : s.regs .a0 = s'.regs .rax
  trap_privilege : s.regs .a1 = s'.regs .rbx
  privilege : s.regs .s1 = s'.regs .r12

theorem start_alike {s : Assembly.State 64 Riscv.Reg} {s' : Assembly.State 64 X86.Reg} (h : Same s s') (e : Entry) :
    Loop.Alike (Riscv.start e s).1 (X86.start e s').1 ∧
    without_status ((Riscv.start e s).1.fn, (Riscv.start e s).2) =
      without_status ((X86.start e s').1.fn, (X86.start e s').2) := by
  cases e with
  | raw_trap_entry => exact ⟨⟨rfl, h.trap_privilege⟩, by simp [Riscv.start, X86.start, h.trap_type, h.trap_privilege]⟩
  | raw_thread_entry => exact ⟨⟨rfl, h.privilege⟩, rfl⟩
  | raw_kschedule => exact ⟨⟨rfl, h.privilege⟩, rfl⟩
  | raw_run_task => exact ⟨⟨rfl, h.privilege⟩, by simp [Riscv.start, X86.start, without_status, h.privilege]⟩

/-- The two codes make the same calls, with the same arguments but for the status of the stack, when they
    are entered alike and get the same replies, on a CPU that has the instructions of the code. -/
theorem same_calls (apx : Bool) (layout layout' : Layout 64) (e : Entry) (hapx : apx = true ∨ e ≠ .raw_thread_entry)
    (s : Assembly.State 64 Riscv.Reg) (s' : Assembly.State 64 X86.Reg) (rs : List (Reply 64 Riscv.Reg))
    (rs' : List (Reply 64 X86.Reg)) (hs : Same s s') (hrs : rs.map Reply.seen = rs'.map Reply.seen) :
    (Riscv.calls layout e s rs).map (List.map without_status) =
      (X86.calls apx layout' e s' rs').map (List.map without_status) := by
  obtain ⟨hl, hcall⟩ := start_alike hs e
  rw [Riscv.calls_loop, X86.calls_loop layout' e hapx, Loop.calls_plain, Loop.calls_plain, hrs, hcall,
    Refinement.trace_congr (R := Loop.Alike) (fun _ _ r h => Loop.plain_step_alike h r) _ hl]

/-- A synchronous trap in the kernel, with 5 left in `s2`. -/
def trapped : Assembly.State 64 Riscv.Reg := ⟨fun x => if x = .s2 then 5 else 0, fun _ => 0, false⟩

def trapped_replies : List (Reply 64 Riscv.Reg) :=
  [⟨1, none, fun _ => 7, fun _ => 7⟩, ⟨0, none, fun _ => 7, fun _ => 7⟩, ⟨0, some 0x5000, fun _ => 7, fun _ => 7⟩]

theorem same_calls_trapped :
    (Riscv.calls .packed .raw_trap_entry trapped trapped_replies).map (List.map without_status) =
      (X86.calls false .packed .raw_trap_entry X86.trapped X86.trapped_replies).map (List.map without_status) :=
  same_calls false .packed .packed .raw_trap_entry (Or.inr (by decide)) trapped X86.trapped trapped_replies
    X86.trapped_replies ⟨rfl, rfl, rfl⟩ rfl

/-! ### The privilege -/

/-- A CPU: the privilege it runs at, its flag `IN_KERNEL`, and the loop, if the CPU is not in the code of a
    thread or on its way into the loop. A call of `trap_entry` has the type of the trap. -/
structure LoopCpu where
  user : Bool
  IN_KERNEL : Bool
  loop : Option (Loop 64)
  trap_type : BitVec 64
  deriving DecidableEq

namespace LoopCpu

/-- The steps: the OS enters the loop, with what is in the registers of the loop where they are not set; a
    function returns; a function leaves for a task, or for the kernel; and a coroutine that has been
    interrupted, and was resumed like a thread, returns from the `run_task` that polled it. -/
inductive Act where
  | raw_kschedule
  | raw_trap_entry (trap_type stack_status : BitVec 64)
  | raw_thread_entry (kept stack_status : BitVec 64)
  | returns (v : BitVec 64)
  | run_thread
  | coroutine_returns
  | krun_utask (is_coroutine : Bool) (stack_status : BitVec 64)
  | into_kernel (stack_status : BitVec 64)
  deriving DecidableEq

/-- The value of a privilege: 0 for the kernel, 1 for user mode. -/
def privilege (user : Bool) : BitVec 64 := if user then 1 else 0

/-- After the initialisation, in the code of the kernel. -/
def start : LoopCpu := ⟨false, true, none, 0⟩

/-- A trap may come: always in user mode, in the kernel in the code of a task, outside the loop or while
    `run_task` polls a coroutine, and while the scheduler waits for an interrupt. -/
def interruptible (s : LoopCpu) : Bool :=
  match s.loop with
  | none => true
  | some l => s.user || l.fn = .run_task || l.fn = .kschedule || l.fn = .utok_schedule

/-- What the functions of `main_loop.rs` may return. -/
def may_return (cpu_num : ℕ) (s : LoopCpu) (l : Loop 64) (v : BitVec 64) : Bool :=
  match l.fn with
  | .trap_entry => if s.trap_type = 2 then v = 3 else (s.trap_type = 0 || s.trap_type = 1) && l.privilege = 0 && v = 1
  | .thread_entry => v = (if cpu_num = 1 then 2 else 0) + (if s.IN_KERNEL then 0 else 1)
  | .kschedule | .utok_schedule => v = 0 || v = 1
  | .uschedule => true
  | .run_task => v = if s.IN_KERNEL then 0 else 1
  | _ => false

/-- `IN_KERNEL` after a function has returned: `trap_entry` sets it by its second argument. -/
def flag (s : LoopCpu) (l : Loop 64) : Bool := if l.fn = .trap_entry then l.privilege = 0 else s.IN_KERNEL

def step (cpu_num : ℕ) (s : LoopCpu) : Act → Option LoopCpu
  | .raw_kschedule =>
    if s.loop = none ∧ s.user = false then some { s with loop := some ⟨.kschedule, 0, 0⟩ } else none
  -- a trap leads into the kernel; type 2 is only for `into_kernel`
  | .raw_trap_entry trap_type stack_status =>
    if s.interruptible ∧ trap_type ≠ 2 then
      some ⟨false, s.IN_KERNEL, some ⟨.trap_entry, privilege false, stack_status⟩, trap_type⟩
    else none
  | .raw_thread_entry kept stack_status =>
    if s.loop.all fun l => l.fn = .run_task then some { s with loop := some ⟨.thread_entry, kept, stack_status⟩ }
    else none
  | .returns v =>
    s.loop.bind fun l =>
      if s.may_return cpu_num l v then
        (l.next v).map fun l' => { s with IN_KERNEL := s.flag l, loop := some l' }
      else none
  | .run_thread => s.loop.bind fun l => if l.fn = .run_task then some { s with loop := none } else none
  -- the registers of the loop were saved with the coroutine, and the code after the call sets them anew
  | .coroutine_returns =>
    if s.loop = none then
      (Loop.next ⟨.run_task, 0, 0⟩ (privilege (!s.IN_KERNEL))).map fun l => { s with loop := some l }
    else none
  -- a coroutine of a user process is entered at `raw_run_task` of the process, with the privilege 1
  | .krun_utask is_coroutine stack_status =>
    s.loop.bind fun l =>
      if l.fn = .krun_utask then
        some ⟨true, false, if is_coroutine then some ⟨.run_task, privilege true, stack_status⟩ else none, s.trap_type⟩
      else none
  | .into_kernel stack_status =>
    s.loop.bind fun l =>
      if l.fn = .uschedule then
        some ⟨false, s.IN_KERNEL, some ⟨.trap_entry, privilege false, stack_status⟩, 2⟩
      else none

/-- The privilege of the loop is that of the CPU, and so is `IN_KERNEL`, unless `trap_entry` has yet to set
    it; the functions of the kernel are called in the kernel, and `uschedule` in user mode. -/
structure Coherent (s : LoopCpu) : Prop where
  flag : (∀ l ∈ s.loop, l.fn ≠ .trap_entry) → s.IN_KERNEL = !s.user
  privilege : ∀ l ∈ s.loop, l.fn ≠ .thread_entry → l.privilege = privilege s.user
  kernel : ∀ l ∈ s.loop, l.fn = .trap_entry ∨ l.fn = .kschedule ∨ l.fn = .utok_schedule ∨ l.fn = .krun_utask →
    s.user = false
  user : ∀ l ∈ s.loop, l.fn = .uschedule → s.user = true

variable {cpu_num : ℕ} {s s' : LoopCpu}

/-- A thread of the kernel or of a user process runs. -/
theorem coherent_outside {u : Bool} {trap_type : BitVec 64} : Coherent ⟨u, !u, none, trap_type⟩ where
  flag := fun _ => rfl
  privilege := by simp
  kernel := by simp
  user := by simp

/-- A trap from anywhere: the kernel is entered with the privilege 0. -/
theorem coherent_trap (flag : Bool) (trap_type stack_status : BitVec 64) :
    Coherent ⟨false, flag, some ⟨.trap_entry, privilege false, stack_status⟩, trap_type⟩ where
  flag := fun h => absurd rfl (h _ rfl)
  privilege := by simp
  kernel := by simp
  user := by simp

/-- A call other than of `trap_entry`. -/
theorem coherent_call {u : Bool} {l : Loop 64} {trap_type : BitVec 64} (hfn : l.fn ≠ .trap_entry)
    (hp : l.privilege = privilege u)
    (hk : l.fn = .kschedule ∨ l.fn = .utok_schedule ∨ l.fn = .krun_utask → u = false)
    (hu : l.fn = .uschedule → u = true) : Coherent ⟨u, !u, some l, trap_type⟩ where
  flag := fun _ => rfl
  privilege := fun l' hl' _ => by
    obtain rfl := Option.some.inj hl'
    exact hp
  kernel := fun l' hl' h => by
    obtain rfl := Option.some.inj hl'
    exact hk (h.resolve_left hfn)
  user := fun l' hl' h => by
    obtain rfl := Option.some.inj hl'
    exact hu h

/-- A coroutine returns into the loop, at the privilege it has run at. -/
theorem coherent_coroutine {u : Bool} {trap_type : BitVec 64}
    (hs : (Loop.next ⟨.run_task, 0, 0⟩ (LoopCpu.privilege (!!u))).map (fun l =>
      { user := u, IN_KERNEL := !u, loop := some l, trap_type := trap_type }) = some s') : s'.Coherent := by
  cases u with
  | false =>
    obtain rfl := Option.some.inj hs
    exact coherent_call (u := false) (by simp) rfl (by simp) (by simp)
  | true =>
    obtain rfl := Option.some.inj hs
    exact coherent_call (u := true) (by simp) rfl (by simp) (by simp)

/-- The next call after a return: the loop has one, and it is a call that is right at this privilege. -/
theorem Coherent.returns (h : s.Coherent) {l : Loop 64} (hl : s.loop = some l) {v : BitVec 64}
    (hv : s.may_return cpu_num l v = true) :
    ∃ l', l.next v = some l' ∧ Coherent { s with IN_KERNEL := s.flag l, loop := some l' } := by
  obtain ⟨user, flag, loop, trap_type⟩ := s
  obtain rfl : loop = some l := hl
  obtain ⟨fn, p, st⟩ := l
  have hflag : fn ≠ .trap_entry → flag = !user := fun hne => h.flag fun l hl => Option.some.inj hl ▸ hne
  have hp : fn ≠ .thread_entry → p = LoopCpu.privilege user := h.privilege _ rfl
  have hk := h.kernel _ rfl
  cases fn with
  | trap_entry =>
    obtain rfl : user = false := hk (by simp)
    obtain rfl : p = 0 := hp (by simp)
    by_cases ht : trap_type = 2
    · have hv3 : v = 3 := by simpa [may_return, ht] using hv
      exact ⟨⟨.utok_schedule, 0, st⟩, by simp [Loop.next, hv3], coherent_call (by simp) rfl (by simp) (by simp)⟩
    · have hv1 : v = 1 := by
        simp only [may_return, ht, if_false, Bool.and_eq_true, decide_eq_true_eq] at hv
        exact hv.2
      exact ⟨⟨.kschedule, 0, st⟩, by simp [Loop.next, hv1], coherent_call (by simp) rfl (by simp) (by simp)⟩
  | thread_entry =>
    obtain rfl := hflag (by simp)
    cases user with
    | false =>
      have hvn : v = (if cpu_num = 1 then 2 else 0) + 0 := of_decide_eq_true hv
      have hand : v &&& 1 = 0 := by
        rw [hvn]
        split_ifs <;> decide
      exact ⟨⟨.kschedule, v &&& 1, v >>> 1⟩, if_pos hand, coherent_call (by simp) hand (by simp) (by simp)⟩
    | true =>
      have hvn : v = (if cpu_num = 1 then 2 else 0) + 1 := of_decide_eq_true hv
      have hand : v &&& 1 = 1 := by
        rw [hvn]
        split_ifs <;> decide
      have hnext : Loop.next ⟨.thread_entry, p, st⟩ v = some ⟨.uschedule, v &&& 1, v >>> 1⟩ := by
        rw [Loop.next, hand]
        rfl
      exact ⟨_, hnext, coherent_call (by simp) hand (by simp) (by simp)⟩
  | kschedule | utok_schedule =>
    obtain rfl : user = false := hk (by simp)
    obtain rfl := hflag (by simp)
    obtain rfl : p = 0 := hp (by simp)
    have hv' : v = 0 ∨ v = 1 := by simpa [may_return] using hv
    rcases hv' with rfl | rfl
    · exact ⟨⟨.run_task, 0, st⟩, rfl, coherent_call (by simp) rfl (by simp) (by simp)⟩
    · exact ⟨⟨.krun_utask, 0, st⟩, rfl, coherent_call (by simp) rfl (by simp) (by simp)⟩
  | uschedule =>
    obtain rfl := hflag (by simp)
    exact ⟨⟨.run_task, p, st⟩, rfl, coherent_call (by simp) (hp (by simp)) (by simp) (by simp)⟩
  | run_task =>
    obtain rfl := hflag (by simp)
    have hv' : v = if !user then 0 else 1 := by simpa [may_return] using hv
    cases user with
    | false =>
      obtain rfl : v = 0 := hv'
      exact ⟨⟨.kschedule, 0, 0⟩, rfl, coherent_call (by simp) rfl (by simp) (by simp)⟩
    | true =>
      obtain rfl : v = 1 := hv'
      exact ⟨⟨.uschedule, 1, 0⟩, rfl, coherent_call (by simp) rfl (by simp) (by simp)⟩
  | krun_utask | thread_entry_phase2 | run_coroutine | run_thread => cases hv

theorem step_coherent (h : s.Coherent) {a : Act} (hs : s.step cpu_num a = some s') : s'.Coherent := by
  cases a with
  | raw_kschedule =>
    simp only [step] at hs
    split at hs
    · rename_i hc
      obtain rfl := Option.some.inj hs
      have hflag := h.flag (by simp [hc.1])
      obtain ⟨user, flag, loop, trap_type⟩ := s
      obtain rfl : user = false := hc.2
      obtain rfl : flag = true := hflag
      exact coherent_call (by simp) rfl (by simp) (by simp)
    · cases hs
  | raw_trap_entry trap_type stack_status =>
    simp only [step] at hs
    split at hs
    · obtain rfl := Option.some.inj hs
      exact coherent_trap _ _ _
    · cases hs
  | raw_thread_entry kept stack_status =>
    simp only [step] at hs
    split at hs
    · rename_i hall
      obtain rfl := Option.some.inj hs
      have hne : ∀ l ∈ s.loop, l.fn ≠ .trap_entry := by
        intro l hl
        rw [Option.mem_def.mp hl] at hall
        have hrun : l.fn = .run_task := by simpa using hall
        simp [hrun]
      exact ⟨fun _ => h.flag hne, by simp, by simp, by simp⟩
    · cases hs
  | returns v =>
    obtain ⟨l, hl, hs⟩ := Option.bind_eq_some_iff.mp hs
    split at hs
    · rename_i hv
      obtain ⟨l', hnext, hc⟩ := h.returns hl hv
      rw [hnext] at hs
      obtain rfl := Option.some.inj hs
      exact hc
    · cases hs
  | run_thread =>
    obtain ⟨l, hl, hs⟩ := Option.bind_eq_some_iff.mp hs
    split at hs
    · rename_i hfn
      obtain rfl := Option.some.inj hs
      have hflag := h.flag fun l' hl' => by
        obtain rfl := Option.some.inj (hl.symm.trans hl')
        simp [hfn]
      obtain ⟨user, flag, loop, trap_type⟩ := s
      obtain rfl : flag = !user := hflag
      exact coherent_outside
    · cases hs
  | coroutine_returns =>
    simp only [step] at hs
    split at hs
    · rename_i hnone
      have hflag := h.flag (by simp [hnone])
      obtain ⟨user, flag, loop, trap_type⟩ := s
      obtain rfl : flag = !user := hflag
      exact coherent_coroutine hs
    · cases hs
  | krun_utask is_coroutine stack_status =>
    obtain ⟨l, hl, hs⟩ := Option.bind_eq_some_iff.mp hs
    split at hs
    · obtain rfl := Option.some.inj hs
      cases is_coroutine with
      | false => exact coherent_outside (u := true)
      | true => exact coherent_call (u := true) (by simp) rfl (by simp) (by simp)
    · cases hs
  | into_kernel stack_status =>
    obtain ⟨l, hl, hs⟩ := Option.bind_eq_some_iff.mp hs
    split at hs
    · obtain rfl := Option.some.inj hs
      exact coherent_trap _ _ _
    · cases hs

/-- In every run the loop is at the privilege of the CPU, and `IN_KERNEL` says so outside of `trap_entry`; and
    whatever the function that is called may return, the loop goes on with a call. -/
theorem always_coherent (cpu_num : ℕ) (acts : List Act) (s : LoopCpu)
    (hrun : Runs.run (step cpu_num) start acts = some s) :
    s.Coherent ∧ ∀ l ∈ s.loop, ∀ v, s.may_return cpu_num l v = true → l.next v ≠ none := by
  have h : s.Coherent := Runs.run_invariant (fun _ _ _ h hs => step_coherent h hs) acts coherent_outside hrun
  refine ⟨h, fun l hl v hv => ?_⟩
  obtain ⟨l', hnext, -⟩ := h.returns hl hv
  rw [hnext]
  exact Option.some_ne_none l'

/-- A trap in the kernel, a coroutine of a user process, its end, and the way back into the kernel. -/
def to_user_and_back : List Act :=
  [.raw_trap_entry 0 0, .returns 1, .returns 1, .krun_utask true 0, .returns 1, .into_kernel 7, .returns 3, .returns 0]

theorem always_coherent_to_user_and_back : ∃ s, Runs.run (step 2) start to_user_and_back = some s ∧
    s.loop = some ⟨.run_task, 0, 7⟩ ∧ s.Coherent := by
  have hrun : (Runs.run (step 2) start to_user_and_back).map LoopCpu.loop = some (some ⟨.run_task, 0, 7⟩) := by decide
  obtain ⟨s, hs, hl⟩ := Option.map_eq_some_iff.mp hrun
  exact ⟨s, hs, hl, (always_coherent 2 to_user_and_back s hs).1⟩

end LoopCpu

end ScheduleLoop

end Vsched2
