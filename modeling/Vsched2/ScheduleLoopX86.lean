import Vsched2.ScheduleLoop

/-! The schedule loop of `arch/x86.rs` for x86_64, that it is the one meant, and the alignment of its stack.

    After the call of `thread_entry` the source has two instructions with three operands. Only a CPU with
    the extension APX has them. Without it the code is the loop as long as `thread_entry` has not returned. -/

namespace Vsched2

namespace ScheduleLoop

namespace X86

open Assembly

inductive Reg where | rax | rbx | rdi | rsi | rsp | rbp | r12 | r13
  deriving DecidableEq, Repr

abbrev Code := List (Instr 64 Reg Label Fn)

/-! ### The macros around a call -/

def push_0_arg : Code := [.sub .rsp 8]

def push_1_arg (arg1 : Reg) : Code := [.sub .rsp 8, .mov .rdi arg1]

def push_2_arg (arg1 arg2 : Reg) : Code := [.sub .rsp 8, .mov .rdi arg1, .mov .rsi arg2]

def pop_0_arg : Code := [.add .rsp 8]

def pop_1_arg : Code := [.add .rsp 8]

def pop_2_arg : Code := [.add .rsp 8]

/-- A form of an instruction with a destination of its own. A CPU without APX raises an exception. -/
def apx_form (apx : Bool) (i : Instr 64 Reg Label Fn) : Instr 64 Reg Label Fn := if apx then i else .undefined

/-- The code. A word of data stands where the code is not to come. -/
def code (apx : Bool) : Label → Code
  | .raw_trap_entry => [.mov .r12 .rbx, .li .r13 0] ++ push_2_arg .rax .rbx ++ [.call .trap_entry]
  | .after .trap_entry =>
    pop_2_arg ++ [.cmp .rax 1, .je .raw_kschedule, .cmp .rax 2, .je .raw_uschedule, .cmp .rax 3,
      .je .raw_utok_schedule, .word 0xdeadbeef]
  | .raw_thread_entry => push_0_arg ++ [.call .thread_entry]
  | .after .thread_entry =>
    pop_0_arg ++ [apx_form apx (.andi .r12 .rax 1), apx_form apx (.srli .r13 .rax 1), .cmp .r12 0,
      .je .raw_kschedule, .cmp .r12 1, .je .raw_uschedule, .word 0xdeadbeef]
  | .raw_kschedule => push_0_arg ++ [.call .kschedule]
  | .after .kschedule =>
    pop_0_arg ++ [.cmp .rax 0, .je .raw_run_task, .cmp .rax 1, .je .raw_krun_utask, .word 0xdeadbeef]
  | .raw_uschedule => push_1_arg .r13 ++ [.call .uschedule]
  | .after .uschedule => pop_1_arg ++ [.jmp .raw_run_task, .word 0xdeadbeef]
  | .raw_utok_schedule => push_0_arg ++ [.call .utok_schedule]
  | .after .utok_schedule =>
    pop_0_arg ++ [.cmp .rax 0, .je .raw_run_task, .cmp .rax 1, .je .raw_krun_utask, .word 0xdeadbeef]
  | .raw_run_task => push_2_arg .r12 .r13 ++ [.call .run_task]
  | .after .run_task =>
    pop_2_arg ++ [.mov .r12 .rax, .li .r13 0, .cmp .r12 0, .je .raw_kschedule, .cmp .r12 1, .je .raw_uschedule,
      .word 0xdeadbeef]
  | .raw_krun_utask => push_1_arg .r13 ++ [.call .krun_utask]
  | .after .krun_utask => [.word 0xdeadbeef]
  | .jump_to_trampoline t => [.load .rsi .rbp 8, .jmp (.trampoline t)]
  | .trampoline t =>
    [.add .rdi 8, .andi .rdi .rdi (-16), .sub .rdi 8, .store .rdi .rsi, .mov .rsp .rdi, .tail t.target]
  | .after _ => []

/-- The arguments of a call, in registers. -/
def args (f : Fn) (s : State 64 Reg) : List (BitVec 64) :=
  match f with
  | .trap_entry | .run_task => [s.regs .rdi, s.regs .rsi]
  | .uschedule | .krun_utask => [s.regs .rdi]
  | _ => []

/-- `call`: the address of the place after it is pushed. -/
def pushed (layout : Layout 64) (f : Fn) (s : State 64 Reg) : State 64 Reg :=
  (s.set .rsp (s.regs .rsp - 8)).write (s.regs .rsp - 8) (layout.addr (.after f))

/-- A function entered in `s` returns by the calling convention: it keeps `rbx`, `rbp`, `r12` and `r13` and
    the address to return to, and pops it. -/
def returned (s : State 64 Reg) (r : Reply 64 Reg) : State 64 Reg where
  regs
    | .rbx => s.regs .rbx
    | .rbp => s.regs .rbp
    | .r12 => s.regs .r12
    | .r13 => s.regs .r13
    | .rsp => s.regs .rsp + 8
    | .rax => r.value
    | .rdi => r.regs .rdi
    | .rsi => r.regs .rsi
  mem := Function.update r.mem (s.regs .rsp) (s.mem (s.regs .rsp))
  zf := s.zf

/-- A function before it jumps to its trampoline: `rbp` points to the saved `rbp`, below the address to
    return to. -/
def leaving (s : State 64 Reg) (new_sp : BitVec 64) (r : Reply 64 Reg) : State 64 Reg where
  regs := fun x => if x = .rdi then new_sp else if x = .rbp then s.regs .rsp - 8 else r.regs x
  mem := Function.update r.mem (s.regs .rsp) (s.mem (s.regs .rsp))
  zf := s.zf

/-- The call of `f` in `s` ends: the state, and the label the address popped names. -/
def reply (apx : Bool) (layout : Layout 64) (f : Fn) (s : State 64 Reg) (r : Reply 64 Reg) :
    Option (Label × State 64 Reg) :=
  let s' := pushed layout f s
  match r.new_sp, f.trampoline with
  | none, _ => (layout.label_at (s'.mem (s'.regs .rsp))).map fun l => (l, returned s' r)
  | some new_sp, some t =>
    (exec (code apx) 8 (leaving s' new_sp r) (code apx (.jump_to_trampoline t))).bind fun e =>
      (layout.label_at (e.2.mem (e.2.regs .rsp))).map fun l => (l, returned e.2 r)
  | some _, none => none

/-- The code runs up to the next call. -/
def run_code (apx : Bool) (l : Label) (s : State 64 Reg) : Option (Call 64 × (Fn × State 64 Reg)) :=
  (exec (code apx) 16 s (code apx l)).map fun e => ((e.1, args e.1 e.2), e)

def step (apx : Bool) (layout : Layout 64) (p : Fn × State 64 Reg) (r : Reply 64 Reg) :
    Option (Call 64 × (Fn × State 64 Reg)) :=
  (reply apx layout p.1 p.2 r).bind fun e => run_code apx e.1 e.2

/-- The calls that the code makes when it is entered. -/
def calls (apx : Bool) (layout : Layout 64) (e : Entry) (s : State 64 Reg) (rs : List (Reply 64 Reg)) :
    Option (List (Call 64)) :=
  (run_code apx e.label s).bind fun c => (Refinement.trace (step apx layout) c.2 rs).map fun r => c.1 :: r.1

/-- The loop that an entry starts. -/
def start (e : Entry) (s : State 64 Reg) : Loop 64 × List (BitVec 64) :=
  match e with
  | .raw_trap_entry => (⟨.trap_entry, s.regs .rbx, 0⟩, [s.regs .rax, s.regs .rbx])
  | .raw_thread_entry => (⟨.thread_entry, s.regs .r12, s.regs .r13⟩, [])
  | .raw_kschedule => (⟨.kschedule, s.regs .r12, s.regs .r13⟩, [])
  | .raw_run_task => (⟨.run_task, s.regs .r12, s.regs .r13⟩, [s.regs .r12, s.regs .r13])

/-! ### The code between two calls -/

/-- The code stands in the call that the loop stands in, with the values of the loop in `r12` and `r13`. -/
structure Rep (p : Fn × State 64 Reg) (l : Loop 64) : Prop where
  fn : p.1 = l.fn
  privilege : p.2.regs .r12 = l.privilege
  stack_status : p.2.regs .r13 = l.stack_status

/-- Entered with the stack at `rsp`, the code comes to a call if and only if the loop does, to the same with
    the same arguments, and has taken 8 bytes of the stack for it. -/
inductive Agree (rsp : BitVec 64) : Option (Fn × State 64 Reg) → Option (Loop 64) → Prop where
  | stop : Agree rsp none none
  | call {p l} (h : Rep p l) (ha : args p.1 p.2 = l.args) (hsp : p.2.regs .rsp = rsp - 8) : Agree rsp (some p) (some l)

variable {apx : Bool} {s : State 64 Reg} {l : Loop 64} {rsp : BitVec 64}

theorem Agree.ite {c : Prop} [Decidable c] {o o' : Option (Fn × State 64 Reg)} {m m' : Option (Loop 64)}
    (h : Agree rsp o m) (h' : Agree rsp o' m') : Agree rsp (if c then o else o') (if c then m else m') := by
  split
  · exact h
  · exact h'

/-- The code at the label of a function: `push_0_arg`, `push_1_arg` or `push_2_arg`, and the call. -/
def to_call (f : Fn) (s : State 64 Reg) : State 64 Reg :=
  let s' := s.set .rsp (s.regs .rsp - 8)
  match f with
  | .uschedule | .krun_utask => s'.set .rdi (s'.regs .r13)
  | .run_task => (s'.set .rdi (s'.regs .r12)).set .rsi (s'.regs .r13)
  | _ => s'

theorem Agree.to_call {f : Fn} (hf : f ≠ .trap_entry) (h1 : s.regs .r12 = l.privilege)
    (h2 : s.regs .r13 = l.stack_status) (hsp : s.regs .rsp = rsp) :
    Agree rsp (some (f, to_call f s)) (some { l with fn := f }) := by
  cases f with
  | trap_entry => exact absurd rfl hf
  | _ =>
    refine .call ⟨rfl, ?_, ?_⟩ ?_ ?_ <;>
      simp [X86.to_call, X86.args, Loop.args, h1, h2, hsp]

/-- The code after a call that has returned in `s`. The two functions with a trampoline need not have kept
    `r12` and `r13`. -/
theorem agree_after (hapx : apx = true ∨ l.fn ≠ .thread_entry)
    (h1 : l.fn.trampoline = none → s.regs .r12 = l.privilege)
    (h2 : l.fn.trampoline = none → s.regs .r13 = l.stack_status) :
    Agree (s.regs .rsp + 8) (exec (code apx) 16 s (code apx (.after l.fn))) (l.next (s.regs .rax)) := by
  obtain ⟨fn, privilege, stack_status⟩ := l
  let t := s.set .rsp (s.regs .rsp + 8)
  cases fn with
  | trap_entry =>
    have hcode : exec (code apx) 16 s (code apx (.after .trap_entry)) =
        if s.regs .rax = 1 then some (.kschedule, to_call .kschedule (t.flag true))
        else if s.regs .rax = 2 then some (.uschedule, to_call .uschedule ((t.flag false).flag true))
        else if s.regs .rax = 3 then
          some (.utok_schedule, to_call .utok_schedule (((t.flag false).flag false).flag true))
        else none := by
      simp [code, to_call, t, pop_2_arg, push_0_arg, push_1_arg]
    rw [hcode]
    exact .ite (.to_call (by decide) (h1 rfl) (h2 rfl) rfl) (.ite (.to_call (by decide) (h1 rfl) (h2 rfl) rfl)
      (.ite (.to_call (by decide) (h1 rfl) (h2 rfl) rfl) .stop))
  | thread_entry =>
    obtain rfl : apx = true := hapx.resolve_right fun h => h rfl
    let t' := (t.set .r12 (s.regs .rax &&& 1)).set .r13 (s.regs .rax >>> 1)
    have hcode : exec (code true) 16 s (code true (.after .thread_entry)) =
        if s.regs .rax &&& 1 = 0 then some (.kschedule, to_call .kschedule (t'.flag true))
        else if s.regs .rax &&& 1 = 1 then some (.uschedule, to_call .uschedule ((t'.flag false).flag true))
        else none := by
      simp [code, apx_form, to_call, t, t', pop_0_arg, push_0_arg, push_1_arg]
    rw [hcode]
    exact .ite (.to_call (l := ⟨.thread_entry, s.regs .rax &&& 1, s.regs .rax >>> 1⟩) (by decide) rfl rfl rfl)
      (.ite (.to_call (l := ⟨.thread_entry, s.regs .rax &&& 1, s.regs .rax >>> 1⟩) (by decide) rfl rfl rfl) .stop)
  | kschedule | utok_schedule =>
    have hcode : ∀ f, f = .kschedule ∨ f = .utok_schedule → exec (code apx) 16 s (code apx (.after f)) =
        if s.regs .rax = 0 then some (.run_task, to_call .run_task (t.flag true))
        else if s.regs .rax = 1 then some (.krun_utask, to_call .krun_utask ((t.flag false).flag true))
        else none := by
      rintro f (rfl | rfl) <;> simp [code, to_call, t, pop_0_arg, push_2_arg, push_1_arg]
    rw [hcode _ (by simp)]
    exact .ite (.to_call (by decide) (h1 rfl) (h2 rfl) rfl) (.ite (.to_call (by decide) (h1 rfl) (h2 rfl) rfl) .stop)
  | uschedule =>
    have hcode : exec (code apx) 16 s (code apx (.after .uschedule)) = some (.run_task, to_call .run_task t) := by
      simp [code, to_call, t, pop_1_arg, push_2_arg]
    rw [hcode]
    exact .to_call (by decide) (h1 rfl) (h2 rfl) rfl
  | run_task =>
    let t' := (t.set .r12 (s.regs .rax)).set .r13 0
    have hcode : exec (code apx) 16 s (code apx (.after .run_task)) =
        if s.regs .rax = 0 then some (.kschedule, to_call .kschedule (t'.flag true))
        else if s.regs .rax = 1 then some (.uschedule, to_call .uschedule ((t'.flag false).flag true))
        else none := by
      simp [code, to_call, t, t', pop_2_arg, push_0_arg, push_1_arg]
    rw [hcode]
    exact .ite (.to_call (l := ⟨.run_task, s.regs .rax, 0⟩) (by decide) rfl rfl rfl)
      (.ite (.to_call (l := ⟨.run_task, s.regs .rax, 0⟩) (by decide) rfl rfl rfl) .stop)
  | krun_utask => exact .stop
  | thread_entry_phase2 => exact .stop
  | run_coroutine => exact .stop
  | run_thread => exact .stop

/-- Without APX the code does not get past the return of `thread_entry`. -/
theorem after_thread_entry : exec (code false) 16 s (code false (.after .thread_entry)) = none := by
  simp [code, apx_form, pop_0_arg]

/-- The loop does not call `thread_entry`; only an entry does. -/
theorem next_ne_thread_entry {l l' : Loop 64} {v : BitVec 64} (h : l.next v = some l') : l'.fn ≠ .thread_entry := by
  obtain ⟨fn, privilege, status⟩ := l
  cases fn with
  | uschedule =>
    obtain rfl := Option.some.inj h
    simp
  | trap_entry | thread_entry | kschedule | utok_schedule | run_task =>
    simp only [Loop.next] at h
    split_ifs at h <;> obtain rfl := Option.some.inj h <;> simp
  | krun_utask | thread_entry_phase2 | run_coroutine | run_thread => cases h

/-! ### The end of a call -/

variable {layout : Layout 64} {r : Reply 64 Reg}

/-- The stack pointer at the next call after one that was made at `sp`. -/
def next_sp (sp : BitVec 64) (r : Reply 64 Reg) : BitVec 64 := r.new_sp.elim sp fun new_sp => (new_sp + 8) &&& -16

/-- The trampoline of a function ends in the function behind it, with the return address of the first one
    on the new stack. -/
theorem exec_trampoline (apx : Bool) (r : Reply 64 Reg) (s : State 64 Reg) (new_sp : BitVec 64) (t : Trampoline) :
    ∃ s', exec (code apx) 8 (leaving s new_sp r) (code apx (.jump_to_trampoline t)) = some (t.target, s') ∧
      s'.mem (s'.regs .rsp) = s.mem (s.regs .rsp) ∧ s'.regs .rsp = ((new_sp + 8) &&& -16) - 8 := by
  let top := ((new_sp + 8) &&& -16) - 8
  let s₁ := (leaving s new_sp r).set .rsi (s.mem (s.regs .rsp))
  refine ⟨(((((s₁.set .rdi (new_sp + 8)).set .rdi ((new_sp + 8) &&& -16)).set .rdi top).write top
    (s.mem (s.regs .rsp))).set .rsp top), ?_, by simp, by simp [top]⟩
  simp [code, leaving, s₁, top]

/-- A call comes back to the place after it, also if it has switched stacks on its way. -/
theorem reply_cases (apx : Bool) (layout : Layout 64) (f : Fn) (r : Reply 64 Reg) (s : State 64 Reg) :
    (r.new_sp ≠ none ∧ f.trampoline = none ∧ reply apx layout f s r = none) ∨
    ((r.new_sp = none ∨ f.trampoline ≠ none) ∧ ∃ s', reply apx layout f s r = some (.after f, s') ∧
      s'.regs .rax = r.value ∧ s'.regs .rsp = next_sp (s.regs .rsp) r ∧
      (r.new_sp = none → s'.regs .r12 = s.regs .r12 ∧ s'.regs .r13 = s.regs .r13)) := by
  have haddr : (pushed layout f s).mem ((pushed layout f s).regs .rsp) = layout.addr (.after f) := by simp [pushed]
  cases hsp : r.new_sp with
  | none =>
    refine Or.inr ⟨Or.inl rfl, returned (pushed layout f s) r, ?_, rfl, ?_, fun _ => ⟨rfl, rfl⟩⟩
    · simp only [reply, hsp, haddr, layout.label_at_addr, Option.map_some]
    · simp [returned, pushed, next_sp, hsp]
  | some new_sp =>
    cases ht : f.trampoline with
    | none => exact Or.inl ⟨by simp, rfl, by simp only [reply, hsp, ht]⟩
    | some t =>
      obtain ⟨s', hexec, haddr', hsp'⟩ := exec_trampoline apx r (pushed layout f s) new_sp t
      refine Or.inr ⟨Or.inr (by simp), returned s' r, ?_, rfl, ?_, by simp⟩
      · simp only [reply, hsp, ht, hexec, Option.bind_some, haddr', haddr, layout.label_at_addr, Option.map_some]
      · simp [returned, hsp', next_sp, hsp]

/-- A step of the code is one of the loop. -/
theorem step_agree (layout : Layout 64) {p : Fn × State 64 Reg} {l : Loop 64} (h : Rep p l)
    (hapx : apx = true ∨ l.fn ≠ .thread_entry) (r : Reply 64 Reg) :
    step apx layout p r = none ∧ l.step r = none ∨
    ∃ c p' l', step apx layout p r = some (c, p') ∧ l.step r = some (c, l') ∧ Rep p' l' ∧ l'.fn ≠ .thread_entry ∧
      p'.2.regs .rsp = next_sp (p.2.regs .rsp) r := by
  rcases reply_cases apx layout p.1 r p.2 with ⟨hsp, ht, hreply⟩ | ⟨hmay, s', hreply, hvalue, hsp, hkept⟩
  · refine Or.inl ⟨by simp [step, hreply], ?_⟩
    rw [Loop.step, if_pos ⟨hsp, h.fn ▸ ht⟩]
  · have hplain : l.fn.trampoline = none → r.new_sp = none := by
      intro ht
      exact hmay.resolve_right (by simp [h.fn, ht])
    have hstep : l.step r = (l.next r.value).map fun l' => ((l'.fn, l'.args), l') := by
      rw [Loop.step, if_neg fun hno => hno.1 (hplain hno.2)]
    have hagree := agree_after (l := l) (s := s') hapx (fun ht => (hkept (hplain ht)).1.trans h.privilege)
      fun ht => (hkept (hplain ht)).2.trans h.stack_status
    rw [hvalue, hsp, ← h.fn] at hagree
    rw [step, hreply, Option.bind_some, hstep, run_code]
    have hne : ∀ l', l.next r.value = some l' → l'.fn ≠ .thread_entry := fun l' => next_ne_thread_entry
    generalize exec (code apx) 16 s' (code apx (.after p.1)) = o at hagree ⊢
    generalize l.next r.value = m at hagree hne ⊢
    cases hagree with
    | stop => exact Or.inl ⟨rfl, rfl⟩
    | @call q l' hrep ha hrsp =>
      refine Or.inr ⟨_, q, l', by rw [Option.map_some, ha, hrep.fn], rfl, hrep, hne l' rfl, ?_⟩
      rw [hrsp, add_sub_cancel_right]

/-- Without APX the call of `thread_entry` is the last one. -/
theorem step_thread_entry (layout : Layout 64) {p : Fn × State 64 Reg} (hp : p.1 = .thread_entry)
    (r : Reply 64 Reg) : step false layout p r = none := by
  rcases reply_cases false layout p.1 r p.2 with ⟨-, -, hreply⟩ | ⟨-, s', hreply, -⟩
  · simp [step, hreply]
  · rw [step, hreply, Option.bind_some, run_code, hp, after_thread_entry, Option.map_none]

/-! ### The stack -/

/-- A function is entered as the calling convention wants it: the stack is aligned below the return address,
    and that is the place after the call of `f`. -/
structure Entered (layout : Layout 64) (f : Fn) (s : State 64 Reg) : Prop where
  aligned : (s.regs .rsp).toNat % 16 = 8
  address : layout.label_at (s.mem (s.regs .rsp)) = some (.after f)

theorem and_neg_16_mod (x : BitVec 64) : (x &&& -16).toNat % 16 = 0 := by
  have h : (x &&& (-16 : BitVec 64)).toNat % 2 ^ 4 = 0 := by
    rw [BitVec.toNat_and, Nat.and_mod_two_pow]
    exact Nat.and_zero _
  exact h

theorem sub_8_mod {x : BitVec 64} (h : x.toNat % 16 = 0) : (x - 8).toNat % 16 = 8 := by
  rw [BitVec.toNat_sub]
  have h8 : (8 : BitVec 64).toNat = 8 := rfl
  have hx := x.isLt
  omega

theorem next_sp_mod {sp : BitVec 64} (h : sp.toNat % 16 = 0) (r : Reply 64 Reg) : (next_sp sp r).toNat % 16 = 0 := by
  rw [next_sp]
  cases r.new_sp with
  | none => exact h
  | some new_sp => exact and_neg_16_mod _

theorem pushed_entered {p : Fn × State 64 Reg} (h : (p.2.regs .rsp).toNat % 16 = 0) :
    Entered layout p.1 (pushed layout p.1 p.2) where
  aligned := by simpa [pushed] using sub_8_mod h
  address := by simp [pushed, layout.label_at_addr]

/-- The function behind a trampoline is entered on the new stack like a function that is called. -/
theorem trampoline_entered {f : Fn} {t : Trampoline} (s : State 64 Reg) (new_sp : BitVec 64) (r : Reply 64 Reg) :
    ∃ s', exec (code apx) 8 (leaving (pushed layout f s) new_sp r) (code apx (.jump_to_trampoline t)) =
        some (t.target, s') ∧
      Entered layout f s' := by
  obtain ⟨s', hexec, haddr, hsp⟩ := exec_trampoline apx r (pushed layout f s) new_sp t
  refine ⟨s', hexec, ?_, ?_⟩
  · rw [hsp]
    exact sub_8_mod (and_neg_16_mod _)
  · rw [haddr]
    simp [pushed, layout.label_at_addr]

/-- The code at an entry calls the function of that entry. -/
theorem run_code_entry (apx : Bool) (e : Entry) (s : State 64 Reg) :
    ∃ p, run_code apx e.label s = some (((start e s).1.fn, (start e s).2), p) ∧ Rep p (start e s).1 ∧
      p.2.regs .rsp = s.regs .rsp - 8 := by
  cases e with
  | raw_trap_entry =>
    let s' := ((s.set .r12 (s.regs .rbx)).set .r13 0).set .rsp (s.regs .rsp - 8)
    exact ⟨(.trap_entry, (s'.set .rdi (s.regs .rax)).set .rsi (s.regs .rbx)), rfl, ⟨rfl, rfl, rfl⟩, rfl⟩
  | raw_thread_entry => exact ⟨(.thread_entry, to_call .thread_entry s), rfl, ⟨rfl, rfl, rfl⟩, rfl⟩
  | raw_kschedule => exact ⟨(.kschedule, to_call .kschedule s), rfl, ⟨rfl, rfl, rfl⟩, rfl⟩
  | raw_run_task => exact ⟨(.run_task, to_call .run_task s), rfl, ⟨rfl, rfl, rfl⟩, rfl⟩

/-- The calls are those of the loop, on a CPU that has the instructions on the way. -/
theorem calls_loop (layout : Layout 64) (e : Entry) (hapx : apx = true ∨ e ≠ .raw_thread_entry) (s : State 64 Reg)
    (rs : List (Reply 64 Reg)) : calls apx layout e s rs = (start e s).1.calls (start e s).2 rs := by
  obtain ⟨p, hrun, hrep, -⟩ := run_code_entry apx e s
  have hstep : ∀ (p : Fn × State 64 Reg) (l : Loop 64) (r : Reply 64 Reg),
      Rep p l ∧ (apx = true ∨ l.fn ≠ .thread_entry) → step apx layout p r = none ∧ l.step r = none ∨
      ∃ c p' l', step apx layout p r = some (c, p') ∧ l.step r = some (c, l') ∧
        Rep p' l' ∧ (apx = true ∨ l'.fn ≠ .thread_entry) := by
    rintro p l r ⟨h, hne⟩
    rcases step_agree layout h hne r with hnone | ⟨c, p', l', hp, hl, h', hne', -⟩
    · exact Or.inl hnone
    · exact Or.inr ⟨c, p', l', hp, hl, h', Or.inr hne'⟩
  have hfirst : apx = true ∨ (start e s).1.fn ≠ .thread_entry := by
    refine hapx.imp_right fun he => ?_
    cases e <;> simp [start] at he ⊢
  have htrace := Refinement.trace_congr (R := fun p l => Rep p l ∧ (apx = true ∨ l.fn ≠ .thread_entry))
    hstep rs ⟨hrep, hfirst⟩
  have hcons := congrArg (Option.map (List.cons ((start e s).1.fn, (start e s).2))) htrace
  rw [calls, hrun, Option.bind_some, Loop.calls]
  simpa only [Option.map_map, Function.comp_def] using hcons

/-- Entered at `raw_thread_entry` without APX, the code makes one call. -/
theorem calls_without_apx (layout : Layout 64) (s : State 64 Reg) (rs : List (Reply 64 Reg)) :
    calls false layout .raw_thread_entry s rs = if rs = [] then some [(.thread_entry, [])] else none := by
  obtain ⟨p, hrun, hrep, -⟩ := run_code_entry false .raw_thread_entry s
  rw [calls, hrun, Option.bind_some]
  cases rs with
  | nil => rfl
  | cons r rs => simp [Refinement.trace, step_thread_entry layout hrep.fn r]

/-- At every call the stack is aligned. -/
theorem calls_aligned {e : Entry} {s : State 64 Reg} {rs : List (Reply 64 Reg)} {c : Call 64}
    {p p' : Fn × State 64 Reg} {cs : List (Call 64)} (hentry : (s.regs .rsp).toNat % 16 = 8)
    (hp : run_code apx e.label s = some (c, p)) (h : Refinement.trace (step apx layout) p rs = some (cs, p')) :
    (p'.2.regs .rsp).toNat % 16 = 0 := by
  obtain ⟨q, hrun, hrep, hsp⟩ := run_code_entry apx e s
  obtain rfl : q = p := (Prod.mk.inj (Option.some.inj (hrun.symm.trans hp))).2
  have hinv : (∃ l, Rep p' l) ∧ (p'.2.regs .rsp).toNat % 16 = 0 := by
    refine Refinement.trace_invariant
      (fun _ (p : Fn × State 64 Reg) => (∃ l, Rep p l) ∧ (p.2.regs .rsp).toNat % 16 = 0)
      (fun as p r c p' hI hs => ?_) ⟨⟨_, hrep⟩, ?_⟩ h
    · obtain ⟨⟨l, hl⟩, hmod⟩ := hI
      have hapx : apx = true ∨ l.fn ≠ .thread_entry := by
        rw [← hl.fn, ← Bool.not_eq_false, ← not_and_or]
        rintro ⟨rfl, hfn⟩
        rw [step_thread_entry layout hfn r] at hs
        cases hs
      rcases step_agree layout hl hapx r with ⟨hnone, -⟩ | ⟨_, _, l', hp, -, h', -, hsp'⟩
      · rw [hnone] at hs
        cases hs
      · obtain ⟨-, rfl⟩ := Prod.mk.inj (Option.some.inj (hp.symm.trans hs))
        exact ⟨⟨l', h'⟩, hsp' ▸ next_sp_mod hmod r⟩
    · rw [hsp, BitVec.toNat_sub]
      have h8 : (8 : BitVec 64).toNat = 8 := rfl
      omega
  exact hinv.2

/-- Entered by a `call`, the code makes the calls of the loop, with the same arguments, as long as the functions
    return what the loop expects, and it enters every function as the calling convention wants it, on the
    stack it was entered on or on any that a function switches to. Without APX this ends where `thread_entry`
    returns: no call follows. -/
theorem x86_calls (apx : Bool) (layout : Layout 64) (e : Entry) (s : State 64 Reg) (rs : List (Reply 64 Reg))
    (hentry : (s.regs .rsp).toNat % 16 = 8) :
    (apx = true ∨ e ≠ .raw_thread_entry → calls apx layout e s rs = (start e s).1.calls (start e s).2 rs) ∧
    (apx = false → e = .raw_thread_entry →
      calls apx layout e s rs = if rs = [] then some [(.thread_entry, [])] else none) ∧
    ∀ c p cs p', run_code apx e.label s = some (c, p) → Refinement.trace (step apx layout) p rs = some (cs, p') →
      Entered layout p'.1 (pushed layout p'.1 p'.2) ∧
      ∀ t, p'.1.trampoline = some t → ∀ new_sp r, ∃ s', exec (code apx) 8
          (leaving (pushed layout p'.1 p'.2) new_sp r) (code apx (.jump_to_trampoline t)) = some (t.target, s') ∧
        Entered layout p'.1 s' := by
  refine ⟨fun hapx => calls_loop layout e hapx s rs, ?_, fun c p cs p' hp htrace => ?_⟩
  · rintro rfl rfl
    exact calls_without_apx layout s rs
  · exact ⟨pushed_entered (calls_aligned hentry hp htrace), fun t _ new_sp r => trampoline_entered _ new_sp r⟩

/-- A synchronous trap in the kernel; the coroutine chosen runs on another stack. -/
def trapped : State 64 Reg := ⟨fun x => if x = .rsp then 0x2ff8 else 0, fun _ => 0, false⟩

def trapped_replies : List (Reply 64 Reg) :=
  [⟨1, none, fun _ => 7, fun _ => 7⟩, ⟨0, none, fun _ => 7, fun _ => 7⟩, ⟨0, some 0x5000, fun _ => 7, fun _ => 7⟩]

theorem x86_calls_trapped : calls false .packed .raw_trap_entry trapped trapped_replies =
    some [(.trap_entry, [0, 0]), (.kschedule, []), (.run_task, [0, 0]), (.kschedule, [])] := by
  rw [(x86_calls false .packed .raw_trap_entry trapped trapped_replies (by decide)).1 (Or.inr (by decide))]
  decide

end X86

end ScheduleLoop

end Vsched2
