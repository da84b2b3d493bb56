import Vsched2.ScheduleLoop

/-! The schedule loop of `arch/riscv.rs`, and that it is the one meant. -/

namespace Vsched2

namespace ScheduleLoop

namespace Riscv

open Assembly

inductive Reg where | a0 | a1 | s1 | s2 | ra | sp | fp
  deriving DecidableEq, Repr

variable {w : ℕ}

/-- The bytes of a word. -/
def XLEN (w : ℕ) : BitVec w := BitVec.ofNat w (w / 8)

/-- The code. A word of data stands where the code is not to come. -/
def code : Label → List (Instr w Reg Label Fn)
  | .raw_trap_entry => [.mov .s1 .a1, .call .trap_entry]
  | .after .trap_entry =>
    [.li .a1 1, .beq .a0 .a1 .raw_kschedule, .li .a1 2, .beq .a0 .a1 .raw_uschedule,
      .li .a1 3, .beq .a0 .a1 .raw_utok_schedule, .word 0]
  | .raw_thread_entry => [.call .thread_entry]
  | .after .thread_entry =>
    [.andi .s1 .a0 1, .srli .s2 .a0 1, .li .a1 0, .beq .s1 .a1 .raw_kschedule,
      .li .a1 1, .beq .s1 .a1 .raw_uschedule, .word 0]
  | .raw_kschedule => [.call .kschedule]
  | .after .kschedule => [.li .a1 0, .beq .a0 .a1 .raw_run_task, .li .a1 1, .beq .a0 .a1 .raw_krun_utask, .word 0]
  | .raw_uschedule => [.mov .a0 .s2, .call .uschedule]
  | .after .uschedule => [.jmp .raw_run_task, .word 0]
  | .raw_utok_schedule => [.call .utok_schedule]
  | .after .utok_schedule => [.li .a1 0, .beq .a0 .a1 .raw_run_task, .li .a1 1, .beq .a0 .a1 .raw_krun_utask, .word 0]
  | .raw_run_task => [.mov .a0 .s1, .mov .a1 .s2, .call .run_task]
  | .after .run_task =>
    [.mov .s1 .a0, .li .s2 0, .li .a1 0, .beq .s1 .a1 .raw_kschedule, .li .a1 1, .beq .s1 .a1 .raw_uschedule, .word 0]
  | .raw_krun_utask => [.mov .a0 .s2, .call .krun_utask]
  | .after .krun_utask => [.word 0]
  | .jump_to_trampoline t => [.load .ra .fp (-XLEN w), .jmp (.trampoline t)]
  | .trampoline t => [.mov .sp .a0, .tail t.target]
  | .after _ => []

/-- The arguments of a call, in registers. -/
def args (f : Fn) (s : State w Reg) : List (BitVec w) :=
  match f with
  | .trap_entry | .run_task => [s.regs .a0, s.regs .a1]
  | .uschedule | .krun_utask => [s.regs .a0]
  | _ => []

/-- A function entered in `s` returns by the calling convention: it keeps `s1`, `s2`, `sp` and `fp`. -/
def returned (s : State w Reg) (r : Reply w Reg) : State w Reg where
  regs
    | .s1 => s.regs .s1
    | .s2 => s.regs .s2
    | .sp => s.regs .sp
    | .fp => s.regs .fp
    | .a0 => r.value
    | .a1 => r.regs .a1
    | .ra => r.regs .ra
  mem := r.mem
  zf := s.zf

/-- A function before it jumps to its trampoline: its frame begins at the `sp` it was entered with, where
    it has saved `ra`. -/
def leaving (s : State w Reg) (new_sp : BitVec w) (r : Reply w Reg) : State w Reg where
  regs := fun x => if x = .a0 then new_sp else if x = .fp then s.regs .sp else r.regs x
  mem := Function.update r.mem (s.regs .sp - XLEN w) (s.regs .ra)
  zf := s.zf

/-- The call of `f` in `s` ends: the state, and the label `ra` names. -/
def reply (layout : Layout w) (f : Fn) (s : State w Reg) (r : Reply w Reg) : Option (Label × State w Reg) :=
  let s' := s.set .ra (layout.addr (.after f))
  match r.new_sp, f.trampoline with
  | none, _ => (layout.label_at (s'.regs .ra)).map fun l => (l, returned s' r)
  | some new_sp, some t =>
    (exec code 8 (leaving s' new_sp r) (code (.jump_to_trampoline t))).bind fun e =>
      (layout.label_at (e.2.regs .ra)).map fun l => (l, returned e.2 r)
  | some _, none => none

/-- The code runs up to the next call. -/
def run_code (l : Label) (s : State w Reg) : Option (Call w × (Fn × State w Reg)) :=
  (exec code 16 s (code l)).map fun e => ((e.1, args e.1 e.2), e)

def step (layout : Layout w) (p : Fn × State w Reg) (r : Reply w Reg) : Option (Call w × (Fn × State w Reg)) :=
  (reply layout p.1 p.2 r).bind fun e => run_code e.1 e.2

/-- The calls that the code makes when it is entered. -/
def calls (layout : Layout w) (e : Entry) (s : State w Reg) (rs : List (Reply w Reg)) : Option (List (Call w)) :=
  (run_code e.label s).bind fun c => (Refinement.trace (step layout) c.2 rs).map fun r => c.1 :: r.1

/-- The loop that an entry starts. `raw_trap_entry` leaves `s2` as it is. -/
def start (e : Entry) (s : State w Reg) : Loop w × List (BitVec w) :=
  match e with
  | .raw_trap_entry => (⟨.trap_entry, s.regs .a1, s.regs .s2⟩, [s.regs .a0, s.regs .a1])
  | .raw_thread_entry => (⟨.thread_entry, s.regs .s1, s.regs .s2⟩, [])
  | .raw_kschedule => (⟨.kschedule, s.regs .s1, s.regs .s2⟩, [])
  | .raw_run_task => (⟨.run_task, s.regs .s1, s.regs .s2⟩, [s.regs .s1, s.regs .s2])

/-! ### The code between two calls -/

/-- The code stands in the call that the loop stands in, with the values of the loop in `s1` and `s2`. -/
structure Rep (p : Fn × State w Reg) (l : Loop w) : Prop where
  fn : p.1 = l.fn
  privilege : p.2.regs .s1 = l.privilege
  stack_status : p.2.regs .s2 = l.stack_status

/-- The code comes to a call if and only if the loop does, and to the same with the same arguments. -/
inductive Agree : Option (Fn × State w Reg) → Option (Loop w) → Prop where
  | stop : Agree none none
  | call {p l} (h : Rep p l) (ha : args p.1 p.2 = l.args) : Agree (some p) (some l)

variable {s : State w Reg} {l : Loop w}

theorem Agree.ite {c : Prop} [Decidable c] {o o' : Option (Fn × State w Reg)} {m m' : Option (Loop w)}
    (h : Agree o m) (h' : Agree o' m') : Agree (if c then o else o') (if c then m else m') := by
  split
  · exact h
  · exact h'

/-- The two arguments of `run_task` are the two values the loop keeps. -/
def to_run_task (s : State w Reg) : State w Reg := (s.set .a0 (s.regs .s1)).set .a1 (s.regs .s2)

/-- The argument of `uschedule` and of `krun_utask`. -/
def with_status (s : State w Reg) : State w Reg := s.set .a0 (s.regs .s2)

theorem Agree.plain {f : Fn} (hf : f = .kschedule ∨ f = .utok_schedule) (h1 : s.regs .s1 = l.privilege)
    (h2 : s.regs .s2 = l.stack_status) : Agree (some (f, s)) (some { l with fn := f }) := by
  refine .call ⟨rfl, h1, h2⟩ ?_
  rcases hf with rfl | rfl <;> rfl

theorem Agree.with_status {f : Fn} (hf : f = .uschedule ∨ f = .krun_utask) (h1 : s.regs .s1 = l.privilege)
    (h2 : s.regs .s2 = l.stack_status) : Agree (some (f, with_status s)) (some { l with fn := f }) := by
  refine .call ⟨rfl, h1, h2⟩ ?_
  rcases hf with rfl | rfl <;> simp [args, Riscv.with_status, Loop.args, h2]

theorem Agree.run_task (h1 : s.regs .s1 = l.privilege) (h2 : s.regs .s2 = l.stack_status) :
    Agree (some (.run_task, to_run_task s)) (some { l with fn := .run_task }) :=
  .call ⟨rfl, h1, h2⟩ (by simp [args, to_run_task, Loop.args, h1, h2])

/-- The code after a call that has returned in `s`. The two functions with a trampoline need not have kept
    `s1` and `s2`. -/
theorem agree_after (hs1 : l.fn.trampoline = none → s.regs .s1 = l.privilege)
    (hs2 : l.fn.trampoline = none → s.regs .s2 = l.stack_status) :
    Agree (exec code 16 s (code (.after l.fn))) (l.next (s.regs .a0)) := by
  obtain ⟨fn, privilege, stack_status⟩ := l
  cases fn with
  | trap_entry =>
    have hcode : exec code 16 s (code (.after .trap_entry)) =
        if s.regs .a0 = 1 then some (.kschedule, s.set .a1 1)
        else if s.regs .a0 = 2 then some (.uschedule, with_status ((s.set .a1 1).set .a1 2))
        else if s.regs .a0 = 3 then some (.utok_schedule, ((s.set .a1 1).set .a1 2).set .a1 3)
        else none := by
      simp [code, with_status]
    rw [hcode]
    exact .ite (.plain (Or.inl rfl) (hs1 rfl) (hs2 rfl)) (.ite (.with_status (Or.inl rfl) (hs1 rfl) (hs2 rfl))
      (.ite (.plain (Or.inr rfl) (hs1 rfl) (hs2 rfl)) .stop))
  | thread_entry =>
    let t := (s.set .s1 (s.regs .a0 &&& 1)).set .s2 (s.regs .a0 >>> 1)
    have hcode : exec code 16 s (code (.after .thread_entry)) =
        if s.regs .a0 &&& 1 = 0 then some (.kschedule, t.set .a1 0)
        else if s.regs .a0 &&& 1 = 1 then some (.uschedule, with_status ((t.set .a1 0).set .a1 1))
        else none := by
      simp [code, with_status, t]
    rw [hcode]
    exact .ite (.plain (l := ⟨.thread_entry, s.regs .a0 &&& 1, s.regs .a0 >>> 1⟩) (Or.inl rfl) rfl rfl)
      (.ite (.with_status (l := ⟨.thread_entry, s.regs .a0 &&& 1, s.regs .a0 >>> 1⟩) (Or.inl rfl) rfl rfl) .stop)
  | kschedule | utok_schedule =>
    have hcode : ∀ f, f = .kschedule ∨ f = .utok_schedule → exec code 16 s (code (.after f)) =
        if s.regs .a0 = 0 then some (.run_task, to_run_task (s.set .a1 0))
        else if s.regs .a0 = 1 then some (.krun_utask, with_status ((s.set .a1 0).set .a1 1))
        else none := by
      rintro f (rfl | rfl) <;> simp [code, with_status, to_run_task]
    rw [hcode _ (by simp)]
    exact .ite (.run_task (hs1 rfl) (hs2 rfl)) (.ite (.with_status (Or.inr rfl) (hs1 rfl) (hs2 rfl)) .stop)
  | uschedule =>
    have hcode : exec code 16 s (code (.after .uschedule)) = some (.run_task, to_run_task s) := by
      simp [code, to_run_task]
    rw [hcode]
    exact .run_task (hs1 rfl) (hs2 rfl)
  | run_task =>
    let t := (s.set .s1 (s.regs .a0)).set .s2 0
    have hcode : exec code 16 s (code (.after .run_task)) =
        if s.regs .a0 = 0 then some (.kschedule, t.set .a1 0)
        else if s.regs .a0 = 1 then some (.uschedule, with_status ((t.set .a1 0).set .a1 1))
        else none := by
      simp [code, with_status, t]
    rw [hcode]
    exact .ite (.plain (l := ⟨.run_task, s.regs .a0, 0⟩) (Or.inl rfl) rfl rfl)
      (.ite (.with_status (l := ⟨.run_task, s.regs .a0, 0⟩) (Or.inl rfl) rfl rfl) .stop)
  | krun_utask => exact .stop
  | thread_entry_phase2 => exact .stop
  | run_coroutine => exact .stop
  | run_thread => exact .stop

/-! ### The end of a call -/

variable {layout : Layout w} {r : Reply w Reg}

/-- The trampoline of `f` ends in the function behind it, on the new stack, with the `ra` of `f`. -/
theorem exec_trampoline (r : Reply w Reg) (s : State w Reg) (new_sp : BitVec w) (t : Trampoline) :
    ∃ s', exec code 8 (leaving s new_sp r) (code (.jump_to_trampoline t)) = some (t.target, s') ∧
      s'.regs .ra = s.regs .ra ∧ s'.regs .sp = new_sp := by
  refine ⟨((leaving s new_sp r).set .ra (s.regs .ra)).set .sp new_sp, ?_, by simp, by simp⟩
  simp [code, leaving, sub_eq_add_neg]

/-- A call comes back to the place after it, also if it has switched stacks on its way; then it is on the
    new stack, and otherwise `sp`, `s1` and `s2` are as before. -/
theorem reply_cases (layout : Layout w) (f : Fn) (r : Reply w Reg) (s : State w Reg) :
    (r.new_sp ≠ none ∧ f.trampoline = none ∧ reply layout f s r = none) ∨
    ((r.new_sp = none ∨ f.trampoline ≠ none) ∧ ∃ s', reply layout f s r = some (.after f, s') ∧
      s'.regs .a0 = r.value ∧ s'.regs .sp = r.new_sp.getD (s.regs .sp) ∧
      (r.new_sp = none → s'.regs .s1 = s.regs .s1 ∧ s'.regs .s2 = s.regs .s2)) := by
  have hra : (s.set .ra (layout.addr (.after f))).regs .ra = layout.addr (.after f) := by simp
  cases hsp : r.new_sp with
  | none =>
    refine Or.inr ⟨Or.inl rfl, returned (s.set .ra (layout.addr (.after f))) r, ?_, rfl, rfl, fun _ => ⟨rfl, rfl⟩⟩
    simp only [reply, hsp, hra, layout.label_at_addr, Option.map_some]
  | some new_sp =>
    cases ht : f.trampoline with
    | none => exact Or.inl ⟨by simp, rfl, by simp only [reply, hsp, ht]⟩
    | some t =>
      obtain ⟨s', hexec, hra', hsp'⟩ := exec_trampoline r (s.set .ra (layout.addr (.after f))) new_sp t
      refine Or.inr ⟨Or.inr (by simp), returned s' r, ?_, rfl, hsp', by simp⟩
      simp only [reply, hsp, ht, hexec, Option.bind_some, hra', hra, layout.label_at_addr, Option.map_some]

/-- A step of the code is one of the loop. -/
theorem step_agree (layout : Layout w) {p : Fn × State w Reg} {l : Loop w} (h : Rep p l) (r : Reply w Reg) :
    step layout p r = none ∧ l.step r = none ∨
    ∃ c p' l', step layout p r = some (c, p') ∧ l.step r = some (c, l') ∧ Rep p' l' := by
  rcases reply_cases layout p.1 r p.2 with
    ⟨hsp, ht, hreply⟩ | ⟨hmay, s', hreply, hvalue, -, hkept⟩
  · refine Or.inl ⟨by simp [step, hreply], ?_⟩
    rw [Loop.step, if_pos ⟨hsp, h.fn ▸ ht⟩]
  · have hplain : l.fn.trampoline = none → r.new_sp = none := by
      intro ht
      exact hmay.resolve_right (by simp [h.fn, ht])
    have hstep : l.step r = (l.next r.value).map fun l' => ((l'.fn, l'.args), l') := by
      rw [Loop.step, if_neg fun hno => hno.1 (hplain hno.2)]
    have hagree := agree_after (l := l) (s := s') (fun ht => (hkept (hplain ht)).1.trans h.privilege)
      fun ht => (hkept (hplain ht)).2.trans h.stack_status
    rw [hvalue, ← h.fn] at hagree
    rw [step, hreply, Option.bind_some, hstep, run_code]
    generalize exec code 16 s' (code (.after p.1)) = o at hagree ⊢
    generalize l.next r.value = m at hagree ⊢
    cases hagree with
    | stop => exact Or.inl ⟨rfl, rfl⟩
    | @call q l' hrep ha => exact Or.inr ⟨_, q, l', by rw [Option.map_some, ha, hrep.fn], rfl, hrep⟩

/-- The code at an entry calls the function of that entry. -/
theorem run_code_entry (e : Entry) (s : State w Reg) :
    ∃ p, run_code e.label s = some (((start e s).1.fn, (start e s).2), p) ∧ Rep p (start e s).1 ∧
      p.2.regs .sp = s.regs .sp := by
  cases e with
  | raw_trap_entry => exact ⟨(.trap_entry, s.set .s1 (s.regs .a1)), rfl, ⟨rfl, rfl, rfl⟩, rfl⟩
  | raw_thread_entry => exact ⟨(.thread_entry, s), rfl, ⟨rfl, rfl, rfl⟩, rfl⟩
  | raw_kschedule => exact ⟨(.kschedule, s), rfl, ⟨rfl, rfl, rfl⟩, rfl⟩
  | raw_run_task => exact ⟨(.run_task, to_run_task s), rfl, ⟨rfl, rfl, rfl⟩, rfl⟩

/-- Outside the trampolines the code leaves `sp` alone. -/
theorem code_keeps_sp (l : Label) (hl : l.InLoop) :
    ∀ i ∈ (code l : List (Instr w Reg Label Fn)), i.Keeps Label.InLoop .sp := by
  cases l with
  | jump_to_trampoline t => cases hl
  | trampoline t => cases hl
  | after f => cases f <;> simp [code, Instr.Keeps, Label.InLoop]
  | _ => simp [code, Instr.Keeps, Label.InLoop]

theorem run_code_sp {l : Label} {c : Call w} {p : Fn × State w Reg} (hl : l.InLoop) (h : run_code l s = some (c, p)) :
    p.2.regs .sp = s.regs .sp := by
  obtain ⟨e, he, heq⟩ := Option.map_eq_some_iff.mp h
  obtain ⟨-, rfl⟩ := Prod.mk.inj heq
  exact exec_frame code_keeps_sp 16 (code_keeps_sp l hl) he

theorem step_sp {p p' : Fn × State w Reg} {c : Call w} (h : step layout p r = some (c, p')) :
    p'.2.regs .sp = r.new_sp.getD (p.2.regs .sp) := by
  rcases reply_cases layout p.1 r p.2 with
    ⟨-, -, hreply⟩ | ⟨-, s', hreply, -, hsp, -⟩
  · simp [step, hreply] at h
  · rw [step, hreply, Option.bind_some] at h
    have hloop : (Label.after p.1).InLoop := trivial
    rw [run_code_sp hloop h, hsp]

/-- The calls are those of the loop. -/
theorem calls_loop (layout : Layout w) (e : Entry) (s : State w Reg) (rs : List (Reply w Reg)) :
    calls layout e s rs = (start e s).1.calls (start e s).2 rs := by
  obtain ⟨p, hrun, hrep, -⟩ := run_code_entry e s
  have htrace := Refinement.trace_congr (R := Rep) (fun _ _ r h => step_agree layout h r) rs hrep
  have hcons := congrArg (Option.map (List.cons ((start e s).1.fn, (start e s).2))) htrace
  rw [calls, hrun, Option.bind_some, Loop.calls]
  simpa only [Option.map_map, Function.comp_def] using hcons

/-- The code makes the calls of the loop, with the same arguments, whatever the functions return, and comes
    to the word of data just where the loop expects no return. Its stack is the one it was
    entered on, or the one last switched to. -/
theorem riscv_calls (layout : Layout w) (e : Entry) (s : State w Reg) (rs : List (Reply w Reg)) :
    calls layout e s rs = (start e s).1.calls (start e s).2 rs ∧
    ∀ c p cs p', run_code e.label s = some (c, p) → Refinement.trace (step layout) p rs = some (cs, p') →
      p'.2.regs .sp = last_sp (s.regs .sp) rs := by
  refine ⟨calls_loop layout e s rs, fun c q cs p' hq htrace => ?_⟩
  obtain ⟨p, hrun, -, hsp⟩ := run_code_entry e s
  obtain rfl : p = q := (Prod.mk.inj (Option.some.inj (hrun.symm.trans hq))).2
  refine Refinement.trace_invariant (fun rs (p : Fn × State w Reg) => p.2.regs .sp = last_sp (s.regs .sp) rs)
    (fun as p a b p' hI hs => ?_) hsp htrace
  rw [step_sp hs, hI, last_sp, last_sp, List.foldl_append]
  rfl

end Riscv

end ScheduleLoop

end Vsched2
