import Vsched2.Lib.Assembly
import Vsched2.Lib.Refinement

/-! The schedule loop that `arch/riscv.rs` and `arch/x86.rs` have in assembly, as it is meant.

    The loop calls the functions of `main_loop.rs` one after the other, and goes on by what they return.
    It keeps two values between the calls, the privilege and the status of the stack it is on. -/

namespace Vsched2

namespace ScheduleLoop

/-- The functions the loop calls, and those that are entered through a trampoline. -/
inductive Fn where
  | trap_entry | thread_entry | kschedule | uschedule | utok_schedule | run_task | krun_utask
  | thread_entry_phase2 | run_coroutine | run_thread
  deriving DecidableEq, Repr

/-- The trampolines of `stack/trampoline.rs`. -/
inductive Trampoline where | coroutine_trampoline | thread_trampoline | tep2_trampoline
  deriving DecidableEq, Repr

/-- The function behind a trampoline. -/
def Trampoline.target : Trampoline → Fn
  | .coroutine_trampoline => .run_coroutine
  | .thread_trampoline => .run_thread
  | .tep2_trampoline => .thread_entry_phase2

/-- The trampoline by which a function may leave, instead of returning itself. -/
def Fn.trampoline : Fn → Option Trampoline
  | .thread_entry => some .tep2_trampoline
  | .run_task => some .coroutine_trampoline
  | _ => none

/-- The labels of the code: those of the source, the place after each call, and the two pieces of code
    of `jump_to_trampoline!` and `switch_sp_tratrampoline!`. -/
inductive Label where
  | raw_trap_entry | raw_thread_entry | raw_kschedule | raw_uschedule | raw_utok_schedule | raw_run_task
  | raw_krun_utask
  | after (f : Fn) | jump_to_trampoline (t : Trampoline) | trampoline (t : Trampoline)
  deriving DecidableEq, Repr

/-- The code of the loop itself, without the trampolines. -/
def Label.InLoop : Label → Prop
  | .jump_to_trampoline _ | .trampoline _ => False
  | _ => True

/-- Where the code lies in memory. -/
structure Layout (w : ℕ) where
  addr : Label → BitVec w
  label_at : BitVec w → Option Label
  label_at_addr : ∀ l, label_at (addr l) = some l

/-- The labels one after the other. -/
def labels : List Label :=
  [.raw_trap_entry, .raw_thread_entry, .raw_kschedule, .raw_uschedule, .raw_utok_schedule, .raw_run_task,
    .raw_krun_utask, .after .trap_entry, .after .thread_entry, .after .kschedule, .after .uschedule,
    .after .utok_schedule, .after .run_task, .after .krun_utask, .after .thread_entry_phase2,
    .after .run_coroutine, .after .run_thread, .jump_to_trampoline .coroutine_trampoline,
    .jump_to_trampoline .thread_trampoline, .jump_to_trampoline .tep2_trampoline, .trampoline .coroutine_trampoline,
    .trampoline .thread_trampoline, .trampoline .tep2_trampoline]

/-- A layout for the examples. -/
def Layout.packed : Layout 64 where
  addr l := BitVec.ofNat 64 (labels.idxOf l)
  label_at a := labels[a.toNat]?
  label_at_addr := by
    intro l
    cases l with
    | after f => cases f <;> rfl
    | jump_to_trampoline t => cases t <;> rfl
    | trampoline t => cases t <;> rfl
    | _ => rfl

/-- A call: the function with its arguments. -/
abbrev Call (w : ℕ) := Fn × List (BitVec w)

/-- How a call ends: what it returns, the stack it has switched to by its trampoline, and what it leaves in
    the registers `ρ` and in the memory where it need not keep them. -/
structure Reply (w : ℕ) (ρ : Type) where
  value : BitVec w
  new_sp : Option (BitVec w)
  regs : ρ → BitVec w
  mem : BitVec w → BitVec w

/-- The stack after these calls, if the loop was entered on `sp`. -/
def last_sp {w : ℕ} {ρ : Type} (sp : BitVec w) (rs : List (Reply w ρ)) : BitVec w :=
  rs.foldl (fun sp r => r.new_sp.getD sp) sp

/-- The entries of the loop: the OS jumps to these labels. -/
inductive Entry where | raw_trap_entry | raw_thread_entry | raw_kschedule | raw_run_task
  deriving DecidableEq, Repr

def Entry.label : Entry → Label
  | .raw_trap_entry => .raw_trap_entry
  | .raw_thread_entry => .raw_thread_entry
  | .raw_kschedule => .raw_kschedule
  | .raw_run_task => .raw_run_task

/-! ### The loop as it is meant -/

/-- The loop inside a call. -/
structure Loop (w : ℕ) where
  fn : Fn
  privilege : BitVec w
  stack_status : BitVec w
  deriving DecidableEq

namespace Loop

variable {w : ℕ} {ρ : Type}

/-- The arguments of the call. -/
def args (l : Loop w) : List (BitVec w) :=
  match l.fn with
  | .uschedule | .krun_utask => [l.stack_status]
  | .run_task => [l.privilege, l.stack_status]
  | _ => []

/-- The next call after one that has returned `v`. No return is expected otherwise. -/
def next (l : Loop w) (v : BitVec w) : Option (Loop w) :=
  match l.fn with
  | .trap_entry =>
    if v = 1 then some { l with fn := .kschedule }
    else if v = 2 then some { l with fn := .uschedule }
    else if v = 3 then some { l with fn := .utok_schedule }
    else none
  | .thread_entry =>
    if v &&& 1 = 0 then some ⟨.kschedule, v &&& 1, v >>> 1⟩
    else if v &&& 1 = 1 then some ⟨.uschedule, v &&& 1, v >>> 1⟩
    else none
  | .kschedule | .utok_schedule =>
    if v = 0 then some { l with fn := .run_task }
    else if v = 1 then some { l with fn := .krun_utask }
    else none
  | .uschedule => some { l with fn := .run_task }
  | .run_task =>
    if v = 0 then some ⟨.kschedule, v, 0⟩
    else if v = 1 then some ⟨.uschedule, v, 0⟩
    else none
  | _ => none

/-- One call has ended; the output is the next one. Only a function with a trampoline switches stacks. -/
def step (l : Loop w) (r : Reply w ρ) : Option (Call w × Loop w) :=
  if r.new_sp ≠ none ∧ l.fn.trampoline = none then none
  else (l.next r.value).map fun l' => ((l'.fn, l'.args), l')

/-- The calls that follow one another, from a first call with the arguments `args`. -/
def calls (l : Loop w) (args : List (BitVec w)) (rs : List (Reply w ρ)) : Option (List (Call w)) :=
  (Refinement.trace step l rs).map fun r => (l.fn, args) :: r.1

end Loop

end ScheduleLoop

end Vsched2
