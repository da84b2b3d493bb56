import Mathlib.Data.BitVec
import Mathlib.Logic.Function.Basic

/-! A small assembly language.

    A program gives the code at each label. It calls functions that are not part of it, and jumps to
    some of them without a return. What such a function does is left to the user of this module; the
    code up to it is executed here. -/

namespace Assembly

/-- Instructions on words of `w` bits, over registers `ρ`, labels `Λ` and functions `Φ`. `tail` jumps to
    a function, `undefined` is an instruction that the CPU does not have, and `word` is data in the code. -/
inductive Instr (w : ℕ) (ρ Λ Φ : Type) where
  | mov (rd rs : ρ) | li (rd : ρ) (v : BitVec w)
  | andi (rd rs : ρ) (v : BitVec w) | srli (rd rs : ρ) (n : ℕ)
  | add (rd : ρ) (v : BitVec w) | sub (rd : ρ) (v : BitVec w)
  | load (rd rs : ρ) (offset : BitVec w) | store (rd rs : ρ)
  | beq (r₁ r₂ : ρ) (l : Λ) | cmp (r : ρ) (v : BitVec w) | je (l : Λ) | jmp (l : Λ)
  | call (f : Φ) | tail (f : Φ) | undefined | word (v : BitVec 32)

/-- The registers, the memory by words, and the flag that `cmp` sets. -/
@[ext] structure State (w : ℕ) (ρ : Type) where
  regs : ρ → BitVec w
  mem : BitVec w → BitVec w
  zf : Bool

variable {w : ℕ} {ρ Λ Φ : Type} [DecidableEq ρ]

/-- Writes a register. -/
def State.set (s : State w ρ) (rd : ρ) (v : BitVec w) : State w ρ := { s with regs := Function.update s.regs rd v }

/-- Writes a word of the memory. -/
def State.write (s : State w ρ) (a v : BitVec w) : State w ρ := { s with mem := Function.update s.mem a v }

/-- Sets the flag. -/
def State.flag (s : State w ρ) (b : Bool) : State w ρ := { s with zf := b }

/-- Executes code up to the next call of a function, or jump to one, in fewer than `n` instructions.
    There is no result where the CPU traps, and none where it comes to data: what it makes of them is left
    open. -/
def exec (prog : Λ → List (Instr w ρ Λ Φ)) : ℕ → State w ρ → List (Instr w ρ Λ Φ) → Option (Φ × State w ρ)
  | 0, _, _ => none
  | n + 1, s, .mov rd rs :: code => exec prog n (s.set rd (s.regs rs)) code
  | n + 1, s, .li rd v :: code => exec prog n (s.set rd v) code
  | n + 1, s, .andi rd rs v :: code => exec prog n (s.set rd (s.regs rs &&& v)) code
  | n + 1, s, .srli rd rs k :: code => exec prog n (s.set rd (s.regs rs >>> k)) code
  | n + 1, s, .add rd v :: code => exec prog n (s.set rd (s.regs rd + v)) code
  | n + 1, s, .sub rd v :: code => exec prog n (s.set rd (s.regs rd - v)) code
  | n + 1, s, .load rd rs offset :: code => exec prog n (s.set rd (s.mem (s.regs rs + offset))) code
  | n + 1, s, .store rd rs :: code => exec prog n (s.write (s.regs rd) (s.regs rs)) code
  | n + 1, s, .beq r₁ r₂ l :: code => if s.regs r₁ = s.regs r₂ then exec prog n s (prog l) else exec prog n s code
  | n + 1, s, .cmp r v :: code => exec prog n (s.flag (decide (s.regs r = v))) code
  | n + 1, s, .je l :: code => if s.zf = true then exec prog n s (prog l) else exec prog n s code
  | n + 1, s, .jmp l :: _ => exec prog n s (prog l)
  | _ + 1, s, .call f :: _ | _ + 1, s, .tail f :: _ => some (f, s)
  | _ + 1, _, .undefined :: _ | _ + 1, _, .word _ :: _ | _ + 1, _, [] => none

/-! ### Registers and memory -/

section

variable (s : State w ρ) (rd r : ρ) (v : BitVec w) (a : BitVec w)

@[simp] theorem set_self : (s.set rd v).regs rd = v := Function.update_self _ _ _

@[simp] theorem set_of_ne {r rd : ρ} (h : r ≠ rd) : (s.set rd v).regs r = s.regs r := Function.update_of_ne h _ _

@[simp] theorem set_mem : (s.set rd v).mem = s.mem := rfl

omit [DecidableEq ρ] in
@[simp] theorem flag_regs (b : Bool) : (s.flag b).regs = s.regs := rfl

omit [DecidableEq ρ] in
@[simp] theorem flag_mem (b : Bool) : (s.flag b).mem = s.mem := rfl

omit [DecidableEq ρ] in
@[simp] theorem write_self : (s.write a v).mem a = v := Function.update_self _ _ _

omit [DecidableEq ρ] in
@[simp] theorem write_regs : (s.write a v).regs = s.regs := rfl

end

/-! ### Straight-line code -/

section

variable (prog : Λ → List (Instr w ρ Λ Φ)) (n : ℕ) (s : State w ρ) (rd rs r₁ r₂ : ρ) (v : BitVec w) (k : ℕ) (l : Λ)
  (f : Φ) (code : List (Instr w ρ Λ Φ))

@[simp] theorem exec_mov : exec prog (n + 1) s (.mov rd rs :: code) = exec prog n (s.set rd (s.regs rs)) code := rfl

@[simp] theorem exec_li : exec prog (n + 1) s (.li rd v :: code) = exec prog n (s.set rd v) code := rfl

@[simp] theorem exec_andi :
    exec prog (n + 1) s (.andi rd rs v :: code) = exec prog n (s.set rd (s.regs rs &&& v)) code := rfl

@[simp] theorem exec_srli :
    exec prog (n + 1) s (.srli rd rs k :: code) = exec prog n (s.set rd (s.regs rs >>> k)) code := rfl

@[simp] theorem exec_add : exec prog (n + 1) s (.add rd v :: code) = exec prog n (s.set rd (s.regs rd + v)) code := rfl

@[simp] theorem exec_sub : exec prog (n + 1) s (.sub rd v :: code) = exec prog n (s.set rd (s.regs rd - v)) code := rfl

@[simp] theorem exec_load :
    exec prog (n + 1) s (.load rd rs v :: code) = exec prog n (s.set rd (s.mem (s.regs rs + v))) code := rfl

@[simp] theorem exec_store :
    exec prog (n + 1) s (.store rd rs :: code) = exec prog n (s.write (s.regs rd) (s.regs rs)) code := rfl

@[simp] theorem exec_beq : exec prog (n + 1) s (.beq r₁ r₂ l :: code) =
    if s.regs r₁ = s.regs r₂ then exec prog n s (prog l) else exec prog n s code := rfl

/-- A comparison with the jump that reads it. -/
@[simp] theorem exec_cmp_je : exec prog (n + 2) s (.cmp rd v :: .je l :: code) =
    if s.regs rd = v then exec prog n (s.flag true) (prog l) else exec prog n (s.flag false) code := by
  by_cases h : s.regs rd = v <;> simp [exec, h, State.flag]

theorem exec_je : exec prog (n + 1) s (.je l :: code) =
    if s.zf = true then exec prog n s (prog l) else exec prog n s code := rfl

@[simp] theorem exec_jmp : exec prog (n + 1) s (.jmp l :: code) = exec prog n s (prog l) := rfl

@[simp] theorem exec_call : exec prog (n + 1) s (.call f :: code) = some (f, s) := rfl

@[simp] theorem exec_tail : exec prog (n + 1) s (.tail f :: code) = some (f, s) := rfl

@[simp] theorem exec_undefined : exec prog n s (.undefined :: code) = none := by
  cases n <;> rfl

@[simp] theorem exec_word (x : BitVec 32) : exec prog n s (.word x :: code) = none := by
  cases n <;> rfl

end

/-! ### Frames -/

/-- The instruction does not write `r`, and jumps only to labels that `ok` marks. -/
def Instr.Keeps (ok : Λ → Prop) (r : ρ) : Instr w ρ Λ Φ → Prop
  | .mov rd _ | .li rd _ | .andi rd _ _ | .srli rd _ _ | .add rd _ | .sub rd _ | .load rd _ _ => r ≠ rd
  | .beq _ _ l | .je l | .jmp l => ok l
  | .store _ _ | .cmp _ _ | .call _ | .tail _ | .undefined | .word _ => True

/-- The frame rule: a register that no instruction on the way writes is unchanged. -/
theorem exec_frame {prog : Λ → List (Instr w ρ Λ Φ)} {ok : Λ → Prop} {r : ρ}
    (hprog : ∀ l, ok l → ∀ i ∈ prog l, i.Keeps ok r) :
    ∀ (n : ℕ) {s s' : State w ρ} {code : List (Instr w ρ Λ Φ)} {f : Φ}, (∀ i ∈ code, i.Keeps ok r) →
      exec prog n s code = some (f, s') → s'.regs r = s.regs r := by
  intro n
  induction n with
  | zero =>
    intro s s' code f _ h
    cases h
  | succ n ih =>
    intro s s' code f hcode h
    cases code with
    | nil => cases h
    | cons i code =>
      have hi := hcode i List.mem_cons_self
      have hrest : ∀ i ∈ code, i.Keeps ok r := fun j hj => hcode j (List.mem_cons_of_mem i hj)
      cases i with
      | mov rd rs => exact (ih hrest h).trans (set_of_ne _ _ hi)
      | li rd v => exact (ih hrest h).trans (set_of_ne _ _ hi)
      | andi rd rs v => exact (ih hrest h).trans (set_of_ne _ _ hi)
      | srli rd rs k => exact (ih hrest h).trans (set_of_ne _ _ hi)
      | add rd v => exact (ih hrest h).trans (set_of_ne _ _ hi)
      | sub rd v => exact (ih hrest h).trans (set_of_ne _ _ hi)
      | load rd rs offset => exact (ih hrest h).trans (set_of_ne _ _ hi)
      | store rd rs => exact (ih hrest h).trans (by rw [write_regs])
      | beq r₁ r₂ l =>
        rw [exec_beq] at h
        split at h
        · exact ih (hprog l hi) h
        · exact ih hrest h
      | cmp rd v =>
        have hregs := ih hrest h
        exact hregs
      | je l =>
        rw [exec_je] at h
        split at h
        · exact ih (hprog l hi) h
        · exact ih hrest h
      | jmp l => exact ih (hprog l hi) h
      | call g =>
        obtain ⟨-, rfl⟩ := Prod.mk.inj (Option.some.inj h)
        rfl
      | tail g =>
        obtain ⟨-, rfl⟩ := Prod.mk.inj (Option.some.inj h)
        rfl
      | undefined => cases h
      | word x => cases h

end Assembly
