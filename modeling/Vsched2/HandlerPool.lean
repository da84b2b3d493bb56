import Vsched2.Handlers
import Vsched2.Exclusivity

/-! The pool of idle handlers has a fixed number of places, while `take_task` creates a handler
    whenever the pool is empty and no handler ever ends.

    Every idle handler is one of the handlers that exist, so `push_back` finds a place as long as
    there are no more of them than places. With one handler more, and all of them idle at once,
    `reschedule_handler` panics. -/

namespace Vsched2

namespace HandlerPool

open Machine

variable {cfg : Config} {m m' : Machine cfg} {a : Act cfg} {c : Cpu cfg} {h : TaskPtr} {n : ℕ}

/-- The steps in which `take_task` creates a handler. -/
def creates : Act cfg → Bool
  | .new_handler _ _ _ => true
  | _ => false

/-! ### The handlers that exist -/

/-- All handlers are among `n` tasks. -/
def AtMost (n : ℕ) (m : Machine cfg) : Prop :=
  ∃ hs : List TaskPtr, hs.length ≤ n ∧ ∀ h, m.stage h ≠ none → h ∈ hs

theorem step_at_most (hA : AtMost n m) (hs : m.step a = some m') :
    AtMost (n + if creates a then 1 else 0) m' := by
  obtain ⟨hs', hlen, hmem⟩ := hA
  by_cases ha : ∃ c g task, a = .new_handler c g task
  · obtain ⟨c, g, task, rfl⟩ := ha
    refine ⟨g :: hs', by simpa [creates] using hlen, fun h hst => ?_⟩
    by_cases hno : m.stage h = none
    · obtain ⟨c', task', heq⟩ := (step_new_stage hs hno hst).1
      cases heq
      simp
    · exact List.mem_cons_of_mem g (hmem h hno)
  · refine ⟨hs', by omega, fun h hst => hmem h fun hno => ?_⟩
    obtain ⟨c, task, heq⟩ := (step_new_stage hs hno hst).1
    exact ha ⟨c, h, task, heq⟩

/-! ### Room in the pool -/

/-- The handler that goes to the pool is not there yet. -/
theorem pushing_not_idle (hI : Inv m) (hpc : m.pc c = .idle_push) : m.current_task c ∉ m.idle_handlers := by
  have hv := (hI.view_at hpc rfl (by simp)).2
  have hcount : m.idle_handlers.count (m.current_task c) = 0 := congrArg View.idle hv
  exact List.count_eq_zero.mp hcount

theorem idle_length_le (hI : Inv m) (hS : Staffed m) (hA : AtMost n m) : m.idle_handlers.length ≤ n := by
  obtain ⟨hs, hlen, hmem⟩ := hA
  have hsub : m.idle_handlers ⊆ hs := fun h hidle => hmem h (hS.idle h hidle)
  exact ((Exclusivity.idle_nodup hI).length_le_of_subset hsub).trans hlen

/-- A handler on its way into the pool is one more than those in the pool. -/
theorem idle_length_lt (hI : Inv m) (hS : Staffed m) (hA : AtMost n m) (hpc : m.pc c = .idle_push) :
    m.idle_handlers.length < n := by
  obtain ⟨hs, hlen, hmem⟩ := hA
  have hnodup : (m.current_task c :: m.idle_handlers).Nodup :=
    List.nodup_cons.mpr ⟨pushing_not_idle hI hpc, Exclusivity.idle_nodup hI⟩
  have hsub : m.current_task c :: m.idle_handlers ⊆ hs := by
    intro h hin
    rcases List.mem_cons.mp hin with rfl | hidle
    · exact hmem _ (hS.pushing c hpc)
    · exact hmem h (hS.idle h hidle)
  have hle := hnodup.length_le_of_subset hsub
  rw [List.length_cons] at hle
  omega

/-- The pool is not longer than its places, a handler that goes to it finds one, and `push_back` in
    `reschedule_handler` has not failed. -/
structure Room (m : Machine cfg) : Prop where
  length_le : m.idle_handlers.length ≤ cfg.trap_wait_queue_size
  length_lt : ∀ c, m.pc c = .idle_push → m.idle_handlers.length < cfg.trap_wait_queue_size
  not_full : ∀ c, m.pc c ≠ .panicked .pool_full

/-- A machine with at most `n` handlers. -/
structure Manned (n : ℕ) (m : Machine cfg) : Prop where
  inv : Inv m
  staffed : Staffed m
  at_most : AtMost n m
  not_full : n ≤ cfg.trap_wait_queue_size → ∀ c, m.pc c ≠ .panicked .pool_full

theorem step_manned (hM : Manned n m) (hs : m.step a = some m') :
    Manned (n + if creates a then 1 else 0) m' where
  inv := step_inv hM.inv hs
  staffed := step_staffed hM.inv hM.staffed hs
  at_most := step_at_most hM.at_most hs
  not_full := by
    intro hn c hc
    rcases panic_cause hs hc with hc | hcause
    · exact hM.not_full (by omega) c hc
    · cases hcause with
      | pool_full hpc hfull =>
        have hlt := idle_length_lt hM.inv hM.staffed hM.at_most hpc
        omega

theorem boot_manned (b : Boot cfg) : Manned cfg.cpu_num b.machine where
  inv := b.inv
  staffed := b.staffed
  at_most := by
    refine ⟨(List.finRange cfg.cpu_num).map b.handlers, by simp, fun h hst => ?_⟩
    by_contra hno
    have hnot : ¬ ∃ c, b.handlers c = h := by simpa using hno
    simp [Boot.machine, hnot] at hst
  not_full := fun _ c hc => by simp [Boot.machine] at hc

theorem run_manned (b : Boot cfg) {acts : List (Act cfg)} (hrun : Runs.run step b.machine acts = some m) :
    Manned (cfg.cpu_num + acts.countP creates) m :=
  Runs.run_counted (fun _ _ _ _ hM hs => step_manned hM hs) acts (boot_manned b) hrun

theorem Manned.room (hM : Manned n m) (hn : n ≤ cfg.trap_wait_queue_size) : Room m where
  length_le := (idle_length_le hM.inv hM.staffed hM.at_most).trans hn
  length_lt := fun _ hpc => (idle_length_lt hM.inv hM.staffed hM.at_most hpc).trans_le hn
  not_full := hM.not_full hn

/-- While the handlers of the boot and those created since are together no more than the places of the
    pool, it has room for every handler that comes back. -/
theorem idle_handlers_have_room (b : Boot cfg) (acts : List (Act cfg)) (m : Machine cfg)
    (hrun : Runs.run step b.machine acts = some m)
    (hfew : cfg.cpu_num + acts.countP creates ≤ cfg.trap_wait_queue_size) : Room m :=
  (run_manned b hrun).room hfew

/-- The init task of the only CPU blocks; an interrupt is handled, and its handler goes to the pool. -/
def serve : List (Act solo) :=
  [.set_self solo_cpu .blocking, .leave solo_cpu false, .fail solo_cpu .kernel, .next solo_cpu, .next solo_cpu,
    .check solo_cpu false, .irq solo_cpu, .next solo_cpu, .take_trap solo_cpu] ++ List.replicate 10 (.next solo_cpu)

theorem idle_handlers_have_room_serve : ∃ m : Machine solo,
    Runs.run step (Boot.plain solo).machine serve = some m ∧ m.pc solo_cpu = .idle_push ∧ Room m := by
  have hrun : ((Runs.run step (Boot.plain solo).machine serve).map fun m =>
      decide (m.pc solo_cpu = .idle_push)) = some true := by decide +kernel
  obtain ⟨m, hm, hpc⟩ := Option.map_eq_some_iff.mp hrun
  exact ⟨m, hm, of_decide_eq_true hpc, idle_handlers_have_room (Boot.plain solo) serve m hm (by decide)⟩

end HandlerPool

end Vsched2
