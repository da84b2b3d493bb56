import Mathlib.Data.List.Basic

/-! Runs of a partial step function.

    A system is a type of states `σ`, a type of actions `α` and `step : σ → α → Option σ`, where
    `none` means that the action is not possible in that state. A run executes a list of actions.
    Interleavings need nothing more: the acting thread is part of the action. -/

namespace Runs

variable {σ α : Type*}

/-- The state after the actions, `none` once one of them is not possible. -/
def run (step : σ → α → Option σ) : σ → List α → Option σ
  | s, [] => some s
  | s, a :: as => (step s a).bind fun s' => run step s' as

/-- Every action the run takes meets `P` in the state it is taken in. -/
def Along (step : σ → α → Option σ) (P : σ → α → Prop) : σ → List α → Prop
  | _, [] => True
  | s, a :: as => ∀ s', step s a = some s' → P s a ∧ Along step P s' as

/-- Every state the run passes through, the first and the last included, meets `Q`. -/
def Visits (step : σ → α → Option σ) (Q : σ → Prop) : σ → List α → Prop
  | s, [] => Q s
  | s, a :: as => Q s ∧ ∀ s', step s a = some s' → Visits step Q s' as

variable {step : σ → α → Option σ} {P : σ → α → Prop} {Q I : σ → Prop}

@[simp] theorem run_nil (s : σ) : run step s [] = some s := rfl

@[simp] theorem run_cons (s : σ) (a : α) (as : List α) :
    run step s (a :: as) = (step s a).bind fun s' => run step s' as := rfl

theorem run_append (s : σ) : ∀ as bs : List α,
    run step s (as ++ bs) = (run step s as).bind fun s' => run step s' bs := by
  intro as bs
  induction as generalizing s with
  | nil => simp
  | cons a as ih =>
    simp only [List.cons_append, run_cons]
    cases step s a with
    | none => rfl
    | some s' => simpa using ih s'

/-- The invariant rule: what every step keeps, every run keeps. -/
theorem run_invariant (hstep : ∀ s a s', I s → step s a = some s' → I s') :
    ∀ {s s' : σ} (as : List α), I s → run step s as = some s' → I s' := by
  intro s s' as hs h
  induction as generalizing s with
  | nil => rw [run_nil, Option.some.injEq] at h; rwa [← h]
  | cons a as ih =>
    rw [run_cons, Option.bind_eq_some_iff] at h
    obtain ⟨t, ht, hrun⟩ := h
    exact ih (hstep s a t hs ht) hrun

/-- The counting invariant rule: an invariant that may grow by one at the actions that `p` marks has
    grown at most by their number at the end of the run. -/
theorem run_counted {I : ℕ → σ → Prop} {p : α → Bool}
    (hstep : ∀ n s a s', I n s → step s a = some s' → I (n + if p a then 1 else 0) s') :
    ∀ {n : ℕ} {s s' : σ} (as : List α), I n s → run step s as = some s' → I (n + as.countP p) s' := by
  intro n s s' as hs h
  induction as generalizing n s with
  | nil => rw [run_nil, Option.some.injEq] at h; rwa [← h]
  | cons a as ih =>
    rw [run_cons, Option.bind_eq_some_iff] at h
    obtain ⟨t, ht, hrun⟩ := h
    have hrest := ih (hstep n s a t hs ht) hrun
    rwa [List.countP_cons, Nat.add_comm (as.countP p), ← Nat.add_assoc]

/-- Some run leads from `s` to `s'` with `n` actions that `p` marks. -/
def Reaches (step : σ → α → Option σ) (p : α → Bool) (n : ℕ) (s s' : σ) : Prop :=
  ∃ as, run step s as = some s' ∧ as.countP p = n

theorem Reaches.refl {p : α → Bool} (s : σ) : Reaches step p 0 s s := ⟨[], rfl, rfl⟩

theorem Reaches.trans {p : α → Bool} {n k : ℕ} {s t s' : σ} (h : Reaches step p n s t)
    (h' : Reaches step p k t s') : Reaches step p (n + k) s s' := by
  obtain ⟨as, hrun, hn⟩ := h
  obtain ⟨bs, hrun', hk⟩ := h'
  refine ⟨as ++ bs, ?_, by rw [List.countP_append, hn, hk]⟩
  rw [run_append, hrun]
  exact hrun'

/-- The guarded invariant rule: what every step that meets `P` keeps, every run along `P` keeps. -/
theorem along_invariant (hstep : ∀ s a s', I s → P s a → step s a = some s' → I s') :
    ∀ {s s' : σ} (as : List α), I s → Along step P s as → run step s as = some s' → I s' := by
  intro s s' as hs hP h
  induction as generalizing s with
  | nil => rw [run_nil, Option.some.injEq] at h; rwa [← h]
  | cons a as ih =>
    rw [run_cons, Option.bind_eq_some_iff] at h
    obtain ⟨t, ht, hrun⟩ := h
    obtain ⟨hPa, hPas⟩ := hP t ht
    exact ih (hstep s a t hs hPa ht) hPas hrun

/-- The guarded counting rule: `run_counted` for runs along `P`. -/
theorem along_counted {I : ℕ → σ → Prop} {p : α → Bool}
    (hstep : ∀ n s a s', I n s → P s a → step s a = some s' → I (n + if p a then 1 else 0) s') :
    ∀ {n : ℕ} {s s' : σ} (as : List α), I n s → Along step P s as → run step s as = some s' →
      I (n + as.countP p) s' := by
  intro n s s' as hs hP h
  induction as generalizing n s with
  | nil => rw [run_nil, Option.some.injEq] at h; rwa [← h]
  | cons a as ih =>
    rw [run_cons, Option.bind_eq_some_iff] at h
    obtain ⟨t, ht, hrun⟩ := h
    obtain ⟨hPa, hPas⟩ := hP t ht
    have hrest := ih (hstep n s a t hs hPa ht) hPas hrun
    rwa [List.countP_cons, Nat.add_comm (as.countP p), ← Nat.add_assoc]

/-- A phase `P` that only the action `e` can end: it lasts until `e` is taken, and `Q` holds then. -/
theorem run_phase {P Q : σ → Prop} {e : α} (hkeep : ∀ s a s', P s → a ≠ e → step s a = some s' → P s')
    (hend : ∀ s s', P s → step s e = some s' → Q s') :
    ∀ {s s' : σ} {as : List α}, e ∉ as → P s → run step s (as ++ [e]) = some s' → Q s' := by
  intro s s' as he hs h
  induction as generalizing s with
  | nil =>
    rw [List.nil_append, run_cons, Option.bind_eq_some_iff] at h
    obtain ⟨t, ht, hrun⟩ := h
    rw [← Option.some.inj hrun]
    exact hend s t hs ht
  | cons a as ih =>
    rw [List.cons_append, run_cons, Option.bind_eq_some_iff] at h
    obtain ⟨t, ht, hrun⟩ := h
    obtain ⟨hne, he⟩ := not_or.mp (List.mem_cons.not.mp he)
    exact ih he (hkeep s a t hs (Ne.symm hne) ht) hrun

theorem Along.and {P' : σ → α → Prop} : ∀ {s : σ} {as : List α},
    Along step P s as → Along step P' s as → Along step (fun s a => P s a ∧ P' s a) s as := by
  intro s as h h'
  induction as generalizing s with
  | nil => trivial
  | cons a as ih =>
    intro t ht
    exact ⟨⟨(h t ht).1, (h' t ht).1⟩, ih (h t ht).2 (h' t ht).2⟩

/-- Where the invariant makes two guards equivalent at every step, a run goes along both or neither. -/
theorem along_congr {P' : σ → α → Prop} (hinv : ∀ s a s', I s → step s a = some s' → I s')
    (hiff : ∀ s a s', I s → step s a = some s' → (P s a ↔ P' s a)) :
    ∀ {s : σ} (as : List α), I s → (Along step P s as ↔ Along step P' s as) := by
  intro s as hI
  induction as generalizing s with
  | nil => exact Iff.rfl
  | cons a as ih =>
    refine forall_congr' fun t => forall_congr' fun ht => ?_
    exact and_congr (hiff s a t hI ht) (ih (hinv s a t hI ht))

/-- A guard that the actions meet in every state. -/
theorem along_of_mem : ∀ {s : σ} (as : List α), (∀ a ∈ as, ∀ t, P t a) → Along step P s as := by
  intro s as h
  induction as generalizing s with
  | nil => trivial
  | cons a as ih => exact fun t _ => ⟨h a List.mem_cons_self s, ih fun b hb => h b (List.mem_cons_of_mem a hb)⟩

theorem Along.append {s : σ} : ∀ {as bs : List α}, Along step P s as →
    (∀ s', run step s as = some s' → Along step P s' bs) → Along step P s (as ++ bs) := by
  intro as bs has hbs
  induction as generalizing s with
  | nil => exact hbs s rfl
  | cons a as ih =>
    intro t ht
    refine ⟨(has t ht).1, ih (has t ht).2 fun s' hs' => hbs s' ?_⟩
    rw [run_cons, ht]
    exact hs'

/-- Two runs go step by step: every action of one system is matched by a block of actions of the other, which
    `B` allows for it, and `R` relates the states at the ends of the blocks. -/
def Tracks {τ β : Type*} (step : σ → α → Option σ) (step' : τ → β → Option τ) (R : σ → τ → Prop)
    (B : α → List β → Prop) : σ → τ → List α → List (List β) → Prop
  | s, t, [], [] => R s t
  | s, t, a :: as, bs :: bss =>
    R s t ∧ B a bs ∧ ∃ s' t', step s a = some s' ∧ run step' t bs = some t' ∧ Tracks step step' R B s' t' as bss
  | _, _, _, _ => False

section

variable {τ β : Type*} {step' : τ → β → Option τ} {R R' : σ → τ → Prop} {B : α → List β → Prop} {Q : τ → β → Prop}

theorem Tracks.imp (himp : ∀ s t, R s t → R' s t) : ∀ {s : σ} {t : τ} {as : List α} {bss : List (List β)},
    Tracks step step' R B s t as bss → Tracks step step' R' B s t as bss
  | s, t, [], [], h => himp s t h
  | s, t, _ :: _, _ :: _, h => by
    obtain ⟨hR, hB, s', t', hs, ht, h⟩ := h
    exact ⟨himp s t hR, hB, s', t', hs, ht, h.imp himp⟩

/-- The simulation rule: where every step of one system that meets `P` is matched by a run of another one
    along `Q`, so is every run along `P`, step by step. -/
theorem run_simulation (hstep : ∀ s a s' t, R s t → P s a → step s a = some s' →
      ∃ bs t', B a bs ∧ run step' t bs = some t' ∧ Along step' Q t bs ∧ R s' t') :
    ∀ {s s' : σ} {t : τ} (as : List α), R s t → Along step P s as → run step s as = some s' →
      ∃ bss t', Tracks step step' R B s t as bss ∧ run step' t bss.flatten = some t' ∧
        Along step' Q t bss.flatten ∧ R s' t' := by
  intro s s' t as hR hP h
  induction as generalizing s t with
  | nil =>
    rw [run_nil, Option.some.injEq] at h
    subst h
    exact ⟨[], t, hR, rfl, trivial, hR⟩
  | cons a as ih =>
    rw [run_cons, Option.bind_eq_some_iff] at h
    obtain ⟨s₁, hs₁, hrun⟩ := h
    obtain ⟨hPa, hPas⟩ := hP s₁ hs₁
    obtain ⟨bs, t₁, hB, hbs, hQ, hR₁⟩ := hstep s a s₁ t hR hPa hs₁
    obtain ⟨bss, t', htracks, hbss, hQ', hR'⟩ := ih hR₁ hPas hrun
    refine ⟨bs :: bss, t', ⟨hR, hB, s₁, t₁, hs₁, hbs, htracks⟩, ?_, hQ.append fun u hu => ?_, hR'⟩
    · rw [List.flatten_cons, run_append, hbs, Option.bind_some, hbss]
    · obtain rfl : t₁ = u := Option.some.inj (hbs.symm.trans hu)
      exact hQ'

end

/-- On a concrete run a decidable guard can be evaluated. -/
instance Along.decidable [∀ s a, Decidable (P s a)] : ∀ s as, Decidable (Along step P s as)
  | _, [] => isTrue trivial
  | s, a :: as =>
    match h : step s a with
    | none => isTrue fun s' hs => by simp [h] at hs
    | some t =>
      have := Along.decidable t as
      decidable_of_iff (P s a ∧ Along step P t as) (by
        constructor
        · intro hP s' hs
          rw [h] at hs
          exact Option.some.inj hs ▸ hP
        · intro hA
          exact hA t h)

theorem Visits.head {s : σ} : ∀ {as : List α}, Visits step Q s as → Q s
  | [], h => h
  | _ :: _, h => h.1

theorem Visits.last : ∀ {s s' : σ} {as : List α}, Visits step Q s as → run step s as = some s' → Q s' := by
  intro s s' as hV h
  induction as generalizing s with
  | nil => rw [run_nil, Option.some.injEq] at h; rwa [← h]
  | cons a as ih =>
    rw [run_cons, Option.bind_eq_some_iff] at h
    obtain ⟨t, ht, hrun⟩ := h
    exact ih (hV.2 t ht) hrun

/-- What every step that meets `P` keeps holds in every state of a run along `P`. -/
theorem along_visits (hstep : ∀ s a s', I s → P s a → step s a = some s' → I s') :
    ∀ {s : σ} (as : List α), I s → Along step P s as → Visits step I s as := by
  intro s as hs hP
  induction as generalizing s with
  | nil => exact hs
  | cons a as ih =>
    refine ⟨hs, fun t ht => ?_⟩
    obtain ⟨hPa, hPas⟩ := hP t ht
    exact ih (hstep s a t hs hPa ht) hPas

theorem Visits.imp (himp : ∀ s, I s → Q s) :
    ∀ {s : σ} {as : List α}, Visits step I s as → Visits step Q s as := by
  intro s as h
  induction as generalizing s with
  | nil => exact himp s h
  | cons a as ih => exact ⟨himp s h.1, fun t ht => ih (h.2 t ht)⟩

/-- When `P` decides, at every state of the invariant, whether one step keeps `Q`, a run passes
    through `Q` only if and only if it goes along `P`. -/
theorem visits_iff_along (hinv : ∀ s a s', I s → step s a = some s' → I s')
    (hstep : ∀ s a s', I s → Q s → step s a = some s' → (Q s' ↔ P s a)) :
    ∀ {s : σ} (as : List α), I s → Q s → (Visits step Q s as ↔ Along step P s as) := by
  intro s as hI hQ
  induction as generalizing s with
  | nil => simp [Visits, Along, hQ]
  | cons a as ih =>
    simp only [Visits, Along, hQ, true_and]
    refine forall_congr' fun t => forall_congr' fun ht => ?_
    have hI' : I t := hinv s a t hI ht
    have hQP := hstep s a t hI hQ ht
    constructor
    · intro h
      exact ⟨hQP.mp h.head, (ih hI' h.head).mp h⟩
    · rintro ⟨hP, h⟩
      exact (ih hI' (hQP.mpr hP)).mpr h

end Runs
