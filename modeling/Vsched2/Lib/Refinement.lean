import Mathlib.Data.List.Basic

/-! Machines with outputs, and forward simulation between two of them.

    `exec : σ → α → Option (β × σ)` executes one operation; `none` means that it fails for good. Two
    machines that give the same output on every operation, from related states to related states, give
    the same outputs on every sequence of operations. -/

namespace Refinement

variable {σ τ α β : Type*}

/-- The outputs of a sequence of operations, and the state it leaves. -/
def trace (exec : σ → α → Option (β × σ)) : σ → List α → Option (List β × σ)
  | s, [] => some ([], s)
  | s, a :: as => (exec s a).bind fun r => (trace exec r.2 as).map fun r' => (r.1 :: r'.1, r'.2)

/-- Only a part of the outputs is looked at. -/
theorem trace_map {γ : Type*} (exec : σ → α → Option (β × σ)) (g : β → γ) : ∀ (as : List α) (s : σ),
    trace (fun s a => (exec s a).map (Prod.map g id)) s as = (trace exec s as).map (Prod.map (List.map g) id) := by
  intro as
  induction as with
  | nil => exact fun s => rfl
  | cons a as ih =>
    intro s
    cases h : exec s a with
    | none => simp [trace, h]
    | some r => simp [trace, h, ih, Function.comp_def]

/-- Only a part of the operations matters. -/
theorem trace_comap {α' : Type*} (exec : σ → α → Option (β × σ)) (g : α' → α) : ∀ (as : List α') (s : σ),
    trace (fun s a => exec s (g a)) s as = trace exec s (as.map g) := by
  intro as
  induction as with
  | nil => exact fun s => rfl
  | cons a as ih =>
    intro s
    simp only [trace, List.map_cons, ih]

/-- The simulation rule: operations that meet `P` keep the relation `R` and have equal outputs. -/
theorem trace_simulation {execS : σ → α → Option (β × σ)} {execT : τ → α → Option (β × τ)} {R : σ → τ → Prop}
    {P : α → Prop}
    (hstep : ∀ s t a, R s t → P a → ∃ b s' t', execS s a = some (b, s') ∧ execT t a = some (b, t') ∧ R s' t') :
    ∀ (as : List α) {s : σ} {t : τ}, R s t → (∀ a ∈ as, P a) →
      ∃ bs s' t', trace execS s as = some (bs, s') ∧ trace execT t as = some (bs, t') ∧ R s' t' := by
  intro as s t hR hP
  induction as generalizing s t with
  | nil => exact ⟨[], s, t, rfl, rfl, hR⟩
  | cons a as ih =>
    obtain ⟨b, s₁, t₁, hs, ht, hR₁⟩ := hstep s t a hR (hP a List.mem_cons_self)
    obtain ⟨bs, s', t', hs', ht', hR'⟩ := ih hR₁ fun x hx => hP x (List.mem_cons_of_mem a hx)
    exact ⟨b :: bs, s', t', by simp [trace, hs, hs'], by simp [trace, ht, ht'], hR'⟩

/-- The rule for operations that may fail: if two machines fail on the same operations, and give the same
    output on the others, they give the same outputs on every sequence, or both fail on it. -/
theorem trace_congr {execS : σ → α → Option (β × σ)} {execT : τ → α → Option (β × τ)} {R : σ → τ → Prop}
    (hstep : ∀ s t a, R s t → execS s a = none ∧ execT t a = none ∨
      ∃ b s' t', execS s a = some (b, s') ∧ execT t a = some (b, t') ∧ R s' t') :
    ∀ (as : List α) {s : σ} {t : τ}, R s t →
      (trace execS s as).map Prod.fst = (trace execT t as).map Prod.fst := by
  intro as s t hR
  induction as generalizing s t with
  | nil => rfl
  | cons a as ih =>
    rcases hstep s t a hR with ⟨hs, ht⟩ | ⟨b, s', t', hs, ht, hR'⟩
    · simp [trace, hs, ht]
    · have hrest := congrArg (Option.map (List.cons b)) (ih hR')
      simpa [trace, hs, ht, Option.map_map, Function.comp_def] using hrest

theorem trace_invariant_from {exec : σ → α → Option (β × σ)} (Inv : List α → σ → Prop)
    (hstep : ∀ as s a b s', Inv as s → exec s a = some (b, s') → Inv (as ++ [a]) s') :
    ∀ (as : List α) {done : List α} {s s' : σ} {bs : List β}, Inv done s → trace exec s as = some (bs, s') →
      Inv (done ++ as) s' := by
  intro as done s s' bs hI h
  induction as generalizing done s bs with
  | nil =>
    simp only [trace, Option.some.injEq, Prod.mk.injEq] at h
    rw [List.append_nil, ← h.2]
    exact hI
  | cons a as ih =>
    simp only [trace, Option.bind_eq_some_iff, Option.map_eq_some_iff] at h
    obtain ⟨⟨b, t⟩, ht, ⟨bs', t'⟩, htrace, heq⟩ := h
    obtain rfl : t' = s' := (Prod.mk.inj heq).2
    have hrest := ih (hstep done s a b t hI ht) htrace
    rwa [List.append_assoc, List.singleton_append] at hrest

/-- The invariant rule: what holds of the operations so far and the state they leave. -/
theorem trace_invariant {exec : σ → α → Option (β × σ)} (Inv : List α → σ → Prop)
    (hstep : ∀ as s a b s', Inv as s → exec s a = some (b, s') → Inv (as ++ [a]) s') {as : List α} {s s' : σ}
    {bs : List β} (h₀ : Inv [] s) (h : trace exec s as = some (bs, s')) : Inv as s' :=
  trace_invariant_from Inv hstep as h₀ h

end Refinement
