import Mathlib.Data.List.Basic

namespace Tlsdate.Machine

variable {σ τ ε φ ο ρ μ : Type}

/-- A machine answers an event with its next state and its outputs; `none`
means that the state does not enable the event. -/
abbrev Step (σ ε ο : Type) := σ → ε → Option (σ × List ο)

/-- Finite runs whose every step is taken from a state and on an event that
satisfy the condition `C`. The run grows at its end, as invariants do. -/
inductive Run (step : Step σ ε ο) (C : σ → ε → Prop) (s₀ : σ) : List ε → σ → List ο → Prop
  | nil : Run step C s₀ [] s₀ []
  | snoc {es s out e s' o} : Run step C s₀ es s out → C s e → step s e = some (s', o) →
      Run step C s₀ (es ++ [e]) s' (out ++ o)

def Free : σ → ε → Prop := fun _ _ => True

theorem Run.one {step : Step σ ε ο} {C : σ → ε → Prop} {s s' : σ} {e : ε} {o : List ο}
    (hC : C s e) (hs : step s e = some (s', o)) : Run step C s [e] s' o :=
  Run.snoc .nil hC hs

theorem Run.mono {step : Step σ ε ο} {C D : σ → ε → Prop} {s₀ s : σ} {es : List ε} {out : List ο}
    (hCD : ∀ s e, C s e → D s e) (h : Run step C s₀ es s out) : Run step D s₀ es s out := by
  induction h with
  | nil => exact .nil
  | snoc _ hC hs ih => exact .snoc ih (hCD _ _ hC) hs

theorem Run.free {step : Step σ ε ο} {C : σ → ε → Prop} {s₀ s : σ} {es : List ε} {out : List ο}
    (h : Run step C s₀ es s out) : Run step Free s₀ es s out :=
  h.mono (fun _ _ _ => trivial)

theorem Run.restrict {step : Step σ ε ο} {C D : σ → ε → Prop} {s₀ s : σ} {es : List ε} {out : List ο}
    (h : Run step C s₀ es s out) (hD : ∀ e ∈ es, ∀ s, D s e) : Run step D s₀ es s out := by
  induction h with
  | nil => exact .nil
  | snoc _ _ hs ih =>
      exact .snoc (ih fun e he => hD e (List.mem_append_left _ he)) (hD _ (by simp) _) hs

theorem Run.trans {step : Step σ ε ο} {C : σ → ε → Prop} {s₀ s₁ s₂ : σ} {es fs : List ε}
    {out out' : List ο} (h : Run step C s₀ es s₁ out) (k : Run step C s₁ fs s₂ out') :
    Run step C s₀ (es ++ fs) s₂ (out ++ out') := by
  induction k with
  | nil => simpa using h
  | snoc _ hC hs ih => simpa only [List.append_assoc] using Run.snoc ih hC hs

/-- What every admitted step preserves holds at the end of every admitted run. -/
theorem Run.invariant {step : Step σ ε ο} {C : σ → ε → Prop} {s₀ s : σ} {es : List ε}
    {out : List ο} (I : σ → Prop) (h₀ : I s₀)
    (hstep : ∀ s e s' o, I s → C s e → step s e = some (s', o) → I s')
    (h : Run step C s₀ es s out) : I s := by
  induction h with
  | nil => exact h₀
  | snoc _ hC hs ih => exact hstep _ _ _ _ ih hC hs

theorem Run.history {step : Step σ ε ο} {C : σ → ε → Prop} {s₀ s : σ} {es : List ε}
    {out : List ο} (I : σ → List ο → Prop) (h₀ : I s₀ [])
    (hstep : ∀ s e s' o out, I s out → C s e → step s e = some (s', o) → I s' (out ++ o))
    (h : Run step C s₀ es s out) : I s out := by
  induction h with
  | nil => exact h₀
  | snoc _ hC hs ih => exact hstep _ _ _ _ _ ih hC hs

/-- Where a step keeps a property exactly on condition, the property holds after
a run exactly if all its steps meet the condition. -/
theorem Run.holds_iff {step : Step σ ε ο} {C : σ → ε → Prop} {s₀ s : σ} {es : List ε}
    {out : List ο} (P I : σ → List ο → Prop) (hnil : P s₀ []) (h₀ : I s₀ [])
    (hstep : ∀ s e s' o out, I s out → step s e = some (s', o) →
      I s' (out ++ o) ∧ (P s' (out ++ o) ↔ P s out ∧ C s e))
    (h : Run step Free s₀ es s out) : P s out ↔ Run step C s₀ es s out := by
  constructor
  · have hinv : I s out ∧ (P s out → Run step C s₀ es s out) := by
      induction h with
      | nil => exact ⟨h₀, fun _ => .nil⟩
      | snoc _ _ hs ih =>
          obtain ⟨hI, hP⟩ := hstep _ _ _ _ _ ih.1 hs
          exact ⟨hI, fun hp => .snoc (ih.2 (hP.mp hp).1) (hP.mp hp).2 hs⟩
    exact hinv.2
  · intro hr
    refine (hr.history (fun s out => I s out ∧ P s out) ⟨h₀, hnil⟩ ?_).2
    intro s e s' o out hi hc hs
    obtain ⟨hI, hP⟩ := hstep _ _ _ _ _ hi.1 hs
    exact ⟨hI, hP.mpr ⟨hi.2, hc⟩⟩

theorem Run.admitted_iff {step : Step σ ε ο} {C : σ → ε → Prop} {s₀ s : σ} {es : List ε}
    {out : List ο} (P : List ο → Prop) (I : σ → List ο → Prop) (hnil : P []) (h₀ : I s₀ [])
    (hstep : ∀ s e s' o out, I s out → step s e = some (s', o) →
      I s' (out ++ o) ∧ (P (out ++ o) ↔ P out ∧ C s e))
    (h : Run step Free s₀ es s out) : P out ↔ Run step C s₀ es s out :=
  h.holds_iff (fun _ out => P out) I hnil h₀ hstep

theorem Run.simulate {step : Step σ ε ο} {step' : Step τ φ ρ} {C : σ → ε → Prop} {D : τ → φ → Prop}
    {s₀ s : σ} {es : List ε} {out : List ο} (f : σ → τ) (g : σ → ε → φ) (h : List ο → List ρ)
    (hnil : h [] = []) (happend : ∀ o o', h (o ++ o') = h o ++ h o')
    (hsim : ∀ s e s' o, C s e → step s e = some (s', o) →
      D (f s) (g s e) ∧ step' (f s) (g s e) = some (f s', h o))
    (hr : Run step C s₀ es s out) : ∃ fs, Run step' D (f s₀) fs (f s) (h out) := by
  induction hr with
  | nil => exact ⟨[], hnil ▸ .nil⟩
  | @snoc es s out e s' o _ hC hs ih =>
      obtain ⟨fs, hfs⟩ := ih
      obtain ⟨hD, hs'⟩ := hsim s e s' o hC hs
      exact ⟨fs ++ [g s e], happend out o ▸ .snoc hfs hD hs'⟩

def exec (step : Step σ ε ο) : σ → List ε → Option (σ × List ο)
  | s, [] => some (s, [])
  | s, e :: es =>
      match step s e with
      | none => none
      | some (s', o) => (exec step s' es).map fun r => (r.1, o ++ r.2)

theorem exec_cons {step : Step σ ε ο} {e : ε} {es : List ε} {s s' : σ} {out : List ο}
    (h : exec step s (e :: es) = some (s', out)) :
    ∃ s₁ o out', step s e = some (s₁, o) ∧ exec step s₁ es = some (s', out') ∧ out = o ++ out' := by
  rw [exec] at h
  split at h
  next => cases h
  next s₁ o hs =>
    obtain ⟨⟨s₂, out'⟩, hx, he⟩ := Option.map_eq_some_iff.mp h
    simp only [Prod.mk.injEq] at he
    obtain ⟨rfl, rfl⟩ := he
    exact ⟨s₁, o, out', hs, hx, rfl⟩

theorem Run.of_exec {step : Step σ ε ο} {es : List ε} {s s' : σ} {out : List ο}
    (h : exec step s es = some (s', out)) : Run step Free s es s' out := by
  induction es generalizing s out with
  | nil =>
      simp only [exec, Option.some.injEq, Prod.mk.injEq] at h
      obtain ⟨rfl, rfl⟩ := h
      exact .nil
  | cons e es ih =>
      obtain ⟨s₁, o, out', hs, hx, rfl⟩ := exec_cons h
      exact (Run.one trivial hs).trans (ih hx)

/-- A machine observed by a history variable, which reads every step and
influences none. -/
def observed (step : Step σ ε ο) (note : μ → σ → ε → σ → List ο → μ) : Step (σ × μ) ε ο :=
  fun s e => (step s.1 e).map fun r => ((r.1, note s.2 s.1 e r.1 r.2), r.2)

theorem observed_some {step : Step σ ε ο} {note : μ → σ → ε → σ → List ο → μ} {s s' : σ × μ}
    {e : ε} {o : List ο} (h : observed step note s e = some (s', o)) :
    step s.1 e = some (s'.1, o) ∧ s'.2 = note s.2 s.1 e s'.1 o := by
  obtain ⟨⟨t, o'⟩, hs, he⟩ := Option.map_eq_some_iff.mp h
  simp only [Prod.mk.injEq] at he
  obtain ⟨rfl, rfl⟩ := he
  exact ⟨hs, rfl⟩

theorem Run.forget {step : Step σ ε ο} {note : μ → σ → ε → σ → List ο → μ}
    {C : σ × μ → ε → Prop} {s₀ s : σ × μ} {es : List ε} {out : List ο}
    (h : Run (observed step note) C s₀ es s out) : Run step Free s₀.1 es s.1 out := by
  induction h with
  | nil => exact .nil
  | snoc _ _ hs ih => exact .snoc ih trivial (observed_some hs).1

theorem Run.observe {step : Step σ ε ο} (note : μ → σ → ε → σ → List ο → μ) {s₀ s : σ}
    {es : List ε} {out : List ο} (m : μ) (h : Run step Free s₀ es s out) :
    ∃ m', Run (observed step note) Free (s₀, m) es (s, m') out := by
  induction h with
  | nil => exact ⟨m, .nil⟩
  | @snoc es s out e s' o _ _ hs ih =>
      obtain ⟨m', hr⟩ := ih
      exact ⟨note m' s e s' o, .snoc hr trivial (by simp [observed, hs])⟩

end Tlsdate.Machine
