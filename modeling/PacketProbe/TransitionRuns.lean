import Mathlib.Data.List.Induction

/-!
# Runs of a transition system

A run takes labelled steps one after the other. An invariant is proved once for a step;
what depends on the labels already seen is proved along the run, step by step from its
end.
-/

namespace TransitionRuns

universe u v

variable {σ : Type u} {α : Type v}

/-- The runs of a step relation, with the labels of their steps. -/
inductive Run (step : σ → α → σ → Prop) : σ → List α → σ → Prop
  | nil (s : σ) : Run step s [] s
  | cons {s t u : σ} {a : α} {as : List α} :
      step s a t → Run step t as u → Run step s (a :: as) u

variable {step : σ → α → σ → Prop} {s t u : σ} {a : α} {as bs : List α}

namespace Run

theorem append (h : Run step s as t) (h' : Run step t bs u) : Run step s (as ++ bs) u := by
  induction h with
  | nil => exact h'
  | cons hstep _ ih => exact .cons hstep (ih h')

theorem snoc (h : Run step s as t) (hstep : step t a u) : Run step s (as ++ [a]) u :=
  h.append (.cons hstep (.nil u))

theorem append_inv (h : Run step s (as ++ bs) u) : ∃ t, Run step s as t ∧ Run step t bs u := by
  induction as generalizing s with
  | nil => exact ⟨s, .nil s, h⟩
  | cons a as ih =>
    cases h with
    | cons hstep hrest =>
      obtain ⟨t, has, hbs⟩ := ih hrest
      exact ⟨t, .cons hstep has, hbs⟩

/-- What every step preserves holds at the end of a run. -/
theorem invariant {I : σ → Prop} (hI : ∀ s a t, I s → step s a t → I t) (h : Run step s as t)
    (hs : I s) : I t := by
  induction h with
  | nil => exact hs
  | cons hstep _ ih => exact ih (hI _ _ _ hs hstep)

/-- Induction along a run, with the labels seen so far. -/
theorem trace_induction {s₀ : σ} {P : List α → σ → Prop} (hnil : P [] s₀)
    (hsnoc : ∀ as s a t, Run step s₀ as s → P as s → step s a t → P (as ++ [a]) t)
    (h : Run step s₀ as s) : P as s := by
  induction as using List.reverseRecOn generalizing s with
  | nil =>
    cases h
    exact hnil
  | append_singleton as a ih =>
    obtain ⟨t, has, hlast⟩ := h.append_inv
    cases hlast with
    | cons hstep hrest =>
      cases hrest
      exact hsnoc as t a _ has (ih has) hstep

/-- The run of a relation that allows less is a run of one that allows more. -/
theorem mono {step' : σ → α → σ → Prop} (hle : ∀ s a t, step s a t → step' s a t)
    (h : Run step s as t) : Run step' s as t := by
  induction h with
  | nil => exact .nil _
  | cons hstep _ ih => exact .cons (hle _ _ _ hstep) ih

/-- A run of a step function, computed, and what is computed of its last state. -/
theorem exists_of_foldlM {f : σ → α → Option σ} {P : σ → Prop} [DecidablePred P]
    (h : (as.foldlM f s).any (fun t => decide (P t)) = true) :
    ∃ t, Run (fun s a t => f s a = some t) s as t ∧ P t := by
  obtain ⟨t, ht, hP⟩ := (Option.any_eq_true _ _).1 h
  refine ⟨t, ?_, of_decide_eq_true hP⟩
  clear h hP
  induction as generalizing s with
  | nil =>
    cases ht
    exact .nil _
  | cons a as ih =>
    rw [List.foldlM_cons] at ht
    obtain ⟨u, hu, hrest⟩ := Option.bind_eq_some_iff.1 ht
    exact .cons hu (ih hrest)

end Run

/-- The states that runs from `s₀` reach. -/
def Reachable (step : σ → α → σ → Prop) (s₀ s : σ) : Prop := ∃ as, Run step s₀ as s

theorem Reachable.invariant {I : σ → Prop} {s₀ : σ} (h : Reachable step s₀ s) (hs : I s₀)
    (hI : ∀ s a t, I s → step s a t → I t) : I s := by
  obtain ⟨as, hrun⟩ := h
  exact hrun.invariant hI hs

/-- The steps taken only where a condition on state and label holds. -/
def Guarded (step : σ → α → σ → Prop) (G : σ → α → Prop) (s : σ) (a : α) (t : σ) : Prop :=
  G s a ∧ step s a t

end TransitionRuns
