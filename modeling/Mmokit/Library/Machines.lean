/-
Machines that answer calls.

A machine takes a state and a call to an answer and a new state. Two machines agree on a list of
calls if they give the same answers to it.
-/
import Mathlib.Tactic.Common

namespace Machine

variable {σ τ α ρ : Type*}

def answers (step : σ → α → ρ × σ) : σ → List α → List ρ
  | _, [] => []
  | s, a :: as => (step s a).1 :: answers step (step s a).2 as

def final (step : σ → α → ρ × σ) : σ → List α → σ
  | s, [] => s
  | s, a :: as => final step (step s a).2 as

def Meets (step : σ → α → ρ × σ) (K : σ → α → Prop) : σ → List α → Prop
  | _, [] => True
  | s, a :: as => K s a ∧ Meets step K (step s a).2 as

variable {f : σ → α → ρ × σ} {g : τ → α → ρ × τ} {K : σ → α → Prop} {R : σ → τ → Prop}

lemma meets_of_forall (h : ∀ s a, K s a) (s : σ) (as : List α) : Meets f K s as := by
  induction as generalizing s with
  | nil => trivial
  | cons a as ih => exact ⟨h s a, ih _⟩

/-- **Simulation.** If related states give the same answer to a call that meets the condition, and
stay related, then they give the same answers to all calls and are related at the end. -/
theorem simulate (hstep : ∀ {s t a}, R s t → K s a → (f s a).1 = (g t a).1 ∧ R (f s a).2 (g t a).2)
    {s : σ} {t : τ} (hR : R s t) (as : List α) (hK : Meets f K s as) :
    answers f s as = answers g t as ∧ R (final f s as) (final g t as) := by
  induction as generalizing s t with
  | nil => exact ⟨rfl, hR⟩
  | cons a as ih =>
    obtain ⟨hanswer, hnext⟩ := hstep hR hK.1
    obtain ⟨hanswers, hfinal⟩ := ih hnext hK.2
    exact ⟨congrArg₂ List.cons hanswer hanswers, hfinal⟩

/-- **When two machines agree**: exactly on the calls that meet the condition, if any other call
gets different answers. -/
theorem answers_eq_iff
    (hstep : ∀ {s t a}, R s t → K s a → (f s a).1 = (g t a).1 ∧ R (f s a).2 (g t a).2)
    (hfail : ∀ {s t a}, R s t → ¬ K s a → (f s a).1 ≠ (g t a).1)
    {s : σ} {t : τ} (hR : R s t) (as : List α) :
    answers f s as = answers g t as ↔ Meets f K s as := by
  refine ⟨fun h => ?_, fun h => (simulate hstep hR as h).1⟩
  induction as generalizing s t with
  | nil => trivial
  | cons a as ih =>
    obtain ⟨hanswer, hanswers⟩ := List.cons.inj h
    have hK : K s a := by
      by_contra hK
      exact hfail hR hK hanswer
    exact ⟨hK, ih (hstep hR hK).2 hanswers⟩

end Machine
