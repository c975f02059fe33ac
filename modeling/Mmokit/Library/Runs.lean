/-
Runs of labelled transition systems.

A system is a relation `R s a t`, "the action `a` takes `s` to `t`". Safety statements are about
all runs, or about all runs whose steps meet a condition `K` on the state before the step and on
the action.
-/
import Mathlib.Tactic.Common

/-- The states that a run from `s` reaches when each step meets the condition `K`. -/
inductive Run {σ α : Type*} (R : σ → α → σ → Prop) (K : σ → α → Prop) (s : σ) : σ → Prop
  | refl : Run R K s s
  | tail {t u : σ} {a : α} : Run R K s t → K t a → R t a u → Run R K s u

def Always {σ α : Type*} (_ : σ) (_ : α) : Prop := True

def Steps {σ α : Type*} (step : σ → α → Option σ) (s : σ) (a : α) (t : σ) : Prop :=
  step s a = some t

instance {σ α : Type*} (s : σ) (a : α) : Decidable (Always s a) := .isTrue trivial

/-- Run a step function on a list of actions, as long as the condition is met. -/
def execute {σ α : Type*} (step : σ → α → Option σ) (K : σ → α → Prop) [∀ s a, Decidable (K s a)] :
    σ → List α → Option σ
  | s, [] => some s
  | s, a :: as => if K s a then (step s a).bind fun t => execute step K t as else none

section Rules

variable {σ α τ β : Type*} {R : σ → α → σ → Prop} {K : σ → α → Prop} {s t : σ}

/-- **The invariant rule.** -/
theorem Run.invariant {I : σ → Prop} (h₀ : I s)
    (hstep : ∀ {t u : σ} {a : α}, I t → K t a → R t a u → I u) (h : Run R K s t) : I t := by
  induction h with
  | refl => exact h₀
  | tail _ hK hR ih => exact hstep ih hK hR

lemma Run.trans {u : σ} (h : Run R K s t) (h' : Run R K t u) : Run R K s u := by
  induction h' with
  | refl => exact h
  | tail _ hK hR ih => exact ih.tail hK hR

lemma Run.mono {K' : σ → α → Prop} (hK : ∀ s a, K s a → K' s a) (h : Run R K s t) :
    Run R K' s t := by
  induction h with
  | refl => exact .refl
  | tail _ hk hR ih => exact ih.tail (hK _ _ hk) hR

/-- **Simulation.** Let `I` be an invariant of the system `R` under `K`, and let `f` turn each
step from a state in `I` into a step of `R'` under `K'`, or into no step. Then it turns runs into
runs. -/
theorem Run.simulate {R' : τ → β → τ → Prop} {K' : τ → β → Prop} {I : σ → Prop} (f : σ → τ)
    (h₀ : I s) (hI : ∀ {t u : σ} {a : α}, I t → K t a → R t a u → I u)
    (hf : ∀ {t u : σ} {a : α}, I t → K t a → R t a u →
      f u = f t ∨ ∃ b, K' (f t) b ∧ R' (f t) b (f u))
    (h : Run R K s t) : Run R' K' (f s) (f t) := by
  induction h with
  | refl => exact .refl
  | tail hrun hK hR ih =>
    have ht := hrun.invariant h₀ hI
    rcases hf ht hK hR with heq | ⟨b, hb, hR'⟩
    · exact heq ▸ ih
    · exact ih.tail hb hR'

lemma Run.get {step : σ → α → Option σ} (h : Run (Steps step) K s t) {a : α} (hK : K t a)
    (ha : (step t a).isSome) : Run (Steps step) K s ((step t a).get ha) :=
  h.tail hK (Option.some_get ha).symm

lemma run_of_execute {step : σ → α → Option σ} [∀ s a, Decidable (K s a)] (as : List α)
    (h : execute step K s as = some t) : Run (Steps step) K s t := by
  induction as generalizing s with
  | nil =>
    obtain rfl : s = t := by simpa [execute] using h
    exact .refl
  | cons a as ih =>
    simp only [execute] at h
    split at h
    · rename_i hK
      obtain ⟨u, hu, h⟩ := Option.bind_eq_some_iff.mp h
      exact Run.trans (.tail .refl hK hu) (ih h)
    · cases h

lemma exists_run (step : σ → α → Option σ) (K : σ → α → Prop) [∀ s a, Decidable (K s a)]
    (P : σ → Prop) [DecidablePred P] (as : List α)
    (h : ((execute step K s as).any fun t => P t) = true) :
    ∃ t, Run (Steps step) K s t ∧ P t := by
  cases ht : execute step K s as with
  | none => simp [ht] at h
  | some t => exact ⟨t, run_of_execute as ht, by simpa [ht] using h⟩

end Rules
