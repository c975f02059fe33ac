/-
Two sequences of crossings, merged in their order.

A walk in the quadrant goes right if the next crossing of the first sequence comes before the next
one of the second sequence, and up otherwise. If both sequences are monotone, its places are known
without walking (`reached_iff`): the last crossing on each axis came before the next one on the
other.
-/
import Mathlib.Data.Prod.Basic
import Mathlib.Order.Lattice.Nat
import Mathlib.Logic.Function.Iterate
import Mathlib.Order.Monotone.Basic

namespace Staircase

variable {α : Type*} [LinearOrder α] {f g : ℕ → α} {p q : ℕ × ℕ}

/-- One step of the walk. -/
def turn (f g : ℕ → α) (p : ℕ × ℕ) : ℕ × ℕ :=
  if f p.1 < g p.2 then (p.1 + 1, p.2) else (p.1, p.2 + 1)

/-- The crossings before the place come before those after it; of two at once, the second sequence
is first. -/
structure Reached (f g : ℕ → α) (p : ℕ × ℕ) : Prop where
  right : ∀ a, p.1 = a + 1 → f a < g p.2
  up : ∀ b, p.2 = b + 1 → g b ≤ f p.1

lemma reached_zero : Reached f g (0, 0) := ⟨nofun, nofun⟩

lemma sum_turn (p : ℕ × ℕ) : (turn f g p).1 + (turn f g p).2 = p.1 + p.2 + 1 := by
  unfold turn
  split <;> dsimp only <;> omega

variable (hf : Monotone f) (hg : Monotone g)
include hf hg

lemma Reached.turn (h : Reached f g p) : Reached f g (turn f g p) := by
  unfold Staircase.turn
  split
  · next hlt =>
    refine ⟨fun a ha => ?_, fun b hb => (h.up b hb).trans (hf (Nat.le_succ _))⟩
    obtain rfl : p.1 = a := Nat.succ.inj ha
    exact hlt
  · next hge =>
    refine ⟨fun a ha => (h.right a ha).trans_le (hg (Nat.le_succ _)), fun b hb => ?_⟩
    obtain rfl : p.2 = b := Nat.succ.inj hb
    exact not_lt.mp hge

/-- The places that are reached are in one line. -/
lemma Reached.le (hp : Reached f g p) (hq : Reached f g q)
    (hle : p.1 + p.2 ≤ q.1 + q.2) : p ≤ q := by
  have hfirst : p.1 ≤ q.1 := by
    by_contra! hlt
    obtain ⟨a, ha⟩ := Nat.exists_eq_succ_of_ne_zero (Nat.ne_zero_of_lt hlt)
    obtain ⟨b, hb⟩ := Nat.exists_eq_succ_of_ne_zero (n := q.2) (by omega)
    have hcycle : f a < f a :=
      calc f a < g p.2 := hp.right a ha
        _ ≤ g b := hg (by omega)
        _ ≤ f q.1 := hq.up b hb
        _ ≤ f a := hf (by omega)
    exact lt_irrefl _ hcycle
  have hsecond : p.2 ≤ q.2 := by
    by_contra! hlt
    obtain ⟨b, hb⟩ := Nat.exists_eq_succ_of_ne_zero (Nat.ne_zero_of_lt hlt)
    obtain ⟨a, ha⟩ := Nat.exists_eq_succ_of_ne_zero (n := q.1) (by omega)
    have hcycle : f a < f a :=
      calc f a < g q.2 := hq.right a ha
        _ ≤ g b := hg (by omega)
        _ ≤ f p.1 := hp.up b hb
        _ ≤ f a := hf (by omega)
    exact lt_irrefl _ hcycle
  exact ⟨hfirst, hsecond⟩

lemma reached_iterate (n : ℕ) : Reached f g ((Staircase.turn f g)^[n] (0, 0)) ∧
    ((Staircase.turn f g)^[n] (0, 0)).1 + ((Staircase.turn f g)^[n] (0, 0)).2 = n := by
  induction n with
  | zero => exact ⟨reached_zero, rfl⟩
  | succ n ih =>
    rw [Function.iterate_succ_apply', sum_turn, ih.2]
    exact ⟨ih.1.turn hf hg, rfl⟩

/-- **The places of the walk.** -/
theorem reached_iff : Reached f g p ↔ (Staircase.turn f g)^[p.1 + p.2] (0, 0) = p := by
  obtain ⟨hreached, hsum⟩ := reached_iterate hf hg (p.1 + p.2)
  constructor
  · intro h
    exact le_antisymm (hreached.le hf hg h hsum.le) (h.le hf hg hreached hsum.ge)
  · intro h
    exact h ▸ hreached

end Staircase
