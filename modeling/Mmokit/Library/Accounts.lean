/-
Accounts of fixed width.

Accounts hold integers of a fixed width, and amounts are added to them one after another. An account
that can take all its credits without running over, and all its debits without running under, holds
in the end what it had plus what was posted to it, whatever the order of the postings.
-/
import Mathlib.Algebra.BigOperators.Group.Finset.Piecewise
import Mathlib.Algebra.Order.BigOperators.Group.List
import Mathlib.Tactic.Linarith

namespace Accounts

open List

/-- Addition is exact as long as the sum lies within the width. -/
structure FixedWidth {α : Type*} [Add α] (toInt : α → ℤ) (bound : ℤ) : Prop where
  add : ∀ {a b : α}, -bound ≤ toInt a + toInt b → toInt a + toInt b < bound →
    toInt (a + b) = toInt a + toInt b

lemma fixedWidth_int32 : FixedWidth Int32.toInt (2 ^ 31) where
  add {a b} hl hu := by
    rw [Int32.toInt_add]
    exact Int.bmod_eq_of_le (by omega) (by omega)

lemma fixedWidth_int64 : FixedWidth Int64.toInt (2 ^ 63) where
  add {a b} hl hu := by
    rw [Int64.toInt_add]
    exact Int.bmod_eq_of_le (by omega) (by omega)

/-- `x` stays within the width when `credit` is added to it and `debit` is taken from it, in any
order. -/
def InRange (bound x credit debit : ℤ) : Prop := -bound ≤ x - debit ∧ x + credit < bound

instance (bound x credit debit : ℤ) : Decidable (InRange bound x credit debit) :=
  inferInstanceAs (Decidable (_ ∧ _))

lemma InRange.mono {bound x credit debit credit' debit' : ℤ} (h : InRange bound x credit debit)
    (hcredit : credit' ≤ credit) (hdebit : debit' ≤ debit) : InRange bound x credit' debit' := by
  obtain ⟨hl, hu⟩ := h
  exact ⟨by linarith, by linarith⟩

variable {κ α : Type*} [DecidableEq κ] {toInt : α → ℤ} {bound : ℤ}

def posted (toInt : α → ℤ) (es : List (κ × α)) (k : κ) : ℤ :=
  (es.map fun e => if e.1 = k then toInt e.2 else 0).sum

def credits (toInt : α → ℤ) (es : List (κ × α)) (k : κ) : ℤ :=
  (es.map fun e => if e.1 = k then max (toInt e.2) 0 else 0).sum

def debits (toInt : α → ℤ) (es : List (κ × α)) (k : κ) : ℤ :=
  (es.map fun e => if e.1 = k then max (-toInt e.2) 0 else 0).sum

@[simp] lemma posted_nil (k : κ) : posted toInt ([] : List (κ × α)) k = 0 := rfl
@[simp] lemma posted_cons (e : κ × α) (es : List (κ × α)) (k : κ) :
    posted toInt (e :: es) k = (if e.1 = k then toInt e.2 else 0) + posted toInt es k := by
  simp [posted]

@[simp] lemma credits_nil (k : κ) : credits toInt ([] : List (κ × α)) k = 0 := rfl

@[simp] lemma credits_cons (e : κ × α) (es : List (κ × α)) (k : κ) :
    credits toInt (e :: es) k =
      (if e.1 = k then max (toInt e.2) 0 else 0) + credits toInt es k := by
  simp [credits]

@[simp] lemma credits_append (es es' : List (κ × α)) (k : κ) :
    credits toInt (es ++ es') k = credits toInt es k + credits toInt es' k := by
  simp [credits]

@[simp] lemma debits_nil (k : κ) : debits toInt ([] : List (κ × α)) k = 0 := rfl

@[simp] lemma debits_cons (e : κ × α) (es : List (κ × α)) (k : κ) :
    debits toInt (e :: es) k = (if e.1 = k then max (-toInt e.2) 0 else 0) + debits toInt es k := by
  simp [debits]

@[simp] lemma debits_append (es es' : List (κ × α)) (k : κ) :
    debits toInt (es ++ es') k = debits toInt es k + debits toInt es' k := by
  simp [debits]

lemma credits_nonneg (es : List (κ × α)) (k : κ) : 0 ≤ credits toInt es k := by
  refine sum_nonneg fun x hx => ?_
  obtain ⟨e, -, rfl⟩ := mem_map.mp hx
  split
  · exact le_max_right _ _
  · exact le_rfl

lemma debits_nonneg (es : List (κ × α)) (k : κ) : 0 ≤ debits toInt es k := by
  refine sum_nonneg fun x hx => ?_
  obtain ⟨e, -, rfl⟩ := mem_map.mp hx
  split
  · exact le_max_right _ _
  · exact le_rfl

lemma posted_eq (es : List (κ × α)) (k : κ) :
    posted toInt es k = credits toInt es k - debits toInt es k := by
  induction es with
  | nil => simp
  | cons e es ih =>
    have hmax : max (toInt e.2) 0 - max (-toInt e.2) 0 = toInt e.2 := by omega
    rw [posted_cons, credits_cons, debits_cons, ih]
    split
    · linarith
    · omega

variable {es : List (κ × α)}

lemma credits_le (h : ∀ e ∈ es, 0 ≤ toInt e.2) (k : κ) :
    credits toInt es k ≤ (es.map fun e => toInt e.2).sum := by
  refine sum_le_sum fun e he => ?_
  have hpos := h e he
  split
  · omega
  · exact hpos

lemma debits_eq_zero (h : ∀ e ∈ es, 0 ≤ toInt e.2) (k : κ) : debits toInt es k = 0 := by
  have hzero : ∀ e ∈ es, (if e.1 = k then max (-toInt e.2) 0 else 0) = 0 := by
    intro e he
    have hpos := h e he
    split
    · omega
    · rfl
  rw [debits, map_congr_left hzero]
  simp

variable {k : κ}

lemma credits_of_ne (h : ∀ e ∈ es, e.1 ≠ k) : credits toInt es k = 0 := by
  rw [credits, map_congr_left fun e he => if_neg (h e he)]
  simp

lemma debits_of_ne (h : ∀ e ∈ es, e.1 ≠ k) : debits toInt es k = 0 := by
  rw [debits, map_congr_left fun e he => if_neg (h e he)]
  simp

lemma sum_posted {s : Finset κ} (hmem : ∀ e ∈ es, e.1 ∈ s) :
    ∑ k ∈ s, posted toInt es k = (es.map fun e => toInt e.2).sum := by
  induction es with
  | nil => simp
  | cons e es ih =>
    have hrest := ih fun e' he' => hmem e' (mem_cons_of_mem _ he')
    simp only [posted_cons, Finset.sum_add_distrib, hrest, map_cons, sum_cons]
    rw [Finset.sum_ite_eq s e.1 fun _ => toInt e.2, if_pos (hmem e mem_cons_self)]

variable [Add α]

def post (f : κ → α) (e : κ × α) : κ → α := Function.update f e.1 (f e.1 + e.2)

/-- **One account**: it holds what it had plus what was posted to it. -/
theorem foldl_post (h : FixedWidth toInt bound) {f : κ → α}
    (hroom : InRange bound (toInt (f k)) (credits toInt es k) (debits toInt es k)) :
    toInt (es.foldl post f k) = toInt (f k) + posted toInt es k := by
  induction es generalizing f with
  | nil => simp
  | cons e es ih =>
    rw [credits_cons, debits_cons] at hroom
    rw [foldl_cons, posted_cons, ← add_assoc]
    by_cases hk : e.1 = k
    · -- the posting is to this account: there is room for it alone and for the rest after it
      obtain ⟨hl, hu⟩ := hroom
      rw [if_pos hk] at hl hu
      have hcredits : 0 ≤ credits toInt es k := credits_nonneg es k
      have hdebits : 0 ≤ debits toInt es k := debits_nonneg es k
      have hpost : toInt (post f e k) = toInt (f k) + toInt e.2 := by
        subst hk
        rw [post, Function.update_self]
        exact h.add (by omega) (by omega)
      rw [if_pos hk, ← hpost]
      exact ih ⟨by omega, by omega⟩
    · have hpost : post f e k = f k := Function.update_of_ne (Ne.symm hk) _ _
      rw [if_neg hk, zero_add, if_neg hk, zero_add] at hroom
      rw [if_neg hk, add_zero, ← hpost]
      exact ih (hpost.symm ▸ hroom)

end Accounts
