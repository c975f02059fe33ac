/-
Windows that slide over the natural numbers, and numbers that are sent modulo a power of two.

A window of `w` bits remembers which of the last `w` numbers below its top have been seen. When the
top moves up the bits move up with it, and what leaves the window is forgotten.
-/
import Mathlib.Algebra.Group.Nat.Defs
import Mathlib.Data.Set.Insert
import Mathlib.Tactic.Common

namespace BitVec

variable {w : ℕ} {bits : BitVec w} {top : ℕ} {seen : Set ℕ}

/-- Bit `i` says whether the number `i + 1` below the top has been seen. -/
def Tracks (bits : BitVec w) (top : ℕ) (seen : Set ℕ) : Prop :=
  ∀ i < w, bits.getLsbD i = true ↔ i < top ∧ top - 1 - i ∈ seen

lemma Tracks.congr {seen' : Set ℕ} (h : bits.Tracks top seen)
    (hs : ∀ n < top, n ∈ seen ↔ n ∈ seen') :
    bits.Tracks top seen' := by
  intro i hi
  rw [h i hi]
  refine and_congr_right fun hlt => hs _ ?_
  omega

lemma tracks_zero (h : ∀ n ∈ seen, n + w < top ∨ top ≤ n) : (0#w).Tracks top seen := by
  intro i hi
  rw [getLsbD_zero]
  refine iff_of_false Bool.false_ne_true ?_
  rintro ⟨hlt, hmem⟩
  rcases h _ hmem with hlow | hhigh <;> omega

lemma getLsbD_one_shiftLeft {i j : ℕ} (hi : i < w) :
    (1#w <<< j).getLsbD i = decide (i = j) := by
  rw [getLsbD_shiftLeft, getLsbD_one]
  by_cases h : i < j
  · have hne : i ≠ j := by omega
    simp [h, hne]
  by_cases heq : i = j
  · simp [heq]
    omega
  · have hsub : i - j ≠ 0 := by omega
    simp [heq, hsub]

lemma and_one_shiftLeft_eq_zero (bits : BitVec w) {i : ℕ} (hi : i < w) :
    bits &&& (1#w <<< i) = 0#w ↔ bits.getLsbD i = false := by
  constructor
  · intro h
    have hbit := congrArg (fun x => x.getLsbD i) h
    simpa [getLsbD_one_shiftLeft hi] using hbit
  intro h
  apply eq_of_getLsbD_eq
  intro j hj
  rw [getLsbD_and, getLsbD_one_shiftLeft hj, getLsbD_zero]
  by_cases hji : j = i
  · rw [hji, h, Bool.false_and]
  · simp [hji]

lemma Tracks.getLsbD_iff (h : bits.Tracks top seen) {n : ℕ} (hn : n < top) (hreach : top ≤ n + w) :
    bits.getLsbD (top - 1 - n) = true ↔ n ∈ seen := by
  rw [h (top - 1 - n) (by omega)]
  have hback : top - 1 - (top - 1 - n) = n := by omega
  rw [hback]
  exact and_iff_right (by omega)

/-- **The window moves up**, and one of the numbers that it passes has been seen. -/
lemma Tracks.shift (h : bits.Tracks top seen) (hseen : ∀ n ∈ seen, n < top) {d j : ℕ} (hj : j < d) :
    ((bits <<< d) ||| (1#w <<< j)).Tracks (top + d) (insert (top + d - 1 - j) seen) := by
  intro i hi
  rw [getLsbD_or, getLsbD_one_shiftLeft hi, getLsbD_shiftLeft, Bool.or_eq_true, decide_eq_true_eq,
    Set.mem_insert_iff]
  by_cases hid : i < d
  · -- a number that the window passes
    have hnew : top + d - 1 - i ∉ seen := fun hmem => by
      have := hseen _ hmem
      omega
    have hold : (decide (i < w) && !decide (i < d) && bits.getLsbD (i - d)) = false := by simp [hid]
    rw [hold]
    simp only [Bool.false_eq_true, false_or, hnew, or_false]
    constructor
    · rintro rfl
      exact ⟨by omega, rfl⟩
    · rintro ⟨hlt, heq⟩
      omega
  · -- a number that was in the window before
    have hold : (decide (i < w) && !decide (i < d) && bits.getLsbD (i - d)) =
      bits.getLsbD (i - d) := by
      simp [hid, hi]
    have hne : i ≠ j := by omega
    rw [hold, h (i - d) (by omega)]
    have hsame : top + d - 1 - i = top - 1 - (i - d) := by omega
    rw [hsame]
    constructor
    · rintro (⟨hlt, hmem⟩ | heq)
      · exact ⟨by omega, .inr hmem⟩
      · exact absurd heq hne
    · rintro ⟨hlt, heq | hmem⟩
      · omega
      · exact .inl ⟨by omega, hmem⟩

lemma Tracks.mark (h : bits.Tracks top seen) {n : ℕ} (hn : n < top) :
    (bits ||| (1#w <<< (top - 1 - n))).Tracks top (insert n seen) := by
  intro i hi
  rw [getLsbD_or, getLsbD_one_shiftLeft hi, Bool.or_eq_true, decide_eq_true_eq, h i hi,
    Set.mem_insert_iff]
  constructor
  · rintro (⟨hlt, hmem⟩ | rfl)
    · exact ⟨hlt, .inr hmem⟩
    · exact ⟨by omega, .inl (by omega)⟩
  · rintro ⟨hlt, heq | hmem⟩
    · exact .inr (by omega)
    · exact .inl ⟨hlt, hmem⟩

/-! ### Numbers modulo a power of two -/

lemma toNat_ofNat_sub {a b : ℕ} (hle : b ≤ a) (hlt : a - b < 2 ^ w) :
    (BitVec.ofNat w a - BitVec.ofNat w b).toNat = a - b := by
  have hsplit : BitVec.ofNat w a = BitVec.ofNat w b + BitVec.ofNat w (a - b) := by
    rw [← ofNat_add]
    congr 1
    omega
  rw [hsplit, BitVec.add_comm, BitVec.add_sub_cancel, toNat_ofNat, Nat.mod_eq_of_lt hlt]

lemma ofNat_inj_of_near {a b : ℕ} (h : BitVec.ofNat w a = BitVec.ofNat w b) (hab : a < b + 2 ^ w)
    (hba : b < a + 2 ^ w) : a = b := by
  rcases Nat.le_total b a with hle | hle
  · have hsub := toNat_ofNat_sub (w := w) hle (by omega)
    rw [h, BitVec.sub_self] at hsub
    simp at hsub
    omega
  · have hsub := toNat_ofNat_sub (w := w) hle (by omega)
    rw [h, BitVec.sub_self] at hsub
    simp at hsub
    omega

end BitVec
