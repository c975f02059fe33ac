/-
The buckets along a ray (`bucketsAlongRay` in `pkg/spatial/raycast.go`), in exact arithmetic.

The walk leaves a bucket through the side that the ray crosses first, and through the upper or lower
one where it goes through a corner. So it lists the buckets whose column and row the ray is in at
once, where at a corner the row changes first (`mem_bucketsAlongRay_iff`).

There is one exception. A ray that goes right and down and ends in the corner of a bucket leaves the
row of its last bucket just when it would come into its column: the walk passes by the last bucket
(`last_notMem_of_corner`) and only stops after 4096 steps.
-/
import Mathlib
import Mmokit.Library.Staircase
import Mmokit.Spatial.Grid

namespace Mmokit.Spatial

open Staircase

variable {K : Type*} [Field K] [LinearOrder K]

/-- The loop of the walk, with the crossings that come next on the two axes. -/
def walk (stop step : ℤ × ℤ) (tDelta : WithTop K × WithTop K) :
    ℕ → ℤ × ℤ → WithTop K × WithTop K → List (ℤ × ℤ)
  | 0, _, _ => []
  | n + 1, k, t =>
    let (k', t') := if t.1 < t.2 then ((k.1 + step.1, k.2), (t.1 + tDelta.1, t.2))
      else ((k.1, k.2 + step.2), (t.1, t.2 + tDelta.2))
    k' :: if k' = stop then [] else walk stop step tDelta n k' t'

/-- The buckets in which a ray looks; an infinite `tMax` is `⊤`. -/
def bucketsAlongRay [FloorRing K] (size : K) (src dst : K × K) : List (ℤ × ℤ) :=
  let k₀ := bucketKey size src.1 src.2
  let k₁ := bucketKey size dst.1 dst.2
  let step (d : K) : ℤ := if d < 0 then -1 else 1
  let tMax (k : ℤ) (x d : K) : WithTop K :=
    if d = 0 then ⊤ else ↑((((k + (step d + 1) / 2 : ℤ) : K) * size - x) / d)
  let tDelta (d : K) : WithTop K := if d = 0 then ⊤ else ↑(size / |d|)
  let dx := dst.1 - src.1
  let dy := dst.2 - src.2
  k₀ :: if k₀ = k₁ then [] else
    walk k₁ (step dx, step dy) (tDelta dx, tDelta dy) 4096 k₀
      (tMax k₀.1 src.1 dx, tMax k₀.2 src.2 dy)

/-! ### The crossings on one axis -/

/-- The direction of a ray on an axis. -/
def stepOf (d : K) : ℤ := if d < 0 then -1 else 1

/-- Where on the ray the bucket `k` of an axis is left. -/
def leaves (size x d : K) (k : ℤ) : WithTop K :=
  if d = 0 then ⊤ else ↑((((k + (stepOf d + 1) / 2 : ℤ) : K) * size - x) / d)

/-- How much of the ray lies between two crossings. -/
def leavesDelta (size d : K) : WithTop K := if d = 0 then ⊤ else ↑(size / |d|)

section Axis

variable [IsStrictOrderedRing K] {size x d t : K} {k : ℤ}

lemma leaves_add_stepOf (size x d : K) (k : ℤ) :
    leaves size x d (k + stepOf d) = leaves size x d k + leavesDelta size d := by
  unfold leaves leavesDelta
  split_ifs with hd
  · rfl
  · rw [← WithTop.coe_add, WithTop.coe_inj]
    rcases lt_or_gt_of_ne hd with h | h
    · simp only [stepOf, if_pos h, abs_of_neg h]
      push_cast
      field_simp
      ring
    · simp only [stepOf, if_neg h.not_gt, abs_of_pos h]
      push_cast
      field_simp
      ring

lemma le_leaves_iff (hd : d ≠ 0) : ↑t ≤ leaves size x d k ↔
    if d < 0 then k * size ≤ x + t * d else x + t * d ≤ (k + 1) * size := by
  rw [leaves, if_neg hd, WithTop.coe_le_coe]
  rcases lt_or_gt_of_ne hd with h | h
  · rw [if_pos h, le_div_iff_of_neg h, stepOf, if_pos h, show k + (-1 + 1) / 2 = k by omega]
    exact sub_le_iff_le_add'
  · rw [if_neg h.not_gt, le_div_iff₀ h, stepOf, if_neg h.not_gt,
      show k + (1 + 1) / 2 = k + 1 by omega]
    push_cast
    exact le_sub_iff_add_le'

lemma leaves_le_iff (hd : d ≠ 0) : leaves size x d k ≤ ↑t ↔
    if d < 0 then x + t * d ≤ k * size else (k + 1) * size ≤ x + t * d := by
  rw [leaves, if_neg hd, WithTop.coe_le_coe]
  rcases lt_or_gt_of_ne hd with h | h
  · rw [if_pos h, div_le_iff_of_neg h, stepOf, if_pos h, show k + (-1 + 1) / 2 = k by omega]
    exact le_sub_iff_add_le'
  · rw [if_neg h.not_gt, div_le_iff₀ h, stepOf, if_neg h.not_gt,
      show k + (1 + 1) / 2 = k + 1 by omega]
    push_cast
    exact sub_le_iff_le_add'

variable [FloorRing K]

/-- The bucket of a coordinate. -/
def indexOf (size x : K) : ℤ := ⌊x * (1 / size)⌋

omit [IsStrictOrderedRing K] in
lemma bucketKey_eq (size : K) (src : K × K) :
    bucketKey size src.1 src.2 = (indexOf size src.1, indexOf size src.2) := rfl

lemma indexOf_spec (hsize : 0 < size) (x : K) :
    indexOf size x * size ≤ x ∧ x < (indexOf size x + 1) * size := by
  have hle := Int.floor_le (x * (1 / size))
  have hlt := Int.lt_floor_add_one (x * (1 / size))
  rw [mul_one_div, le_div_iff₀ hsize] at hle
  rw [mul_one_div, div_lt_iff₀ hsize] at hlt
  simp only [indexOf, mul_one_div]
  exact ⟨hle, hlt⟩

/-- The `a`-th bucket of the ray on an axis. -/
def bucketAt (size x d : K) (a : ℕ) : ℤ := indexOf size x + a * stepOf d

/-- The end of the `a`-th bucket. -/
def times (size x d : K) (a : ℕ) : WithTop K := leaves size x d (bucketAt size x d a)

lemma times_succ (size x d : K) (a : ℕ) :
    times size x d (a + 1) = times size x d a + leavesDelta size d := by
  rw [times, times, ← leaves_add_stepOf, bucketAt, bucketAt]
  push_cast
  ring_nf

lemma monotone_times (hsize : 0 < size) (x d : K) : Monotone (times size x d) := by
  refine monotone_nat_of_le_succ fun a => ?_
  rw [times_succ]
  refine le_add_of_nonneg_right ?_
  unfold leavesDelta
  split_ifs
  · exact le_top
  · exact WithTop.coe_nonneg.mpr (div_nonneg hsize.le (abs_nonneg _))

/-- The point is not before the bucket `k`. -/
def After (size d x : K) (k : ℤ) : Prop := if d < 0 then x ≤ (k + 1) * size else k * size ≤ x

/-- A point of the ray comes after the crossing into its `a`-th bucket. -/
lemma after_iff (hsize : 0 < size) (ht : 0 ≤ t) {a : ℕ} (ha : d = 0 → a = 0) :
    After size d (x + t * d) (bucketAt size x d a) ↔ ∀ b, a = b + 1 → times size x d b ≤ ↑t := by
  obtain ⟨hlow, hhigh⟩ := indexOf_spec hsize x
  cases a with
  | zero =>
    refine iff_of_true ?_ nofun
    unfold After bucketAt
    split_ifs with h
    · have := mul_nonpos_of_nonneg_of_nonpos ht h.le
      push_cast
      linarith
    · have := mul_nonneg ht (not_lt.mp h)
      push_cast
      linarith
  | succ a =>
    have hd : d ≠ 0 := fun h => absurd (ha h) (Nat.succ_ne_zero a)
    simp only [Nat.add_right_cancel_iff, forall_eq', times, leaves_le_iff hd, After,
      bucketAt, stepOf]
    split_ifs <;> push_cast <;> ring_nf

/-- **The column of a bucket**, with both of its sides. -/
def InColumn (size x : K) (k : ℤ) : Prop := k * size ≤ x ∧ x ≤ (k + 1) * size

/-- **The row of a bucket**, without the side through which a ray in direction `d` leaves it. -/
def InRow (size d y : K) (k : ℤ) : Prop :=
  if d < 0 then k * size < y ∧ y ≤ (k + 1) * size else k * size ≤ y ∧ y < (k + 1) * size

lemma inColumn_iff (hsize : 0 < size) (ht : 0 ≤ t) {a : ℕ} (ha : d = 0 → a = 0) :
    InColumn size (x + t * d) (bucketAt size x d a) ↔
      (∀ b, a = b + 1 → times size x d b ≤ ↑t) ∧ ↑t ≤ times size x d a := by
  rw [← after_iff hsize ht ha]
  by_cases hd : d = 0
  · obtain ⟨hlow, hhigh⟩ := indexOf_spec hsize x
    simp [times, leaves, hd, ha hd, InColumn, After, bucketAt, hlow, hhigh.le]
  · rw [times, le_leaves_iff hd, InColumn, After]
    split_ifs
    · exact and_comm
    · exact .rfl

lemma inRow_iff (hsize : 0 < size) (ht : 0 ≤ t) {a : ℕ} (ha : d = 0 → a = 0) :
    InRow size d (x + t * d) (bucketAt size x d a) ↔
      (∀ b, a = b + 1 → times size x d b ≤ ↑t) ∧ ↑t < times size x d a := by
  rw [← after_iff hsize ht ha]
  by_cases hd : d = 0
  · obtain ⟨hlow, hhigh⟩ := indexOf_spec hsize x
    simp [times, leaves, hd, ha hd, InRow, After, bucketAt, hlow, hhigh]
  · rw [times, ← not_le, leaves_le_iff hd, InRow, After]
    split_ifs
    · rw [not_le, and_comm]
    · rw [not_le]

/-! ### The way to the last bucket -/

/-- How many buckets of an axis a ray enters. -/
def moves (size x x' : K) : ℕ := (indexOf size x' - indexOf size x).natAbs

lemma indexOf_mono (hsize : 0 < size) {x x' : K} (h : x ≤ x') : indexOf size x ≤ indexOf size x' :=
  Int.floor_le_floor (mul_le_mul_of_nonneg_right h (one_div_nonneg.mpr hsize.le))

lemma bucketAt_moves (hsize : 0 < size) (x x' : K) :
    bucketAt size x (x' - x) (moves size x x') = indexOf size x' := by
  unfold bucketAt moves stepOf
  split_ifs with h
  · have := indexOf_mono hsize (sub_neg.mp h).le
    omega
  · have := indexOf_mono hsize (sub_nonneg.mp (not_lt.mp h))
    omega

omit [IsStrictOrderedRing K] in
lemma moves_eq_zero {x x' : K} (h : x' - x = 0) : moves size x x' = 0 := by
  rw [moves, sub_eq_zero.mp h, sub_self, Int.natAbs_zero]

omit [IsStrictOrderedRing K] in
lemma bucketAt_injective (size x d : K) : Function.Injective (bucketAt size x d) := by
  intro a b h
  unfold bucketAt stepOf at h
  split_ifs at h <;> omega

/-- The buckets between the first and the last one. -/
lemma mem_uIcc_iff (hsize : 0 < size) (x x' : K) : k ∈ Set.uIcc (indexOf size x) (indexOf size x') ↔
    ∃ a ≤ moves size x x', bucketAt size x (x' - x) a = k := by
  rw [Set.mem_uIcc]
  unfold bucketAt moves stepOf
  split_ifs with h
  · have := indexOf_mono hsize (sub_neg.mp h).le
    refine ⟨fun hk => ⟨(indexOf size x - k).toNat, by omega, by omega⟩, ?_⟩
    rintro ⟨a, ha, rfl⟩
    omega
  · have := indexOf_mono hsize (sub_nonneg.mp (not_lt.mp h))
    refine ⟨fun hk => ⟨(k - indexOf size x).toNat, by omega, by omega⟩, ?_⟩
    rintro ⟨a, ha, rfl⟩
    omega

/-- The ray comes into its last bucket before its end, and leaves it after. -/
lemma times_count (hsize : 0 < size) (x x' : K) :
    (∀ a, moves size x x' = a + 1 → times size x (x' - x) a ≤ (1 : K)) ∧
      ((1 : K) : WithTop K) ≤ times size x (x' - x) (moves size x x') := by
  obtain ⟨hlow, hhigh⟩ := indexOf_spec hsize x'
  rw [← inColumn_iff hsize zero_le_one moves_eq_zero, bucketAt_moves hsize, one_mul, add_sub_cancel]
  exact ⟨hlow, hhigh.le⟩

/-- The moment at which the ray comes into its `a`-th bucket. -/
lemma exists_enter (hsize : 0 < size) {x x' : K} {a : ℕ} (ha : a ≤ moves size x x') :
    ∃ e : K, 0 ≤ e ∧ e ≤ 1 ∧ (∀ b, a = b + 1 → times size x (x' - x) b = e) ∧
      ↑e ≤ times size x (x' - x) a ∧ (a = 0 → e = 0) ∧ (a ≠ 0 → ↑e < times size x (x' - x) a) := by
  have hmono := monotone_times hsize x (x' - x)
  have hstart : ((0 : K) : WithTop K) ≤ times size x (x' - x) 0 := by
    obtain ⟨hlow, hhigh⟩ := indexOf_spec hsize x
    refine ((inColumn_iff hsize le_rfl fun _ => rfl).mp ?_).2
    simp [InColumn, bucketAt, hlow, hhigh.le]
  cases a with
  | zero => exact ⟨0, le_rfl, zero_le_one, nofun, hstart, fun _ => rfl, fun h => absurd rfl h⟩
  | succ b =>
    have hd : x' - x ≠ 0 := fun h => by simp [moves_eq_zero h] at ha
    obtain ⟨e, he⟩ : ∃ e : K, times size x (x' - x) b = e := ⟨_, by rw [times, leaves, if_neg hd]⟩
    obtain ⟨c, hc⟩ := Nat.exists_eq_succ_of_ne_zero (n := moves size x x') (by omega)
    have hone := (hmono (show b ≤ c by omega)).trans ((times_count hsize x x').1 c hc)
    have hnonneg := hstart.trans (hmono (Nat.zero_le b))
    have hlt : ↑e < times size x (x' - x) (b + 1) := by
      rw [times_succ, he, leavesDelta, if_neg hd, ← WithTop.coe_add, WithTop.coe_lt_coe]
      exact lt_add_of_pos_right e (div_pos hsize (abs_pos.mpr hd))
    rw [he] at hone hnonneg
    refine ⟨e, WithTop.coe_le_coe.mp hnonneg, WithTop.coe_le_coe.mp hone, fun b' hb' => ?_, hlt.le,
      nofun, fun _ => hlt⟩
    rw [← Nat.succ.inj hb', he]

end Axis

/-! ### The walk -/

section Walk

variable {step k₀ : ℤ × ℤ} {stop : ℤ × ℤ} {tDelta : WithTop K × WithTop K} {f g : ℕ → WithTop K}
  {key : ℕ × ℕ → ℤ × ℤ}

/-- The walk follows the staircase of the crossings, until it comes to the last bucket. -/
lemma mem_walk_iff (hright : ∀ a b, key (a + 1, b) = ((key (a, b)).1 + step.1, (key (a, b)).2))
    (hup : ∀ a b, key (a, b + 1) = ((key (a, b)).1, (key (a, b)).2 + step.2))
    (hf : ∀ a, f (a + 1) = f a + tDelta.1) (hg : ∀ b, g (b + 1) = g b + tDelta.2) (n : ℕ)
    (p : ℕ × ℕ) (k : ℤ × ℤ) : k ∈ walk stop step tDelta n (key p) (f p.1, g p.2) ↔
      ∃ m < n, key ((turn f g)^[m + 1] p) = k ∧ ∀ i < m, key ((turn f g)^[i + 1] p) ≠ stop := by
  induction n generalizing p with
  | zero => simp [walk]
  | succ n ih =>
    have hwalk : walk stop step tDelta (n + 1) (key p) (f p.1, g p.2) = key (turn f g p) ::
        if key (turn f g p) = stop then []
        else walk stop step tDelta n (key (turn f g p)) (f (turn f g p).1, g (turn f g p).2) := by
      obtain ⟨a, b⟩ := p
      unfold turn
      rw [walk]
      by_cases hlt : f a < g b
      · simp only [if_pos hlt, hright, hf]
      · simp only [if_neg hlt, hup, hg]
    rw [hwalk, List.mem_cons]
    constructor
    · rintro (rfl | hk)
      · exact ⟨0, Nat.succ_pos n, rfl, nofun⟩
      split_ifs at hk with hstop
      · cases hk
      obtain ⟨m, hm, hkey, hbefore⟩ := (ih _).mp hk
      refine ⟨m + 1, Nat.succ_lt_succ hm, hkey, fun i hi => ?_⟩
      cases i with
      | zero => exact hstop
      | succ i => exact hbefore i (Nat.lt_of_succ_lt_succ hi)
    · rintro ⟨m, hm, rfl, hbefore⟩
      cases m with
      | zero => exact .inl rfl
      | succ m =>
        have hfirst : key (turn f g p) ≠ stop := hbefore 0 (Nat.succ_pos m)
        rw [if_neg hfirst]
        exact .inr ((ih _).mpr ⟨m, Nat.lt_of_succ_lt_succ hm, rfl, fun i hi =>
          hbefore (i + 1) (Nat.succ_lt_succ hi)⟩)

variable [IsStrictOrderedRing K] [FloorRing K] {size : K} {src dst : K × K} {k : ℤ × ℤ}

/-- The ray goes right and down, and ends in the corner of a bucket. -/
def Corner (size : K) (src dst : K × K) : Prop :=
  (src.1 < dst.1 ∧ dst.1 = indexOf size dst.1 * size) ∧
    dst.2 < src.2 ∧ dst.2 = indexOf size dst.2 * size

/-- **The ray comes into a bucket** between the first and the last one: it is in its column and in
its row at once, or it begins there. -/
def Crosses (size : K) (src dst : K × K) (k : ℤ × ℤ) : Prop :=
  k = bucketKey size src.1 src.2 ∨
    k ∈ Set.uIcc (bucketKey size src.1 src.2) (bucketKey size dst.1 dst.2) ∧
      ∃ t, 0 ≤ t ∧ t ≤ 1 ∧ InColumn size (src.1 + t * (dst.1 - src.1)) k.1 ∧
        InRow size (dst.2 - src.2) (src.2 + t * (dst.2 - src.2)) k.2

/-- The crossings of the two axes. -/
abbrev OnWay (size : K) (src dst : K × K) (p : ℕ × ℕ) : Prop :=
  Reached (times size src.1 (dst.1 - src.1)) (times size src.2 (dst.2 - src.2)) p

/-- The bucket at a place of the staircase. -/
def keyAt (size : K) (src dst : K × K) (p : ℕ × ℕ) : ℤ × ℤ :=
  (bucketAt size src.1 (dst.1 - src.1) p.1, bucketAt size src.2 (dst.2 - src.2) p.2)

/-- The place of the last bucket. -/
def goal (size : K) (src dst : K × K) : ℕ × ℕ := (moves size src.1 dst.1, moves size src.2 dst.2)

lemma keyAt_goal (hsize : 0 < size) (src dst : K × K) :
    keyAt size src dst (goal size src dst) = bucketKey size dst.1 dst.2 :=
  Prod.ext (bucketAt_moves hsize _ _) (bucketAt_moves hsize _ _)

omit [IsStrictOrderedRing K] in
lemma keyAt_zero (size : K) (src dst : K × K) :
    keyAt size src dst (0, 0) = bucketKey size src.1 src.2 := by
  simp [keyAt, bucketAt, bucketKey_eq]

omit [IsStrictOrderedRing K] in
lemma keyAt_injective (size : K) (src dst : K × K) : Function.Injective (keyAt size src dst) :=
  fun _ _ h => Prod.ext (bucketAt_injective _ _ _ (Prod.ext_iff.mp h).1)
    (bucketAt_injective _ _ _ (Prod.ext_iff.mp h).2)

/-- The last bucket is on the way, unless the ray ends in a corner. -/
lemma onWay_goal (hsize : 0 < size) (hcorner : ¬ Corner size src dst) :
    OnWay size src dst (goal size src dst) := by
  obtain ⟨hinX, houtX⟩ := times_count hsize src.1 dst.1
  obtain ⟨hinY, houtY⟩ := times_count hsize src.2 dst.2
  refine ⟨fun a ha => lt_of_not_ge fun hge => hcorner ?_, fun b hb => (hinY b hb).trans houtX⟩
  -- both are crossed at the end of the ray
  have hx := houtY.trans hge
  have hy := hge.trans (hinX a ha)
  obtain ⟨hlowX, hhighX⟩ := indexOf_spec hsize dst.1
  obtain ⟨hlowY, hhighY⟩ := indexOf_spec hsize dst.2
  have hdx : dst.1 - src.1 ≠ 0 := fun h => by simp [goal, moves_eq_zero h] at ha
  have hdy : dst.2 - src.2 ≠ 0 := fun h => by simp [times, leaves, h] at hy
  have hlast := bucketAt_moves hsize src.1 dst.1
  rw [show moves size src.1 dst.1 = a + 1 from ha] at hlast
  rw [times, le_leaves_iff hdx, one_mul, add_sub_cancel] at hx
  rw [times, show (goal size src dst).2 = moves size src.2 dst.2 from rfl, bucketAt_moves hsize,
    leaves_le_iff hdy, one_mul, add_sub_cancel] at hy
  unfold bucketAt stepOf at hlast hx
  split_ifs at hlast hx hy with hleft hdown hdown
  · rw [← hlast] at hhighX
    push_cast at hhighX hx
    linarith
  · rw [← hlast] at hhighX
    push_cast at hhighX hx
    linarith
  · refine ⟨⟨sub_pos.mp (lt_of_le_of_ne (not_lt.mp hleft) hdx.symm), le_antisymm ?_ hlowX⟩,
      sub_neg.mp hdown, le_antisymm hy hlowY⟩
    rw [← hlast]
    push_cast at hx ⊢
    linarith
  · linarith

/-- A ray that ends in a corner passes by its last bucket. -/
lemma not_onWay_goal (hsize : 0 < size) (hcorner : Corner size src dst) :
    ¬ OnWay size src dst (goal size src dst) := by
  obtain ⟨⟨hright, hsideX⟩, hdown, hsideY⟩ := hcorner
  have hlow := (indexOf_spec hsize src.1).1
  have hlt : indexOf size src.1 < indexOf size dst.1 := by
    have hmul : (indexOf size src.1 : K) * size < indexOf size dst.1 * size := by
      rw [← hsideX]
      exact hlow.trans_lt hright
    exact_mod_cast lt_of_mul_lt_mul_right hmul hsize.le
  obtain ⟨a, ha⟩ :=
    Nat.exists_eq_succ_of_ne_zero (n := moves size src.1 dst.1) (by unfold moves; omega)
  have hlast := bucketAt_moves hsize src.1 dst.1
  intro h
  refine absurd (h.right a ha) (not_lt.mpr (le_trans (b := ((1 : K) : WithTop K)) ?_ ?_))
  · rw [times, show (goal size src dst).2 = moves size src.2 dst.2 from rfl, bucketAt_moves hsize,
      leaves_le_iff (sub_neg.mpr hdown).ne, if_pos (sub_neg.mpr hdown), one_mul, add_sub_cancel]
    exact hsideY.le
  · rw [times, le_leaves_iff (sub_pos.mpr hright).ne', if_neg (sub_pos.mpr hright).not_gt, one_mul,
      add_sub_cancel]
    rw [ha, bucketAt, stepOf, if_neg (sub_pos.mpr hright).not_gt] at hlast
    rw [bucketAt, stepOf, if_neg (sub_pos.mpr hright).not_gt, hsideX, ← hlast]
    push_cast
    linarith

/-- The walk, as places of the staircase. -/
lemma mem_bucketsAlongRay_iff_turns (hsize : 0 < size) : k ∈ bucketsAlongRay size src dst ↔
    keyAt size src dst (0, 0) = k ∨ goal size src dst ≠ (0, 0) ∧ ∃ m < 4096,
      keyAt size src dst ((turn (times size src.1 (dst.1 - src.1))
        (times size src.2 (dst.2 - src.2)))^[m + 1] (0, 0)) = k ∧
      ∀ i < m, (turn (times size src.1 (dst.1 - src.1))
        (times size src.2 (dst.2 - src.2)))^[i + 1] (0, 0) ≠ goal size src dst := by
  have hbuckets : bucketsAlongRay size src dst = keyAt size src dst (0, 0) ::
      if keyAt size src dst (0, 0) = keyAt size src dst (goal size src dst) then [] else
        walk (keyAt size src dst (goal size src dst))
          (stepOf (dst.1 - src.1), stepOf (dst.2 - src.2))
          (leavesDelta size (dst.1 - src.1), leavesDelta size (dst.2 - src.2)) 4096
          (keyAt size src dst (0, 0)) (times size src.1 (dst.1 - src.1) 0,
            times size src.2 (dst.2 - src.2) 0) := by
    rw [keyAt_goal hsize, keyAt_zero]
    simp only [times, bucketAt, Nat.cast_zero, zero_mul, add_zero]
    rfl
  have hinj := keyAt_injective size src dst
  rw [hbuckets, List.mem_cons]
  refine or_congr eq_comm ?_
  split_ifs with hsame <;> rw [hinj.eq_iff] at hsame
  · exact iff_of_false List.not_mem_nil fun h => h.1 hsame.symm
  · refine (mem_walk_iff (by simp [keyAt, bucketAt, add_mul, add_assoc])
      (by simp [keyAt, bucketAt, add_mul, add_assoc]) (times_succ _ _ _) (times_succ _ _ _) _ (0, 0)
      k).trans ?_
    simp only [hinj.ne_iff, ne_eq, Ne.symm hsame, not_false_eq_true, true_and]

/-- The last bucket is missed if the ray ends in a corner. -/
theorem last_notMem_of_corner (hsize : 0 < size) (hcorner : Corner size src dst) :
    bucketKey size dst.1 dst.2 ∉ bucketsAlongRay size src dst := by
  have hf := monotone_times hsize src.1 (dst.1 - src.1)
  have hg := monotone_times hsize src.2 (dst.2 - src.2)
  have hgoal := not_onWay_goal hsize hcorner
  rw [mem_bucketsAlongRay_iff_turns hsize, ← keyAt_goal hsize src dst]
  simp only [(keyAt_injective size src dst).eq_iff]
  rintro (hzero | ⟨-, m, -, hm, -⟩)
  · exact hgoal (hzero ▸ reached_zero)
  · exact hgoal (hm ▸ (reached_iterate hf hg (m + 1)).1)

lemma mem_bucketsAlongRay_iff_onWay (hsize : 0 < size) (hcorner : ¬ Corner size src dst)
    (hnear : (goal size src dst).1 + (goal size src dst).2 ≤ 4096) :
    k ∈ bucketsAlongRay size src dst ↔
      ∃ p ≤ goal size src dst, OnWay size src dst p ∧ keyAt size src dst p = k := by
  have hf := monotone_times hsize src.1 (dst.1 - src.1)
  have hg := monotone_times hsize src.2 (dst.2 - src.2)
  have hgoal := onWay_goal hsize hcorner
  have hsum_pos : ∀ {p : ℕ × ℕ}, p ≠ (0, 0) → p.1 + p.2 ≠ 0 := fun hp h =>
    hp (Prod.ext (by dsimp only; omega) (by dsimp only; omega))
  rw [mem_bucketsAlongRay_iff_turns hsize]
  constructor
  · rintro (rfl | ⟨hpos, m, -, rfl, hbefore⟩)
    · exact ⟨(0, 0), ⟨Nat.zero_le _, Nat.zero_le _⟩, reached_zero, rfl⟩
    obtain ⟨hreached, hsum⟩ := reached_iterate hf hg (m + 1)
    refine ⟨_, hreached.le hf hg hgoal ?_, hreached, rfl⟩
    -- the walk does not go past the last bucket
    rw [hsum]
    by_contra! hlt
    have := hsum_pos hpos
    refine hbefore ((goal size src dst).1 + (goal size src dst).2 - 1) (by omega) ?_
    rw [Nat.sub_add_cancel (by omega), (reached_iff hf hg).mp hgoal]
  · rintro ⟨p, hle, hp, rfl⟩
    by_cases hzero : p = (0, 0)
    · exact .inl (by rw [hzero])
    have hpos := hsum_pos hzero
    have hsum : p.1 + p.2 ≤ (goal size src dst).1 + (goal size src dst).2 :=
      Nat.add_le_add hle.1 hle.2
    refine .inr ⟨fun h => ?_, p.1 + p.2 - 1, by omega, ?_, fun i hi h => ?_⟩
    · rw [h] at hsum
      exact hpos (Nat.le_zero.mp hsum)
    · rw [Nat.sub_add_cancel (by omega), (reached_iff hf hg).mp hp]
    · have hsum' := (reached_iterate hf hg (i + 1)).2
      rw [h] at hsum'
      omega

/-- A place is on the way exactly if the ray is in its column and in its row at once. -/
lemma onWay_iff (hsize : 0 < size) {p : ℕ × ℕ} (hle : p ≤ goal size src dst) (hzero : p ≠ (0, 0)) :
    OnWay size src dst p ↔ ∃ t, 0 ≤ t ∧ t ≤ 1 ∧
      InColumn size (src.1 + t * (dst.1 - src.1)) (keyAt size src dst p).1 ∧
      InRow size (dst.2 - src.2) (src.2 + t * (dst.2 - src.2)) (keyAt size src dst p).2 := by
  have hx : dst.1 - src.1 = 0 → p.1 = 0 :=
    fun h => Nat.le_zero.mp (hle.1.trans (moves_eq_zero h).le)
  have hy : dst.2 - src.2 = 0 → p.2 = 0 :=
    fun h => Nat.le_zero.mp (hle.2.trans (moves_eq_zero h).le)
  constructor
  · intro h
    -- both are entered at the later of the two moments
    obtain ⟨e₁, hpos₁, hone₁, hin₁, hout₁, hzero₁, -⟩ := exists_enter hsize hle.1
    obtain ⟨e₂, hpos₂, hone₂, hin₂, -, hzero₂, hlt₂⟩ := exists_enter hsize hle.2
    have hcol : ↑e₂ ≤ times size src.1 (dst.1 - src.1) p.1 := by
      rcases Nat.eq_zero_or_eq_succ_pred p.2 with hb | hb
      · rw [hzero₂ hb]
        exact (WithTop.coe_le_coe.mpr hpos₁).trans hout₁
      · exact hin₂ _ hb ▸ h.up _ hb
    have hrow : ↑e₁ < times size src.2 (dst.2 - src.2) p.2 ∧
        ↑e₂ < times size src.2 (dst.2 - src.2) p.2 := by
      rcases Nat.eq_zero_or_eq_succ_pred p.1 with ha | ha
      · have hb : p.2 ≠ 0 := fun hb => hzero (Prod.ext ha hb)
        rw [hzero₁ ha]
        exact ⟨(WithTop.coe_le_coe.mpr hpos₂).trans_lt (hlt₂ hb), hlt₂ hb⟩
      · have hlt : ↑e₁ < times size src.2 (dst.2 - src.2) p.2 := hin₁ _ ha ▸ h.right _ ha
        refine ⟨hlt, ?_⟩
        by_cases hb : p.2 = 0
        · rw [hzero₂ hb]
          exact (WithTop.coe_le_coe.mpr hpos₁).trans_lt hlt
        · exact hlt₂ hb
    refine ⟨max e₁ e₂, le_max_of_le_left hpos₁, max_le hone₁ hone₂,
      (inColumn_iff hsize (le_max_of_le_left hpos₁) hx).mpr ⟨fun a ha => ?_, ?_⟩,
      (inRow_iff hsize (le_max_of_le_left hpos₁) hy).mpr ⟨fun b hb => ?_, ?_⟩⟩
    · rw [hin₁ a ha]
      exact WithTop.coe_le_coe.mpr (le_max_left _ _)
    · rw [WithTop.coe_max]
      exact max_le hout₁ hcol
    · rw [hin₂ b hb]
      exact WithTop.coe_le_coe.mpr (le_max_right _ _)
    · rw [WithTop.coe_max]
      exact max_lt hrow.1 hrow.2
  · rintro ⟨t, hpos, -, hcol, hrow⟩
    obtain ⟨hinX, houtX⟩ := (inColumn_iff hsize hpos hx).mp hcol
    obtain ⟨hinY, houtY⟩ := (inRow_iff hsize hpos hy).mp hrow
    exact ⟨fun a ha => (hinX a ha).trans_lt houtY, fun b hb => (hinY b hb).trans houtX⟩

/-- **The buckets along a ray** are those that the ray comes into, unless it ends in a corner. -/
theorem mem_bucketsAlongRay_iff (hsize : 0 < size) (hcorner : ¬ Corner size src dst)
    (hnear : (goal size src dst).1 + (goal size src dst).2 ≤ 4096) :
    k ∈ bucketsAlongRay size src dst ↔ Crosses size src dst k := by
  rw [mem_bucketsAlongRay_iff_onWay hsize hcorner hnear, Crosses, bucketKey_eq size dst,
    bucketKey_eq size src, ← Set.uIcc_prod_uIcc, Set.mem_prod, mem_uIcc_iff hsize,
      mem_uIcc_iff hsize]
  constructor
  · rintro ⟨p, hle, hp, rfl⟩
    by_cases hzero : p = (0, 0)
    · exact .inl (hzero ▸ keyAt_zero size src dst)
    · exact .inr ⟨⟨⟨p.1, hle.1, rfl⟩, p.2, hle.2, rfl⟩, (onWay_iff hsize hle hzero).mp hp⟩
  · rintro (rfl | ⟨⟨⟨a, ha, hka⟩, b, hb, hkb⟩, hcross⟩)
    · exact ⟨(0, 0), ⟨Nat.zero_le _, Nat.zero_le _⟩, reached_zero, keyAt_zero size src dst⟩
    obtain rfl : keyAt size src dst (a, b) = k := Prod.ext hka hkb
    refine ⟨(a, b), ⟨ha, hb⟩, ?_, rfl⟩
    by_cases hzero : (a, b) = (0, 0)
    · exact hzero ▸ reached_zero
    · exact (onWay_iff hsize ⟨ha, hb⟩ hzero).mpr hcross

end Walk

end Mmokit.Spatial
