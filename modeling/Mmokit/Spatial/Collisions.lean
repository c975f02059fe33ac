/-
The broad phase of the hash grid (`QueryCollisions` in `pkg/spatial/grid.go`).

Each bucket is compared with itself and with the buckets at `(1, 0)`, `(0, 1)` and `(1, 1)` from it.
Half of the eight neighbours would be four: the bucket at `(1, -1)` is never looked at, so that two
entries across such a corner are not reported (`corner_pair_missed`).
-/
import Mathlib
import Mmokit.Spatial.Grid

namespace Mmokit.Spatial

open List HashGrid

variable {K E : Type*} {size : K}

def Bucket.all (b : Bucket K E) : List (Entry K E) := b.tracked ++ b.transient

def pairs {α : Type*} : List α → List (α × α)
  | [] => []
  | a :: l => l.map (a, ·) ++ pairs l

def offsets : List (ℤ × ℤ) := [(1, 0), (0, 1), (1, 1)]

section Field

variable [Field K] [LinearOrder K]

def Entry.bound (e : Entry K E) : K :=
  if e.shape = .capsule ∧ e.radius < e.depth / (2 : ℕ) then e.depth / (2 : ℕ) else e.radius

def dist2 (a b : Entry K E) : K :=
  (a.x - b.x) * (a.x - b.x) + (a.y - b.y) * (a.y - b.y) + (a.z - b.z) * (a.z - b.z)

variable (matrix : UInt8 → Option UInt8) (overlap : Entry K E → Entry K E → Bool)

def collides (a b : Entry K E) : Bool :=
  ((matrix a.layer).any (· &&& b.layer ≠ 0) || (matrix b.layer).any (· &&& a.layer ≠ 0)) &&
    dist2 a b ≤ (a.bound + b.bound) * (a.bound + b.bound) && overlap a b

namespace HashGrid

variable (g : HashGrid E size) (order : List (ℤ × ℤ))

def queryCollisions : List (Entry K E × Entry K E) :=
  (order.flatMap fun key =>
    let all := (g.bucket key).all
    pairs all ++ offsets.flatMap fun off => all ×ˢ (g.bucket (key + off)).all).filter
      fun p => collides matrix overlap p.1 p.2

def content : List (Entry K E) := order.flatMap fun key => (g.bucket key).all

/-- **What is reported**: every pair of entries that collides, once, and no other pair. -/
def ReportsPairs : Prop :=
  ((g.queryCollisions matrix overlap order).map fun p => s(p.1, p.2)).Perm
    (((pairs (g.content order)).filter fun p => collides matrix overlap p.1 p.2).map
      fun p => s(p.1, p.2))

end HashGrid

end Field

/-- Two buckets that are the same one, or are compared. -/
def Compared (k k' : ℤ × ℤ) : Prop :=
  k = k' ∨ k' - k ∈ offsets ∨ k - k' ∈ offsets

instance (k k' : ℤ × ℤ) : Decidable (Compared k k') := inferInstanceAs (Decidable (_ ∨ _ ∨ _))

lemma sub_mem_offsets {k k' : ℤ × ℤ} (h : k' - k ∈ offsets) : k ≠ k' ∧ k - k' ∉ offsets := by
  obtain ⟨x, y⟩ := k
  obtain ⟨x', y'⟩ := k'
  simp only [offsets, mem_cons, Prod.mk_sub_mk, Prod.mk.injEq, not_mem_nil, or_false,
    ne_eq] at h ⊢
  omega

/-! ### Counting pairs -/

section Count

variable {α : Type*} {q : α → α → Bool}

def cross (q : α → α → Bool) (l l' : List α) : ℕ := (l ×ˢ l').countP fun p => q p.1 p.2

lemma cross_cons (a : α) (l l' : List α) : cross q (a :: l) l' =
    l'.countP (fun b => q a b) + cross q l l' := by
  simp [cross, product_cons, countP_append, countP_map, Function.comp_def]

@[simp] lemma cross_nil (l : List α) : cross q l [] = 0 := by simp [cross]

lemma cross_append (l l₁ l₂ : List α) : cross q l (l₁ ++ l₂) = cross q l l₁ + cross q l l₂ := by
  induction l with
  | nil => rfl
  | cons a l ih =>
    simp only [cross_cons, countP_append, ih]
    omega

lemma cross_comm (hq : ∀ a b, q a b = q b a) (l l' : List α) : cross q l l' = cross q l' l := by
  induction l' with
  | nil => simp [cross]
  | cons b l' ih =>
    have hone : cross q l [b] = l.countP (q b) := by
      clear ih
      induction l with
      | nil => rfl
      | cons a l ih => simp [cross_cons, ih, countP_cons, hq a b, add_comm]
    rw [cross_cons, ← ih, ← hone, ← cross_append, singleton_append]

lemma countP_pairs_append (l l' : List α) : (pairs (l ++ l')).countP (fun p => q p.1 p.2) =
    (pairs l).countP (fun p => q p.1 p.2) + cross q l l' +
      (pairs l').countP fun p => q p.1 p.2 := by
  induction l with
  | nil => simp [pairs, cross]
  | cons a l ih =>
    simp only [cons_append, pairs, map_append, countP_append, cross_cons, ih,
      countP_map, Function.comp_def]
    omega

variable (B : ℤ × ℤ → List α) {order : List (ℤ × ℤ)}

lemma two_mul_countP_pairs (hq : ∀ a b, q a b = q b a) (hnodup : order.Nodup) :
    2 * (pairs (order.flatMap B)).countP (fun p => q p.1 p.2) =
      2 * ∑ k ∈ order.toFinset, (pairs (B k)).countP (fun p => q p.1 p.2) +
        ∑ k ∈ order.toFinset, ∑ k' ∈ order.toFinset,
          if k = k' then 0 else cross q (B k) (B k') := by
  induction order with
  | nil => simp [pairs]
  | cons k ks ih =>
    obtain ⟨hk, hks⟩ := nodup_cons.mp hnodup
    have hk' : k ∉ ks.toFinset := by simpa using hk
    have hcross : cross q (B k) (ks.flatMap B) = ∑ k' ∈ ks.toFinset, cross q (B k) (B k') := by
      clear ih hk hk'
      induction ks with
      | nil => simp
      | cons j ks ih =>
        obtain ⟨hj, hks⟩ := nodup_cons.mp hks
        rw [flatMap_cons, cross_append, ih (by simp_all) hks, toFinset_cons,
          Finset.sum_insert (by simpa using hj)]
    have hrow : ∑ k' ∈ ks.toFinset, (if k = k' then 0 else cross q (B k) (B k')) =
        ∑ k' ∈ ks.toFinset, cross q (B k) (B k') :=
      Finset.sum_congr rfl fun k' hmem => if_neg (ne_of_mem_of_not_mem hmem hk').symm
    have hcol : ∑ k' ∈ ks.toFinset, (if k' = k then 0 else cross q (B k') (B k)) =
        ∑ k' ∈ ks.toFinset, cross q (B k) (B k') := by
      refine Finset.sum_congr rfl fun k' hmem => ?_
      rw [if_neg (ne_of_mem_of_not_mem hmem hk'), cross_comm hq]
    rw [flatMap_cons, countP_pairs_append, toFinset_cons]
    simp only [Finset.sum_insert hk', Finset.sum_add_distrib, hrow, hcol, if_true]
    have := ih hks
    omega

lemma sum_offsets (hB : ∀ k, k ∉ order → B k = []) (k : ℤ × ℤ) :
    (offsets.flatMap fun off => B k ×ˢ B (k + off)).countP (fun p => q p.1 p.2) =
      ∑ k' ∈ order.toFinset, if k' - k ∈ offsets then cross q (B k) (B k') else 0 := by
  have hone : ∀ off, ∑ k' ∈ order.toFinset, (if k' = k + off then cross q (B k) (B k') else 0) =
      cross q (B k) (B (k + off)) := by
    intro off
    rw [Finset.sum_ite_eq' order.toFinset (k + off)]
    split
    · rfl
    · next hnot => rw [hB (k + off) (by simpa using hnot), cross_nil]
  have hsplit : ∀ k', (if k' - k ∈ offsets then cross q (B k) (B k') else 0) =
      (if k' = k + (1, 0) then cross q (B k) (B k') else 0) +
        (if k' = k + (0, 1) then cross q (B k) (B k') else 0) +
        if k' = k + (1, 1) then cross q (B k) (B k') else 0 := by
    intro k'
    simp only [offsets, mem_cons, not_mem_nil, or_false, sub_eq_iff_eq_add']
    split_ifs <;> simp_all
  simp only [hsplit, Finset.sum_add_distrib, hone]
  simp [offsets, countP_append, cross, add_assoc]

lemma two_mul_pairs_eq (hq : ∀ a b, q a b = q b a) (hnodup : order.Nodup)
    (hB : ∀ k, k ∉ order → B k = []) :
    2 * (pairs (order.flatMap B)).countP (fun p => q p.1 p.2) =
      2 * (order.flatMap fun k => pairs (B k) ++ offsets.flatMap fun off =>
        B k ×ˢ B (k + off)).countP (fun p => q p.1 p.2) +
      ∑ k ∈ order.toFinset, ∑ k' ∈ order.toFinset,
        if Compared k k' then 0 else cross q (B k) (B k') := by
  have hvisited : (order.flatMap fun k => pairs (B k) ++ offsets.flatMap fun off =>
      B k ×ˢ B (k + off)).countP (fun p => q p.1 p.2) =
      ∑ k ∈ order.toFinset, (pairs (B k)).countP (fun p => q p.1 p.2) +
        ∑ k ∈ order.toFinset, ∑ k' ∈ order.toFinset,
          if k' - k ∈ offsets then cross q (B k) (B k') else 0 := by
    rw [countP_flatMap, ← Finset.sum_add_distrib, ← sum_toFinset _ hnodup]
    refine Finset.sum_congr rfl fun k _ => ?_
    rw [Function.comp_apply, countP_append, sum_offsets B hB]
  have hback : ∑ k ∈ order.toFinset, ∑ k' ∈ order.toFinset,
    (if k - k' ∈ offsets then cross q (B k) (B k') else 0) =
      ∑ k ∈ order.toFinset, ∑ k' ∈ order.toFinset,
        if k' - k ∈ offsets then cross q (B k) (B k') else 0 := by
    rw [Finset.sum_comm]
    exact Finset.sum_congr rfl fun k _ => Finset.sum_congr rfl fun k' _ => by rw [cross_comm hq]
  have hcases : ∀ k k', (if k = k' then 0 else cross q (B k) (B k')) =
      (if k' - k ∈ offsets then cross q (B k) (B k') else 0) +
        (if k - k' ∈ offsets then cross q (B k) (B k') else 0) +
        if Compared k k' then 0 else cross q (B k) (B k') := by
    intro k k'
    have hback : k - k' ∈ offsets → _ := sub_mem_offsets
    by_cases heq : k = k' <;> by_cases hu : k' - k ∈ offsets <;> by_cases hv : k - k' ∈ offsets <;>
      simp_all [Compared]
  rw [two_mul_countP_pairs B hq hnodup]
  simp only [hcases, Finset.sum_add_distrib, hback]
  omega

end Count

section Exact

variable [Field K] [LinearOrder K] {matrix : UInt8 → Option UInt8}
  {overlap : Entry K E → Entry K E → Bool} {g : HashGrid E size} {order : List (ℤ × ℤ)}

lemma collides_comm (hoverlap : ∀ a b, overlap a b = overlap b a) (a b : Entry K E) :
    collides matrix overlap a b = collides matrix overlap b a := by
  have hdist : dist2 a b = dist2 b a := by simp only [dist2]; ring
  simp only [collides, hdist, hoverlap a b, add_comm a.bound, Bool.or_comm]

lemma HashGrid.reportsPairs_iff (hoverlap : ∀ a b, overlap a b = overlap b a)
    (hnodup : order.Nodup) (horder : ∀ k, k ∈ order ↔ (g.buckets k).isSome) :
    g.ReportsPairs matrix overlap order ↔ ∀ k ∈ order, ∀ a ∈ (g.bucket k).all, ∀ k' ∈ order,
      ∀ b ∈ (g.bucket k').all, collides matrix overlap a b = true → Compared k k' := by
  classical
  have hB : ∀ k, k ∉ order → (g.bucket k).all = [] := by
    intro k hk
    have hnone : g.buckets k = none := by simpa [horder] using hk
    simp [bucket, hnone, Bucket.all]
  have hz : g.ReportsPairs matrix overlap order ↔ ∀ z : Sym2 (Entry K E),
      ∑ k ∈ order.toFinset, ∑ k' ∈ order.toFinset, (if Compared k k' then 0 else
        cross (fun a b => s(a, b) == z && collides matrix overlap a b) (g.bucket k).all
          (g.bucket k').all) = 0 := by
    rw [ReportsPairs, perm_iff_count]
    refine forall_congr' fun z => ?_
    have hcount := two_mul_pairs_eq (fun k => (g.bucket k).all)
      (q := fun a b => s(a, b) == z && collides matrix overlap a b)
      (fun a b => by rw [Sym2.eq_swap, collides_comm hoverlap]) hnodup hB
    simp only [count, countP_map, queryCollisions, content, countP_filter,
      Function.comp_def]
    omega
  simp only [hz, Finset.sum_eq_zero_iff, mem_toFinset, ite_eq_left_iff, cross,
    countP_eq_zero, Bool.and_eq_true, beq_iff_eq]
  constructor
  · intro h k hk a ha k' hk' b hb hc
    by_contra hnot
    exact h s(a, b) k hk k' hk' hnot (a, b) (mem_product.mpr ⟨ha, hb⟩) ⟨rfl, hc⟩
  · rintro h z k hk k' hk' hnot ⟨a, b⟩ hmem ⟨-, hc⟩
    obtain ⟨ha, hb⟩ := mem_product.mp hmem
    exact hnot (h k hk a ha k' hk' b hb hc)

end Exact

variable [Field K] [LinearOrder K] [FloorRing K] [DecidableEq E] {matrix : UInt8 → Option UInt8}
    {overlap : Entry K E → Entry K E → Bool}

lemma Represents.key_of_mem {g : HashGrid E size} {m : Naive K E} {k : ℤ × ℤ} {entry : Entry K E}
    (h : Represents g m) (hmem : entry ∈ (g.bucket k).all) : entry.key size = k := by
  rcases mem_append.mp hmem with hmem | hmem <;> rw [← Multiset.mem_coe] at hmem
  · rw [h.tracked] at hmem
    exact (Multiset.mem_filter.mp hmem).2
  · rw [h.transient] at hmem
    exact (Multiset.mem_filter.mp hmem).2

variable [IsStrictOrderedRing K]

omit [DecidableEq E] in
lemma floor_near (hsize : 0 < size) {x x' : K} (h : |x - x'| ≤ size) :
    |⌊x * (1 / size)⌋ - ⌊x' * (1 / size)⌋| ≤ 1 := by
  have hdiff : x * (1 / size) - x' * (1 / size) = (x - x') / size := by ring
  have hle : |x * (1 / size) - x' * (1 / size)| ≤ 1 := by
    rw [hdiff, abs_div, abs_of_pos hsize]
    exact (div_le_one hsize).mpr h
  rw [abs_le] at hle ⊢
  have h₁ := Int.floor_le_floor (by linarith : x * (1 / size) ≤ x' * (1 / size) + 1)
  have h₂ := Int.floor_le_floor (by linarith : x' * (1 / size) ≤ x * (1 / size) + 1)
  rw [Int.floor_add_one] at h₁ h₂
  omega

/-- **When all collisions are found**: exactly if no colliding pair stands in buckets that are not
compared. Where bounds are not negative and the sum of two of them is at most the bucket size, the
buckets of such a pair meet in a corner only, at `(1, -1)` from each other. -/
theorem queryCollisions_exact_iff {g : HashGrid E size} {order : List (ℤ × ℤ)}
    {m : Naive K E} (hrep : Represents g m) (hoverlap : ∀ a b, overlap a b = overlap b a)
    (hnodup : order.Nodup) (horder : ∀ k, k ∈ order ↔ (g.buckets k).isSome) :
    (g.ReportsPairs matrix overlap order ↔ ∀ a ∈ g.content order, ∀ b ∈ g.content order,
      collides matrix overlap a b = true → Compared (a.key size) (b.key size)) ∧
    (0 < size → ∀ a b : Entry K E, 0 ≤ a.bound → 0 ≤ b.bound → a.bound + b.bound ≤ size →
      collides matrix overlap a b = true → Compared (a.key size) (b.key size) ∨
        b.key size - a.key size = (1, -1) ∨ a.key size - b.key size = (1, -1)) := by
  constructor
  · have hplaced := fun k e (he : e ∈ (g.bucket k).all) => hrep.key_of_mem he
    rw [reportsPairs_iff hoverlap hnodup horder]
    simp only [content, mem_flatMap]
    constructor
    · rintro h a ⟨k, hk, ha⟩ b ⟨k', hk', hb⟩ hc
      rw [hplaced k a ha, hplaced k' b hb]
      exact h k hk a ha k' hk' b hb hc
    · intro h k hk a ha k' hk' b hb hc
      have hcompared := h a ⟨k, hk, ha⟩ b ⟨k', hk', hb⟩ hc
      rwa [hplaced k a ha, hplaced k' b hb] at hcompared
  · intro hsize a b ha hb hsum hc
    have hdist : dist2 a b ≤ (a.bound + b.bound) * (a.bound + b.bound) := by
      simp only [collides, Bool.and_eq_true, decide_eq_true_eq] at hc
      exact hc.1.2
    have hsq : dist2 a b ≤ size ^ 2 := by nlinarith
    have hx : |a.x - b.x| ≤ size := by
      refine abs_le.mpr (abs_le_of_sq_le_sq' ?_ hsize.le)
      simp only [dist2] at hsq
      nlinarith [mul_self_nonneg (a.y - b.y), mul_self_nonneg (a.z - b.z)]
    have hy : |a.y - b.y| ≤ size := by
      refine abs_le.mpr (abs_le_of_sq_le_sq' ?_ hsize.le)
      simp only [dist2] at hsq
      nlinarith [mul_self_nonneg (a.x - b.x), mul_self_nonneg (a.z - b.z)]
    have hX := floor_near hsize hx
    have hY := floor_near hsize hy
    simp only [Compared, Entry.key, bucketKey, offsets, Prod.mk_sub_mk, Prod.mk.injEq, mem_cons,
      not_mem_nil, or_false]
    rw [abs_le] at hX hY
    omega

def twoBalls (x y x' y' : ℚ) : HashGrid ℕ (10 : ℚ) :=
  (({} : HashGrid ℕ (10 : ℚ)).append (ball 1 x y 4)).append (ball 2 x' y' 4)

theorem queryCollisions_exact_iff_row :
    (twoBalls 9 5 11 5).ReportsPairs (fun _ => some 1) (fun _ _ => true) [(0, 0), (1, 0)] := by
  have hempty : Represents ({} : HashGrid ℕ (10 : ℚ)) {} := by
    constructor <;> simp [bucket]
  have hrep := (hempty.append (ball 1 9 5 4) rfl).append (ball 2 11 5 4) rfl
  refine (queryCollisions_exact_iff hrep (fun _ _ => rfl) (by decide) fun k => ?_).1.mpr ?_
  · have h₁ : (ball 1 9 5 4).key 10 = (0, 0) := by decide +kernel
    have h₂ : (ball 2 11 5 4).key 10 = (1, 0) := by decide +kernel
    rcases eq_or_ne k (1, 0) with rfl | hne
    · simp [append, setTracked, h₂]
    · simp [append, setTracked, h₁, h₂, hne, Function.update_apply]
  · decide +kernel

/-- **Two entries across a corner are not reported.** -/
theorem corner_pair_missed :
    (ball 1 9 11 4).bound + (ball 2 11 9 4).bound ≤ 10 ∧
    collides (fun _ => some 1) (fun _ _ => true) (ball 1 9 11 4) (ball 2 11 9 4) = true ∧
    (twoBalls 9 11 11 9).content [(0, 1), (1, 0)] = [ball 1 9 11 4, ball 2 11 9 4] ∧
    (twoBalls 9 11 11 9).queryCollisions (fun _ => some 1) (fun _ _ => true)
      [(0, 1), (1, 0)] = [] := by
  decide +kernel

end Mmokit.Spatial
