/-
Ray casts on the hash grid (`pkg/spatial/ray3d.go` and `raycast.go`).

A collider is in the bucket of its centre only, and a ray looks at the buckets that its own line
crosses. A sphere that reaches into these from the next bucket is not seen (`neighbour_not_hit`).
The square root is any function: nothing depends on it here.
-/
import Mathlib
import Mmokit.Spatial.BucketWalk

namespace Mmokit.Spatial

variable {K E : Type*} {size : K}

structure RayHit (K E : Type*) where
  entity : E
  point : K × K × K
  t : K
  dist : K
deriving DecidableEq

section Cast

variable [Field K] [LinearOrder K]

def dot (u v : K × K × K) : K := u.1 * v.1 + u.2.1 * v.2.1 + u.2.2 * v.2.2

variable (sqrt : K → K) (src dst : K × K × K)

def rayHitSphere (e : Entry K E) : Option K :=
  let d := dst - src
  let m := src - (e.x, e.y, e.z)
  let a := dot d d
  let b := dot m d
  let c := dot m m - e.radius * e.radius
  let t := (-b - sqrt (b * b - a * c)) / a
  if a = 0 then none
  else if c ≤ 0 then some 0
  else if b * b - a * c < 0 then none
  else if t < 0 ∨ 1 < t then none
  else some t

variable (layerMask : UInt8) (filter : Entry K E → Bool)

/-- The test of an entry, which is a sphere: `rayTable` has other tests for other shapes. -/
def rayTest (e : Entry K E) : Option K :=
  if e.layer &&& layerMask = 0 then none
  else if !filter e then none
  else rayHitSphere sqrt src dst e

def nearer (best : Option (RayHit K E)) (e : Entry K E) : Option (RayHit K E) :=
  match rayTest sqrt src dst layerMask filter e with
  | none => best
  | some t =>
    if (best.elim ((2 : ℕ) : K) (·.t)) ≤ t then best
    else
      let d := dst - src
      some ⟨e.entity, src + (d.1 * t, d.2.1 * t, d.2.2 * t), t, t * sqrt (dot d d)⟩

def HashGrid.raycast [FloorRing K] (g : HashGrid E size) : Option (RayHit K E) :=
  if sqrt (dot (dst - src) (dst - src)) < 1 / ((10 ^ 6 : ℕ) : K) then none
  else ((bucketsAlongRay size (src.1, src.2.1) (dst.1, dst.2.1)).flatMap fun k =>
    (g.bucket k).tracked).foldl (nearer sqrt src dst layerMask filter) none

end Cast

variable [Field K] [LinearOrder K] [IsStrictOrderedRing K] {sqrt : K → K} {src dst : K × K × K}
  {layerMask : UInt8} {filter : Entry K E → Bool}

/-- **The nearest of some entries**, as far as they are hit. -/
def Nearest (test : Entry K E → Option K) (P : Entry K E → Prop) : Option (RayHit K E) → Prop
  | none => ∀ e, P e → test e = none
  | some hit => (∃ e, P e ∧ test e = some hit.t ∧ hit.entity = e.entity) ∧
    ∀ e, P e → ∀ t, test e = some t → hit.t ≤ t

lemma rayTest_le_one {e : Entry K E} {t : K}
    (h : rayTest sqrt src dst layerMask filter e = some t) : t ≤ 1 := by
  simp only [rayTest, rayHitSphere] at h
  grind

lemma nearest_nearer {best : Option (RayHit K E)} {P : Entry K E → Prop} (e : Entry K E)
    (h : Nearest (rayTest sqrt src dst layerMask filter) P best) :
    Nearest (rayTest sqrt src dst layerMask filter) (fun e' => P e' ∨ e' = e)
      (nearer sqrt src dst layerMask filter best e) := by
  have hone : ∀ t, rayTest sqrt src dst layerMask filter e = some t → t < 2 := fun t ht => by
    linarith [rayTest_le_one ht]
  unfold nearer
  cases best with
  | none => grind [Nearest]
  | some hit => grind [Nearest]

lemma nearest_foldl (best : Option (RayHit K E)) {P : Entry K E → Prop} (l : List (Entry K E))
    (h : Nearest (rayTest sqrt src dst layerMask filter) P best) :
    Nearest (rayTest sqrt src dst layerMask filter) (fun e => P e ∨ e ∈ l)
      (l.foldl (nearer sqrt src dst layerMask filter) best) := by
  induction l generalizing best P with
  | nil => simpa using h
  | cons e l ih =>
    have hall := ih _ (nearest_nearer e h)
    simpa only [List.foldl_cons, List.mem_cons, or_assoc] using hall

def HashGrid.Tracks (g : HashGrid E size) (e : Entry K E) : Prop := ∃ k, e ∈ (g.bucket k).tracked

/-- **When the nearest hit is found**: exactly if nothing is hit, or something that is hit nearest
is in a bucket that the ray comes into. -/
theorem raycast_nearest_iff [FloorRing K] {g : HashGrid E size} (hsize : 0 < size)
    (hlong : ¬ sqrt (dot (dst - src) (dst - src)) < 1 / ((10 ^ 6 : ℕ) : K))
    (hnear : (goal size (src.1, src.2.1) (dst.1, dst.2.1)).1 +
      (goal size (src.1, src.2.1) (dst.1, dst.2.1)).2 < 4096)
    (hcorner : ¬ Corner size (src.1, src.2.1) (dst.1, dst.2.1)) :
    Nearest (rayTest sqrt src dst layerMask filter) g.Tracks
        (g.raycast sqrt src dst layerMask filter) ↔
      (∀ e, g.Tracks e → rayTest sqrt src dst layerMask filter e = none) ∨
      ∃ k, Crosses size (src.1, src.2.1) (dst.1, dst.2.1) k ∧ ∃ e ∈ (g.bucket k).tracked,
        ∃ t, rayTest sqrt src dst layerMask filter e = some t ∧ ∀ e', g.Tracks e' → ∀ t',
          rayTest sqrt src dst layerMask filter e' = some t' → t ≤ t' := by
  have hseen : Nearest (rayTest sqrt src dst layerMask filter) _ _ :=
    nearest_foldl none (P := fun _ => False) ((bucketsAlongRay size (src.1, src.2.1)
      (dst.1, dst.2.1)).flatMap fun k => (g.bucket k).tracked) fun _ h => h.elim
  rw [HashGrid.raycast, if_neg hlong]
  simp only [false_or, List.mem_flatMap, mem_bucketsAlongRay_iff hsize hcorner hnear.le] at hseen
  cases hres : List.foldl (nearer sqrt src dst layerMask filter) none _ with
  | none =>
    rw [hres] at hseen
    constructor
    · exact .inl
    · rintro (hnone | ⟨k, hk, e, he, t, ht, -⟩)
      · exact hnone
      · simp [hseen e ⟨k, hk, he⟩] at ht
  | some hit =>
    rw [hres] at hseen
    obtain ⟨⟨e, ⟨k, hk, he⟩, ht, hentity⟩, hleast⟩ := hseen
    constructor
    · rintro ⟨-, hall⟩
      exact .inr ⟨k, hk, e, he, hit.t, ht, hall⟩
    · rintro (hnone | ⟨k', hk', e', he', t', ht', hall⟩)
      · simp [hnone e ⟨k, he⟩] at ht
      · refine ⟨⟨e, ⟨k, he⟩, ht, hentity⟩, fun e'' he'' t'' ht'' => ?_⟩
        exact (hleast e' ⟨k', hk', he'⟩ t' ht').trans (hall e'' he'' t'' ht'')

def oneBall (x : ℚ) : HashGrid ℕ (10 : ℚ) := ({} : HashGrid ℕ (10 : ℚ)).append (ball 1 x 5 5)

lemma eq_ball_of_tracks {x : ℚ} {e : Entry ℚ ℕ} (h : (oneBall x).Tracks e) : e = ball 1 x 5 5 := by
  obtain ⟨k, hk⟩ := h
  change e ∈ ((HashGrid.setTracked _ _ _).bucket k).tracked at hk
  rw [HashGrid.bucket_setTracked] at hk
  split at hk
  · simpa [HashGrid.bucket] using hk
  · simp [HashGrid.bucket] at hk

def rootOf (x : ℚ) : ℚ := if x = 10000 then 100 else 20

/-- The ray begins in one bucket and hits a ball in the next one. -/
theorem raycast_nearest_iff_ball :
    Nearest (rayTest rootOf (0, 5, 0) (20, 5, 0) 1 fun _ => true) (oneBall 18).Tracks
      ((oneBall 18).raycast rootOf (0, 5, 0) (20, 5, 0) 1 fun _ => true) := by
  have hball : rayTest rootOf (0, 5, 0) (20, 5, 0) 1 (fun _ => true) (ball 1 18 5 5) =
      some (13 / 20) := by
    decide +kernel
  refine (raycast_nearest_iff (by norm_num) (by decide +kernel) (by decide +kernel) ?_).mpr
    (.inr ⟨(1, 0), .inr ⟨⟨by decide +kernel, by decide +kernel⟩, 1 / 2, ?_⟩, ball 1 18 5 5,
      by decide +kernel, 13 / 20, hball, ?_⟩)
  · exact fun h => absurd h.2.1 (lt_irrefl _)
  · norm_num [InColumn, InRow]
  · intro e he t ht
    rw [eq_ball_of_tracks he] at ht
    exact (Option.some.inj (hball.symm.trans ht)).le

/-- The source of the ray is inside of a ball whose centre is in the bucket to the right. -/
theorem neighbour_not_hit :
    ((oneBall 11).bucket (1, 0)).tracked = [ball 1 11 5 5] ∧
    rayTest id (9, 5, 0) (9, 6, 0) 1 (fun _ => true) (ball 1 11 5 5) = some 0 ∧
    (oneBall 11).raycast id (9, 5, 0) (9, 6, 0) 1 (fun _ => true) = none := by
  decide +kernel

end Mmokit.Spatial
