/-
The spatial hash grid (`pkg/spatial/grid.go`) against a bag of entries.

A tracked entry lives in the bucket of its centre, and `tracked` knows its place there, so that it
can be removed at once: the last entry of the bucket takes its place. A `trackInfo` points to a
bucket that is in `buckets` under its key. Bucket indices are exact integers: that the source
converts them to `int32`, and its rounding, are left out.
-/
import Mathlib
import Mmokit.Library.Runs

namespace Mmokit.Spatial

open Function Multiset

inductive ShapeKind
  | sphere
  | box
  | capsule
deriving DecidableEq

structure Entry (K E : Type*) where
  entity : E
  (x y z : K)
  radius : K
  (width height depth : K)
  rot : K × K × K × K
  layer : UInt8
  shape : ShapeKind
deriving DecidableEq

structure Bucket (K E : Type*) where
  tracked : List (Entry K E) := []
  transient : List (Entry K E) := []

structure TrackInfo where
  key : ℤ × ℤ
  index : ℕ

/-- The buckets and the index of tracked entries. -/
structure HashGrid (E : Type*) {K : Type*} (bucketSize : K) where
  buckets : ℤ × ℤ → Option (Bucket K E) := fun _ => none
  tracked : E → Option TrackInfo := fun _ => none

/-- The bag of entries. -/
structure Naive (K E : Type*) where
  tracked : Multiset (Entry K E) := 0
  transient : Multiset (Entry K E) := 0

/-- The operations. -/
inductive GridOp (K E : Type*)
  | register (entry : Entry K E)
  | update (entry : Entry K E)
  | deregister (entity : E)
  | insertTransient (entry : Entry K E)
  | clearTransient
  | reset

variable {K E : Type*} {size : K}

section Field

variable [Field K] [LinearOrder K] [FloorRing K] [DecidableEq E]

def bucketKey (size x y : K) : ℤ × ℤ := (⌊x * (1 / size)⌋, ⌊y * (1 / size)⌋)

def Entry.key (size : K) (e : Entry K E) : ℤ × ℤ := bucketKey size e.x e.y

namespace HashGrid

variable (g : HashGrid E size)

def bucket (k : ℤ × ℤ) : Bucket K E := (g.buckets k).getD {}

def setTracked (k : ℤ × ℤ) (l : List (Entry K E)) : HashGrid E size :=
  { g with buckets := update g.buckets k (some { g.bucket k with tracked := l }) }

def append (entry : Entry K E) : HashGrid E size :=
  let l := (g.bucket (entry.key size)).tracked
  { g.setTracked (entry.key size) (l ++ [entry]) with
    tracked := update g.tracked entry.entity (some ⟨entry.key size, l.length⟩) }

/-- The removal of a place from its bucket; the entry in the last place moves there. -/
def swapDelete (info : TrackInfo) : HashGrid E size :=
  let l := (g.bucket info.key).tracked
  match l.getLast? with
  | none => g
  | some last =>
    if info.index ≠ l.length - 1 then
      { g.setTracked info.key (l.set info.index last).dropLast with
        tracked := update g.tracked last.entity
          ((g.tracked last.entity).map ({ · with index := info.index })) }
    else g.setTracked info.key l.dropLast

def forget (entity : E) : HashGrid E size := { g with tracked := update g.tracked entity none }

def step : GridOp K E → Option (HashGrid E size)
  | .register entry => if (g.tracked entry.entity).isSome then none else some (g.append entry)
  | .update entry => (g.tracked entry.entity).map fun info =>
    if entry.key size = info.key then
      g.setTracked info.key ((g.bucket info.key).tracked.set info.index entry)
    else (g.swapDelete info).append entry
  | .deregister entity => match g.tracked entity with
    | none => some g
    | some info => some ((g.swapDelete info).forget entity)
  | .insertTransient entry =>
    let b := g.bucket (entry.key size)
    let b' := { b with transient := b.transient ++ [entry] }
    some { g with buckets := update g.buckets (entry.key size) (some b') }
  | .clearTransient =>
    some { g with buckets := fun k => (g.buckets k).map ({ · with transient := [] }) }
  | .reset => some { g with buckets := fun _ => none, tracked := fun _ => none }

def inSphere (center : K × K × K) (r2 : K) (e : Entry K E) : Bool :=
  (e.x - center.1) * (e.x - center.1) + (e.y - center.2.1) * (e.y - center.2.1) +
    (e.z - center.2.2) * (e.z - center.2.2) ≤ r2

def between (lo hi : ℤ) : List ℤ := (List.range (hi + 1 - lo).toNat).map fun i : ℕ => lo + i

def queryRadius (center : K × K × K) (radius : K) (results : List (Entry K E)) :
    List (Entry K E) :=
  let lo := bucketKey size (center.1 - radius) (center.2.1 - radius)
  let hi := bucketKey size (center.1 + radius) (center.2.1 + radius)
  results ++ (between lo.1 hi.1 ×ˢ between lo.2 hi.2).flatMap fun k =>
    let b := g.bucket k
    b.tracked.filter (inSphere center (radius * radius)) ++
      b.transient.filter (inSphere center (radius * radius))

end HashGrid

namespace Naive

variable (m : Naive K E)

def step : GridOp K E → Naive K E
  | .register entry => { m with tracked := entry ::ₘ m.tracked }
  | .update entry => { m with tracked := entry ::ₘ m.tracked.filter (·.entity ≠ entry.entity) }
  | .deregister entity => { m with tracked := m.tracked.filter (·.entity ≠ entity) }
  | .insertTransient entry => { m with transient := entry ::ₘ m.transient }
  | .clearTransient => { m with transient := 0 }
  | .reset => {}

def within (center : K × K × K) (radius : K) : Multiset (Entry K E) :=
  (m.tracked + m.transient).filter fun e => HashGrid.inSphere center (radius * radius) e

end Naive

def bothStep (s : HashGrid E size × Naive K E) (op : GridOp K E) :
    Option (HashGrid E size × Naive K E) :=
  (s.1.step op).map (·, s.2.step op)

end Field

/-! ### The grid represents the bag -/

/-- The place of every tracked entry is known, and the buckets share the entries out. -/
structure Represents [Field K] [LinearOrder K] [FloorRing K] [DecidableEq E] (g : HashGrid E size)
    (m : Naive K E) : Prop where
  place : ∀ e k i, g.tracked e = some ⟨k, i⟩ ↔ ((g.bucket k).tracked[i]?).map (·.entity) = some e
  tracked : ∀ k, ((g.bucket k).tracked : Multiset (Entry K E)) = m.tracked.filter (·.key size = k)
  transient : ∀ k,
    ((g.bucket k).transient : Multiset (Entry K E)) = m.transient.filter (·.key size = k)

section Lists

variable {α : Type*} {l : List α} {i : ℕ} {a : α}

lemma set_dropLast_perm (hi : i < l.length) (hlast : l.getLast? = some a) :
    ((l.set i a).dropLast).Perm (l.eraseIdx i) := by
  obtain ⟨l, rfl⟩ := List.getLast?_eq_some_iff.mp hlast
  rcases Nat.lt_or_ge i l.length with hlt | hge
  · rw [List.set_append_left _ _ hlt, List.dropLast_concat, List.eraseIdx_append_of_lt_length hlt]
    exact (List.set_perm_cons_eraseIdx hlt a).trans (List.perm_append_singleton a _).symm
  · obtain rfl : i = l.length := by simp at hi; omega
    simp [List.eraseIdx_append_of_length_le]

lemma eraseIdx_perm_filter (p : α → Prop) [DecidablePred p] (hi : i < l.length)
    (hp : ∀ j (hj : j < l.length), p l[j] ↔ j ≠ i) : (l.eraseIdx i).Perm (l.filter p) := by
  have hall : ∀ b ∈ l.eraseIdx i, p b := by
    intro b hb
    obtain ⟨j, hj, hne, rfl⟩ := List.mem_eraseIdx_iff_getElem.mp hb
    exact (hp j hj).mpr hne
  have hfilter := (List.getElem_cons_eraseIdx_perm hi).filter p
  rwa [List.filter_cons_of_neg (by simpa using fun h => (hp i hi).mp h rfl),
    List.filter_eq_self.mpr (by simpa using hall)] at hfilter

end Lists

variable {g : HashGrid E size} {m : Naive K E} {entry : Entry K E} {e : E} {k : ℤ × ℤ} {i : ℕ}
  {info : TrackInfo}

namespace HashGrid

lemma bucket_setTracked (l : List (Entry K E)) (k' : ℤ × ℤ) :
    (g.setTracked k l).bucket k' =
      if k' = k then { g.bucket k with tracked := l } else g.bucket k' := by
  rcases eq_or_ne k' k with rfl | hne
  · simp [setTracked, bucket]
  · simp [setTracked, bucket, hne]

lemma append_forget [Field K] [LinearOrder K] [FloorRing K] [DecidableEq E] (g : HashGrid E size)
    (entry : Entry K E) : (g.forget entry.entity).append entry = g.append entry := by
  simp only [append, forget, setTracked, update_idem]
  rfl

end HashGrid

namespace Represents

variable [Field K] [LinearOrder K] [FloorRing K] [DecidableEq E]

lemma at_place (h : Represents g m) (hinfo : g.tracked e = some info) :
    info.index < (g.bucket info.key).tracked.length ∧
      ∀ j (hj : j < (g.bucket info.key).tracked.length),
        (g.bucket info.key).tracked[j].entity ≠ e ↔ j ≠ info.index := by
  have hplace := (h.place e info.key info.index).mp hinfo
  obtain ⟨entry, hget, hentity⟩ := Option.map_eq_some_iff.mp hplace
  obtain ⟨hi, rfl⟩ := List.getElem?_eq_some_iff.mp hget
  refine ⟨hi, fun j hj => not_congr ⟨fun heq => ?_, fun heq => by simpa [heq] using hentity⟩⟩
  have := (h.place e info.key j).mpr (by simp [hj, heq])
  rw [hinfo, Option.some.injEq] at this
  exact (congrArg TrackInfo.index this).symm

lemma placed (h : Represents g m) (hmem : entry ∈ m.tracked) :
    ∃ i, g.tracked entry.entity = some ⟨entry.key size, i⟩ := by
  have hbucket : entry ∈ (g.bucket (entry.key size)).tracked := by
    rw [← mem_coe, h.tracked]
    exact mem_filter.mpr ⟨hmem, rfl⟩
  obtain ⟨i, hi, hget⟩ := List.getElem_of_mem hbucket
  exact ⟨i, (h.place ..).mpr (by simp [hi, hget])⟩

lemma filter_tracked_ne (h : Represents g m) (hk : ∀ info, g.tracked e = some info → info.key ≠ k) :
    (m.tracked.filter (·.entity ≠ e)).filter (·.key size = k) =
      m.tracked.filter (·.key size = k) := by
  rw [filter_comm, filter_eq_self]
  rintro entry hmem rfl
  obtain ⟨hmem', hkey⟩ := mem_filter.mp hmem
  obtain ⟨i, hplace⟩ := h.placed hmem'
  exact hk _ hplace hkey

lemma of_transient (h : Represents g m) {g' : HashGrid E size} {m' : Multiset (Entry K E)}
    (hplaces : g'.tracked = g.tracked)
    (htracked : ∀ k, (g'.bucket k).tracked = (g.bucket k).tracked)
    (htransient : ∀ k, ((g'.bucket k).transient : Multiset (Entry K E)) =
      m'.filter (·.key size = k)) : Represents g' { m with transient := m' } := by
  constructor
  · intro e k i
    rw [hplaces, htracked]
    exact h.place e k i
  · intro k
    rw [htracked]
    exact h.tracked k
  · exact htransient

lemma of_setTracked (h : Represents g m) {g' : HashGrid E size} {m' : Multiset (Entry K E)}
    {l : List (Entry K E)} (hbuckets : g'.buckets = (g.setTracked k l).buckets)
    (hplace : ∀ e j i, g'.tracked e = some ⟨j, i⟩ ↔
      (((g.setTracked k l).bucket j).tracked[i]?).map (·.entity) = some e)
    (hself : (l : Multiset (Entry K E)) = m'.filter (·.key size = k))
    (hother : ∀ j, j ≠ k → m'.filter (·.key size = j) = m.tracked.filter (·.key size = j)) :
    Represents g' { m with tracked := m' } := by
  have hbucket : g'.bucket = (g.setTracked k l).bucket := by
    funext j
    simp [HashGrid.bucket, hbuckets]
  refine ⟨hbucket ▸ hplace, fun j => ?_, fun j => ?_⟩ <;>
    rw [hbucket, HashGrid.bucket_setTracked] <;> split
  · next heq => rw [heq, hself]
  · next hne => rw [hother j hne, h.tracked]
  · next heq => rw [heq, ← h.transient]
  · exact h.transient j

lemma append (h : Represents g m) (entry : Entry K E)
    (hnone : g.tracked entry.entity = none) :
    Represents (g.append entry) { m with tracked := entry ::ₘ m.tracked } := by
  refine h.of_setTracked rfl (fun e j i => ?_) ?_ fun j hj => ?_
  · have hplace := h.place e j i
    rw [HashGrid.bucket_setTracked]
    simp only [HashGrid.append]
    grind [update]
  · rw [filter_cons, if_pos rfl, ← h.tracked]
    exact coe_eq_coe.mpr (List.perm_append_singleton entry _)
  · exact filter_cons_of_neg _ (Ne.symm hj)

lemma overwrite (h : Represents g m) (hinfo : g.tracked entry.entity = some info)
    (hkey : entry.key size = info.key) :
    Represents (g.setTracked info.key ((g.bucket info.key).tracked.set info.index entry))
      { m with tracked := entry ::ₘ m.tracked.filter (·.entity ≠ entry.entity) } := by
  obtain ⟨hi, honly⟩ := h.at_place hinfo
  refine h.of_setTracked rfl (fun e j i => ?_) ?_ fun j hj => ?_
  · have hplace := h.place e j i
    rw [HashGrid.bucket_setTracked]
    change g.tracked e = _ ↔ _
    grind
  · rw [filter_cons, if_pos hkey, singleton_add, filter_comm, ← h.tracked, filter_coe,
      cons_coe, coe_eq_coe]
    exact (List.set_perm_cons_eraseIdx hi entry).trans
      ((eraseIdx_perm_filter _ hi honly).cons entry)
  · rw [filter_cons_of_neg _ (fun heq => hj (heq.symm.trans hkey)), h.filter_tracked_ne]
    intro info' hinfo'
    obtain rfl := Option.some.inj (hinfo.symm.trans hinfo')
    exact hj.symm

lemma remove (h : Represents g m) (hinfo : g.tracked e = some info) :
    Represents ((g.swapDelete info).forget e)
      { m with tracked := m.tracked.filter (·.entity ≠ e) } := by
  obtain ⟨hi, honly⟩ := h.at_place hinfo
  obtain ⟨last, hlast⟩ : ∃ last, (g.bucket info.key).tracked.getLast? = some last := by
    have hne := List.ne_nil_of_length_pos (Nat.zero_lt_of_lt hi)
    exact ⟨_, List.getLast?_eq_some_getLast hne⟩
  have hself : ∀ l : List (Entry K E), l.Perm ((g.bucket info.key).tracked.eraseIdx info.index) →
      (l : Multiset (Entry K E)) =
        (m.tracked.filter (·.entity ≠ e)).filter (·.key size = info.key) := by
    intro l hl
    rw [filter_comm, ← h.tracked, filter_coe, coe_eq_coe]
    exact hl.trans (eraseIdx_perm_filter _ hi honly)
  have hother : ∀ j, j ≠ info.key → (m.tracked.filter (·.entity ≠ e)).filter (·.key size = j) =
      m.tracked.filter (·.key size = j) := by
    refine fun j hj => h.filter_tracked_ne fun info' hinfo' => ?_
    obtain rfl := Option.some.inj (hinfo.symm.trans hinfo')
    exact hj.symm
  have hend := h.place last.entity info.key ((g.bucket info.key).tracked.length - 1)
  rw [HashGrid.swapDelete, hlast]
  dsimp only
  split
  · refine h.of_setTracked rfl (fun e' j i => ?_) (hself _ (set_dropLast_perm hi hlast)) hother
    have hplace := h.place e' j i
    rw [HashGrid.bucket_setTracked]
    dsimp only [HashGrid.forget, HashGrid.setTracked]
    grind [update]
  · next hidx =>
    rw [not_not] at hidx
    refine h.of_setTracked rfl (fun e' j i => ?_) (hself _ ?_) hother
    · have hplace := h.place e' j i
      rw [HashGrid.bucket_setTracked]
      dsimp only [HashGrid.forget, HashGrid.setTracked]
      grind [update]
    · rw [hidx, List.eraseIdx_length_sub_one]

lemma step {g' : HashGrid E size} {op : GridOp K E} (h : Represents g m)
    (hstep : g.step op = some g') :
    Represents g' (m.step op) := by
  cases op with
  | register entry =>
    simp only [HashGrid.step] at hstep
    split at hstep
    · cases hstep
    · next hnone => exact Option.some.inj hstep ▸ h.append _ (by simpa using hnone)
  | update entry =>
    obtain ⟨info, hinfo, rfl⟩ := Option.map_eq_some_iff.mp hstep
    split
    · next hkey => exact h.overwrite hinfo hkey
    · have happend := (h.remove hinfo).append entry (update_self ..)
      rwa [HashGrid.append_forget] at happend
  | deregister e =>
    simp only [HashGrid.step] at hstep
    split at hstep <;> cases hstep
    · next hnone =>
      have hall : m.tracked.filter (·.entity ≠ e) = m.tracked := by
        rw [filter_eq_self]
        rintro entry hmem rfl
        obtain ⟨i, hplace⟩ := h.placed hmem
        cases hnone.symm.trans hplace
      rw [Naive.step, hall]
      exact h
    · next hinfo => exact h.remove hinfo
  | insertTransient entry =>
    cases hstep
    refine h.of_transient rfl (fun k => ?_) fun k => ?_ <;>
      rcases eq_or_ne k (entry.key size) with rfl | hk
    · simp [HashGrid.bucket]
    · simp [HashGrid.bucket, hk]
    · rw [filter_cons, ← h.transient]
      simp [HashGrid.bucket, ← coe_add, add_comm]
    · rw [filter_cons, if_neg hk.symm, ← h.transient]
      simp [HashGrid.bucket, hk]
  | clearTransient =>
    cases hstep
    refine h.of_transient rfl (fun k => ?_) fun k => ?_ <;> simp only [HashGrid.bucket]
    · cases g.buckets k <;> rfl
    · cases g.buckets k <;> rfl
  | reset =>
    cases hstep
    constructor <;> simp [HashGrid.bucket, Naive.step]

end Represents

namespace HashGrid

lemma nodup_between (lo hi : ℤ) : (between lo hi).Nodup :=
  List.nodup_range.map fun a b h => by simpa using h

lemma mem_between {lo hi x : ℤ} : x ∈ between lo hi ↔ lo ≤ x ∧ x ≤ hi := by
  simp only [between, List.mem_map, List.mem_range]
  constructor
  · rintro ⟨n, hn, rfl⟩
    omega
  · rintro ⟨hlo, hhi⟩
    exact ⟨(x - lo).toNat, by omega, by omega⟩

variable [Field K] [LinearOrder K] [IsStrictOrderedRing K] [FloorRing K]

lemma key_mem_of_inSphere (hsize : 0 < size) {center : K × K × K} {radius : K}
    (hr : 0 ≤ radius) (h : inSphere center (radius * radius) entry = true) :
    entry.key size ∈ between (bucketKey size (center.1 - radius) (center.2.1 - radius)).1
        (bucketKey size (center.1 + radius) (center.2.1 + radius)).1 ×ˢ
      between (bucketKey size (center.1 - radius) (center.2.1 - radius)).2
        (bucketKey size (center.1 + radius) (center.2.1 + radius)).2 := by
  have hinv : 0 ≤ 1 / size := by positivity
  rw [inSphere, decide_eq_true_eq] at h
  have hx : |entry.x - center.1| ≤ radius := by
    refine abs_le_of_sq_le_sq' ?_ hr |> abs_le.mpr
    nlinarith [mul_self_nonneg (entry.y - center.2.1), mul_self_nonneg (entry.z - center.2.2)]
  have hy : |entry.y - center.2.1| ≤ radius := by
    refine abs_le_of_sq_le_sq' ?_ hr |> abs_le.mpr
    nlinarith [mul_self_nonneg (entry.x - center.1), mul_self_nonneg (entry.z - center.2.2)]
  rw [abs_le] at hx hy
  simp only [List.mem_product, mem_between, Entry.key, bucketKey]
  refine ⟨⟨?_, ?_⟩, ?_, ?_⟩ <;>
  · refine Int.floor_le_floor (mul_le_mul_of_nonneg_right ?_ hinv)
    linarith

end HashGrid

lemma coe_flatMap {α ι : Type*} [BEq ι] [LawfulBEq ι] [DecidableEq ι] (f : α → ι) {M : Multiset α}
    {B : ι → List α}
    (hB : ∀ k, (B k : Multiset α) = M.filter (f · = k)) {ks : List ι} (hks : ks.Nodup) :
    (ks.flatMap B : Multiset α) = M.filter (f · ∈ ks) := by
  induction ks with
  | nil => simp
  | cons k ks ih =>
    obtain ⟨hk, hks⟩ := List.nodup_cons.mp hks
    have hnone : M.filter (fun a => f a = k ∧ f a ∈ ks) = 0 :=
      filter_eq_nil.mpr fun a _ h => hk (h.1 ▸ h.2)
    rw [List.flatMap_cons, ← coe_add, hB, ih hks, filter_add_filter, hnone, add_zero]
    simp only [List.mem_cons]

variable [Field K] [LinearOrder K] [IsStrictOrderedRing K] [FloorRing K] [DecidableEq E]

/-- **The grid is a bag of entries**: whatever was registered, updated, removed and inserted, a
query returns the entries whose centres lie in the sphere, each once and as it was given last. -/
theorem queryRadius_eq_naive (hsize : 0 < size)
    (hrun : Run (Steps bothStep) Always (({} : HashGrid E size), {}) (g, m)) (center : K × K × K)
    {radius : K} (hr : 0 ≤ radius) (results : List (Entry K E)) :
    (g.queryRadius center radius results : Multiset (Entry K E)) =
      results + m.within center radius := by
  have h : Represents g m := by
    refine hrun.invariant (I := fun s => Represents s.1 s.2) ?_ fun h _ hstep => ?_
    · constructor <;> simp [HashGrid.bucket]
    · obtain ⟨g', hstep', rfl⟩ := Option.map_eq_some_iff.mp hstep
      exact h.step hstep'
  have hall : ∀ e ∈ m.within center radius, e.key size ∈ _ := fun e he =>
    HashGrid.key_mem_of_inSphere hsize hr (mem_filter.mp he).2
  have hB : ∀ k, (((g.bucket k).tracked.filter (HashGrid.inSphere center (radius * radius)) ++
      (g.bucket k).transient.filter (HashGrid.inSphere center (radius * radius)) :
        List (Entry K E)) : Multiset (Entry K E)) =
      (m.within center radius).filter (·.key size = k) := by
    intro k
    rw [Naive.within, filter_comm, filter_add, ← h.tracked, ← h.transient]
    simp
  rw [HashGrid.queryRadius, ← coe_add, coe_flatMap _ hB, filter_eq_self.mpr hall]
  exact (HashGrid.nodup_between ..).product (HashGrid.nodup_between ..)

/-- A sphere of this radius with this centre, on the ground. -/
def ball (entity : ℕ) (x y radius : ℚ) : Entry ℚ ℕ :=
  ⟨entity, x, y, 0, radius, 0, 0, 0, (0, 0, 0, 1), 1, .sphere⟩

/-- The first of two entities moves to a bucket with negative coordinates. -/
theorem queryRadius_eq_naive_moved : ∃ (g : HashGrid ℕ (10 : ℚ)) (m : Naive ℚ ℕ),
    (g.queryRadius (-2, -1, 0) 3 []).map (·.entity) = [1] ∧
      (g.queryRadius (-2, -1, 0) 3 [] : Multiset (Entry ℚ ℕ)) = 0 + m.within (-2, -1, 0) 3 := by
  obtain ⟨⟨g, m⟩, hrun, hquery⟩ :=
    exists_run (s := (({} : HashGrid ℕ (10 : ℚ)), {})) bothStep Always
    (fun s => (s.1.queryRadius (-2, -1, 0) 3 []).map (·.entity) = [1])
    [.register (ball 1 5 5 1), .register (ball 2 6 6 1), .update (ball 1 (-1) (-1) 1)]
    (by decide +kernel)
  exact ⟨g, m, hquery, queryRadius_eq_naive (by norm_num) hrun _ (by norm_num) []⟩

end Mmokit.Spatial
