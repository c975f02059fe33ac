/-
Partitions of a rectangle by cells, and the registry's agreement with the map of hosts.
-/
import Mmokit.Library.KeyedFold
import Mmokit.Universe.CellGeometry
import Mmokit.Universe.TransferExclusion

namespace Mmokit

open CellID

/-! ### Partitions of a rectangle -/

/-- Each point of `rect` is in one cell. -/
structure Partitions {K : Type*} [Field K] [LinearOrder K] (cells : Set CellID) (rect : Box K)
    (base : K) : Prop where
  covers : ∀ {x y}, rect.Contains x y → ∃ c ∈ cells, (c.worldBounds base).Contains x y
  inside : ∀ {c x y}, c ∈ cells → (c.worldBounds base).Contains x y → rect.Contains x y
  unique : ∀ {a b x y}, a ∈ cells → b ∈ cells → (a.worldBounds base).Contains x y →
    (b.worldBounds base).Contains x y → a = b

namespace Partitions

variable {K : Type*} [Field K] [LinearOrder K] [IsStrictOrderedRing K] {cells : Set CellID}
  {rect : Box K} {base : K} {parent c : CellID}

lemma child_notMem (h : Partitions cells rect base) (hbase : 0 < base) (hp : parent ∈ cells)
    (hd : parent.depth + 1 < 32) (hfit : parent.ChildrenFit) (hc : c ∈ parent.children) :
    c ∉ cells := by
  intro hmem
  have hcd := depth_of_mem_children hc
  have hcorner := contains_corner (a := c) hbase (by omega)
  have hcp := h.unique hmem hp hcorner
    ((contains_iff_children hbase hd hfit).mpr ⟨c, hc, hcorner⟩)
  rw [hcp] at hcd
  omega

theorem split (h : Partitions cells rect base) (hbase : 0 < base) (hp : parent ∈ cells)
    (hd : parent.depth + 1 < 32) (hfit : parent.ChildrenFit) :
    Partitions {c | c ∈ cells ∧ c ≠ parent ∨ c ∈ parent.children} rect base := by
  have hpoints : ∀ {x y}, (parent.worldBounds base).Contains x y ↔
      ∃ a ∈ parent.children, (a.worldBounds base).Contains x y :=
    contains_iff_children hbase hd hfit
  -- a point of a child is in no other old cell than the parent
  have hother : ∀ {a b x y}, a ∈ cells → a ≠ parent → b ∈ parent.children →
      (a.worldBounds base).Contains x y → ¬ (b.worldBounds base).Contains x y :=
    fun ha hap hb hax hbx => hap (h.unique ha hp hax (hpoints.mpr ⟨_, hb, hbx⟩))
  refine ⟨?_, ?_, ?_⟩
  · intro x y hx
    obtain ⟨c, hc, hcx⟩ := h.covers hx
    by_cases hcp : c = parent
    · subst hcp
      obtain ⟨a, ha, hax⟩ := hpoints.mp hcx
      exact ⟨a, .inr ha, hax⟩
    · exact ⟨c, .inl ⟨hc, hcp⟩, hcx⟩
  · rintro c x y (⟨hc, -⟩ | hc) hcx
    · exact h.inside hc hcx
    · exact h.inside hp (hpoints.mpr ⟨c, hc, hcx⟩)
  · rintro a b x y (⟨ha, hap⟩ | ha) (⟨hb, hbp⟩ | hb) hax hbx
    · exact h.unique ha hb hax hbx
    · exact absurd hbx (hother ha hap hb hax)
    · exact absurd hax (hother hb hbp ha hbx)
    · exact contains_child_unique hbase hd hfit ha hb hax hbx

theorem merge (h : Partitions cells rect base) (hbase : 0 < base) (hd : parent.depth + 1 < 32)
    (hfit : parent.ChildrenFit) (hc : ∀ c ∈ parent.children, c ∈ cells) :
    Partitions {c | c ∈ cells ∧ c ∉ parent.children ∨ c = parent} rect base := by
  have hpoints : ∀ {x y}, (parent.worldBounds base).Contains x y ↔
      ∃ a ∈ parent.children, (a.worldBounds base).Contains x y :=
    contains_iff_children hbase hd hfit
  have hother : ∀ {a x y}, a ∈ cells → a ∉ parent.children →
      (a.worldBounds base).Contains x y →
      ¬ (parent.worldBounds base).Contains x y := by
    intro a x y ha hac hax hpx
    obtain ⟨b, hb, hbx⟩ := hpoints.mp hpx
    exact hac (h.unique ha (hc b hb) hax hbx ▸ hb)
  refine ⟨?_, ?_, ?_⟩
  · intro x y hx
    obtain ⟨c, hmem, hcx⟩ := h.covers hx
    by_cases hcc : c ∈ parent.children
    · exact ⟨parent, .inr rfl, hpoints.mpr ⟨c, hcc, hcx⟩⟩
    · exact ⟨c, .inl ⟨hmem, hcc⟩, hcx⟩
  · rintro c x y (⟨hmem, -⟩ | rfl) hcx
    · exact h.inside hmem hcx
    · obtain ⟨a, ha, hax⟩ := hpoints.mp hcx
      exact h.inside (hc a ha) hax
  · rintro a b x y (⟨ha, hac⟩ | rfl) (⟨hb, hbc⟩ | rfl) hax hbx
    · exact h.unique ha hb hax hbx
    · exact absurd hbx (hother ha hac hax)
    · exact absurd hax (hother hb hbc hbx)
    · rfl

end Partitions

/-! ### A rectangular grid -/

section Grid

variable {K : Type*} [Field K] [LinearOrder K] [IsStrictOrderedRing K]

def gridCells (x₀ y₀ : ℤ) (width height : ℕ) : Set CellID :=
  {c | c.depth = 0 ∧ (x₀ ≤ c.x ∧ c.x < x₀ + width) ∧ (y₀ ≤ c.y ∧ c.y < y₀ + height)}

def gridBox (x₀ y₀ : ℤ) (width height : ℕ) (base : K) : Box K :=
  ⟨x₀ * base, y₀ * base, (x₀ + width) * base, (y₀ + height) * base⟩

lemma exists_index {base x : K} (lo : ℤ) (n : ℕ) (hlo : lo * base ≤ x) (hhi : x < (lo + n) * base) :
    ∃ i : ℤ, (lo ≤ i ∧ i < lo + n) ∧ i * base ≤ x ∧ x < i * base + base := by
  induction n with
  | zero =>
    simp only [Nat.cast_zero, add_zero] at hhi
    exact absurd (hlo.trans_lt hhi) (lt_irrefl _)
  | succ n ih =>
    rcases lt_or_ge x ((lo + n) * base) with hx | hx
    · obtain ⟨i, hi, hix⟩ := ih hx
      exact ⟨i, ⟨hi.1, by push_cast; omega⟩, hix⟩
    refine ⟨lo + n, ⟨by omega, by push_cast; omega⟩, ?_, ?_⟩
    · push_cast
      exact hx
    · push_cast at hhi ⊢
      linarith

omit [LinearOrder K] [IsStrictOrderedRing K] in
lemma worldBounds_of_depth_zero {c : CellID} (hc : c.depth = 0) (base : K) :
    c.worldBounds base = ⟨c.x * base, c.y * base,
      c.x * base + base, c.y * base + base⟩ := by
  obtain ⟨x, y, depth⟩ := c
  obtain rfl : depth = 0 := hc
  simp [worldBounds]

theorem partitions_gridCells (x₀ y₀ : ℤ) (width height : ℕ) {base : K} (hbase : 0 < base) :
    Partitions (gridCells x₀ y₀ width height)
      (gridBox x₀ y₀ width height base) base := by
  -- along one axis, a cell between the outer lines stays between them
  have haxis : ∀ {lo i : ℤ} {n : ℕ} {x : K}, (lo ≤ i ∧ i < lo + n) →
      (i * base ≤ x ∧ x < i * base + base) →
      lo * base ≤ x ∧ x < (lo + n) * base := by
    intro lo i n x hi hx
    have h₁ : (lo : K) * base ≤ i * base :=
      mul_le_mul_of_nonneg_right (by exact_mod_cast hi.1) hbase.le
    have h₂ : ((i : K) + 1) * base ≤ (lo + n) * base := by
      refine mul_le_mul_of_nonneg_right ?_ hbase.le
      have : i + 1 ≤ lo + n := by omega
      exact_mod_cast this
    exact ⟨h₁.trans hx.1, by linarith [hx.2]⟩
  refine ⟨?_, ?_, ?_⟩
  · rintro x y ⟨⟨hx, hx'⟩, hy, hy'⟩
    obtain ⟨i, hi, hix⟩ := exists_index x₀ width hx hx'
    obtain ⟨j, hj, hjy⟩ := exists_index y₀ height hy hy'
    refine ⟨⟨i, j, 0⟩, ⟨rfl, hi, hj⟩, ?_⟩
    rw [worldBounds_of_depth_zero rfl]
    exact ⟨hix, hjy⟩
  · rintro c x y ⟨hd, hx, hy⟩ hin
    rw [worldBounds_of_depth_zero hd] at hin
    exact ⟨haxis hx hin.1, haxis hy hin.2⟩
  · rintro a b x y ⟨ha, -⟩ ⟨hb, -⟩ hax hbx
    rw [worldBounds_of_depth_zero ha] at hax
    rw [worldBounds_of_depth_zero hb] at hbx
    have hindex : ∀ {i j : ℤ} {x : K},
        (i * base ≤ x ∧ x < i * base + base) →
        (j * base ≤ x ∧ x < j * base + base) → i = j := by
      intro i j x hi hj
      rw [← zero_add ((i : K) * base)] at hi
      rw [← zero_add ((j : K) * base)] at hj
      exact half_unique hbase hi hj
    obtain ⟨ax, ay, ad⟩ := a
    obtain ⟨bx, bY, bd⟩ := b
    obtain rfl : ad = 0 := ha
    obtain rfl : bd = 0 := hb
    obtain rfl : ax = bx := hindex hax.1 hbx.1
    obtain rfl : ay = bY := hindex hax.2 hbx.2
    rfl

end Grid

/-! ### The registry and the map -/

namespace Ownership

variable {H : Type*} {o : Ownership H} {c : CellID}

/-- The registry names no other owner of a cell than the map. -/
def Faithful (o : Ownership H) : Prop :=
  ∀ c, ∀ h ∈ o.ownersOf c, o.cellToHostMap c = some h

lemma Faithful.map_of_ownerOf (h : o.Faithful) {host : H} (howner : o.OwnerOf c host) :
    o.cellToHostMap c = some host := by
  rcases howner with hmem | ⟨-, hmap⟩
  · exact h c host hmem
  · exact hmap

variable {h : H}

lemma mem_ownersOf : h ∈ o.ownersOf c ↔ h ∈ o.hosts ∧ c ∈ o.ownedCells h := by
  simp [ownersOf]

variable [DecidableEq H]

variable {g : H} {d : CellID}

lemma mem_ownersOf_releaseCell (hg : g ∈ (o.releaseCell h d).ownersOf c) :
    g ∈ o.ownersOf c ∧ ¬ (g = h ∧ c = d) := by
  rw [mem_ownersOf] at hg ⊢
  obtain ⟨hhost, howned⟩ := hg
  by_cases hgh : g = h
  · subst hgh
    have hmem : c ∈ o.ownedCells g ∧ c ≠ d := by simpa [releaseCell] using howned
    exact ⟨⟨hhost, hmem.1⟩, fun hcd => hmem.2 hcd.2⟩
  · have hmem : c ∈ o.ownedCells g := by simpa [releaseCell, Function.update_of_ne hgh] using howned
    exact ⟨⟨hhost, hmem⟩, fun hcd => hgh hcd.1⟩

lemma mem_ownersOf_assignCell (hg : g ∈ (o.assignCell h d).ownersOf c) :
    g ∈ o.ownersOf c ∨ g = h ∧ c = d := by
  by_cases hcd : c = d
  · by_cases hgh : g = h
    · exact .inr ⟨hgh, hcd⟩
    refine .inl ?_
    rw [assignCell] at hg
    split at hg
    · rw [mem_ownersOf] at hg ⊢
      simpa [Function.update_of_ne hgh] using hg
    · exact hg
  · exact .inl ((agrees_assignCell hcd h).owners ▸ hg)

variable {pre : CellID → Option H}

lemma mem_ownersOf_releasePrevious (hg : g ∈ (o.releasePrevious pre d).ownersOf c) :
    g ∈ o.ownersOf c := by
  rw [releasePrevious] at hg
  split at hg
  · exact (mem_ownersOf_releaseCell hg).1
  · exact hg

lemma mem_ownersOf_foldl_releasePrevious (l : List CellID) (o : Ownership H)
    (hg : g ∈ (l.foldl (fun o c => o.releasePrevious pre c) o).ownersOf c) : g ∈ o.ownersOf c := by
  induction l generalizing o with
  | nil => exact hg
  | cons d l ih => exact mem_ownersOf_releasePrevious (ih _ hg)

lemma ownersOf_foldl_releasePrevious (hpre : pre c = some h) {l : List CellID} (hc : c ∈ l)
    (o : Ownership H) (honly : ∀ g ∈ o.ownersOf c, g = h) (g : H) :
    g ∉ (l.foldl (fun o c => o.releasePrevious pre c) o).ownersOf c := by
  induction l generalizing o with
  | nil => exact absurd hc List.not_mem_nil
  | cons d l ih =>
    by_cases hcl : c ∈ l
    · exact ih hcl _ fun g hg => honly g (mem_ownersOf_releasePrevious hg)
    -- this round releases the cell, and owners do not come back
    obtain rfl : c = d := (List.mem_cons.mp hc).resolve_right hcl
    intro hg
    have hg' : g ∈ (o.releasePrevious pre c).ownersOf c := mem_ownersOf_foldl_releasePrevious l _ hg
    rw [releasePrevious, hpre] at hg'
    obtain ⟨hmem, hnot⟩ := mem_ownersOf_releaseCell hg'
    exact hnot ⟨honly g hmem, rfl⟩

lemma mem_ownersOf_foldl_reassign {l : List (CellID × H)}
    (hl : ∀ entry ∈ l, entry.1 = c → entry.2 = h) (o : Ownership H)
    (honly : ∀ g ∈ o.ownersOf c, g = h) :
    ∀ g ∈ (l.foldl (fun o entry => o.reassign pre entry) o).ownersOf c, g = h := by
  induction l generalizing o with
  | nil => exact honly
  | cons entry l ih =>
    refine ih (fun e he => hl e (List.mem_cons_of_mem _ he)) _ fun g hg => ?_
    rcases mem_ownersOf_assignCell hg with hg | ⟨hgh, hce⟩
    · refine honly g ?_
      revert hg
      split
      · split
        · exact fun hg => (mem_ownersOf_releaseCell hg).1
        · exact id
      · exact id
    · rw [hgh]
      exact hl entry List.mem_cons_self hce.symm

variable {m : TopologyMutation H}

omit [DecidableEq H] in
lemma cellToHostMap_applyMutation_of_add (hadd : m.add.lookup c = some h) :
    (o.applyMutation m).cellToHostMap c = some h := by
  simp [applyMutation, hadd]

omit [DecidableEq H] in
lemma cellToHostMap_applyMutation_of_remove (hadd : m.add.lookup c = none) :
    (o.applyMutation m).cellToHostMap c = if c ∈ m.remove then none else o.cellToHostMap c := by
  simp [applyMutation, hadd]

lemma cellToHostMap_applyRegistryDelta (m : TopologyMutation H) (pre : CellID → Option H) :
    (o.applyRegistryDelta m pre).cellToHostMap = o.cellToHostMap := by
  have hrelease : ∀ (o : Ownership H) c,
      (o.releasePrevious pre c).cellToHostMap = o.cellToHostMap := by
    intro o c
    rw [releasePrevious]
    split <;> rfl
  have hreassign : ∀ (o : Ownership H) entry,
      (o.reassign pre entry).cellToHostMap = o.cellToHostMap := by
    intro o entry
    simp only [reassign, assignCell]
    repeat' split
    all_goals rfl
  unfold applyRegistryDelta
  rw [foldl_keeps Ownership.cellToHostMap hreassign, foldl_keeps Ownership.cellToHostMap hrelease]

/-- **A commit keeps the registry faithful**, if it knows the owners of the cells that it removes,
and adds cells that nobody owns. -/
theorem faithful_commit (hfaith : o.Faithful)
    (hremove : ∀ c ∈ m.remove, ∀ h, o.cellToHostMap c = some h → pre c = some h)
    (hadd : ∀ entry ∈ m.add, o.cellToHostMap entry.1 = none ∧
      m.add.lookup entry.1 = some entry.2) :
    ((o.applyMutation m).applyRegistryDelta m pre).Faithful := by
  intro c h hh
  rw [cellToHostMap_applyRegistryDelta]
  by_cases hc : ∃ entry ∈ m.add, entry.1 = c
  · -- an added cell had no owner, and gets the host of the map
    obtain ⟨entry, hentry, rfl⟩ := hc
    obtain ⟨hnone, hlookup⟩ := hadd entry hentry
    have hstart : ∀ g ∈ (m.remove.foldl (fun o c => o.releasePrevious pre c)
        (o.applyMutation m)).ownersOf entry.1, g = entry.2 := by
      intro g hg
      have hmap := hfaith entry.1 g
        (mem_ownersOf_foldl_releasePrevious m.remove (o.applyMutation m) hg)
      rw [hnone] at hmap
      cases hmap
    have hsame : ∀ e ∈ m.add, e.1 = entry.1 → e.2 = entry.2 := by
      intro e he heq
      have hlookup' := (hadd e he).2
      rw [heq, hlookup] at hlookup'
      exact (Option.some.inj hlookup').symm
    have hown : h = entry.2 := mem_ownersOf_foldl_reassign hsame _ hstart h hh
    rw [cellToHostMap_applyMutation_of_add hlookup, hown]
  · have hnot : ∀ entry ∈ m.add, entry.1 ≠ c := fun entry he heq => hc ⟨entry, he, heq⟩
    have hlookup : m.add.lookup c = none := by
      rw [List.lookup_eq_none_iff]
      intro entry he
      simpa using (hnot entry he).symm
    by_cases hrem : c ∈ m.remove
    · -- a removed cell is released by its owner
      exfalso
      have hagrees : Agrees (m.remove.foldl (fun o c => o.releasePrevious pre c)
          (o.applyMutation m)) ((o.applyMutation m).applyRegistryDelta m pre) c :=
        agrees_foldl (fun o entry he => agrees_reassign (hnot entry he).symm pre) _
      rw [hagrees.owners] at hh
      cases hmap : o.cellToHostMap c with
      | none =>
        have hmap' := hfaith c h
          (mem_ownersOf_foldl_releasePrevious m.remove (o.applyMutation m) hh)
        rw [hmap] at hmap'
        cases hmap'
      | some g =>
        have honly : ∀ k ∈ (o.applyMutation m).ownersOf c, k = g := by
          intro k hk
          have hmap' := hfaith c k hk
          rw [hmap] at hmap'
          exact (Option.some.inj hmap').symm
        exact ownersOf_foldl_releasePrevious (hremove c hrem g hmap) hrem _ honly h hh
    · -- the commit is not about this cell
      have hagrees := (agrees_applyMutation (o := o) hnot hrem).trans
        (agrees_applyRegistryDelta hnot hrem pre)
      rw [hagrees.owners] at hh
      rw [cellToHostMap_applyMutation_of_remove hlookup, if_neg hrem]
      exact hfaith c h hh

end Ownership

end Mmokit
