/-
A cell and its four children.

A point belongs to a cell if it lies in the half-open box of the cell, and it is on the cell if it
lies in the closed box. Two cells overlap if they have a point in common, and they touch if there
is a point on both (`overlap_iff`, `touches_iff`). The depth is below 32 throughout, where the size
of a cell is the base size halved `depth` times; `base` is the source's `baseCellSize`.
-/
import Mmokit.Universe.CellTransfer
import Mathlib.Tactic.FieldSimp

namespace Mmokit

def Box.Contains {K : Type*} [LinearOrder K] (p : Box K) (x y : K) : Prop :=
  (p.minX ≤ x ∧ x < p.maxX) ∧ (p.minY ≤ y ∧ y < p.maxY)

def Box.On {K : Type*} [LinearOrder K] (p : Box K) (x y : K) : Prop :=
  (p.minX ≤ x ∧ x ≤ p.maxX) ∧ (p.minY ≤ y ∧ y ≤ p.maxY)

instance {K : Type*} [LinearOrder K] (p : Box K) (x y : K) : Decidable (p.Contains x y) :=
  inferInstanceAs (Decidable (_ ∧ _))

namespace CellID

variable {K : Type*} [Field K] [LinearOrder K] {a b c : CellID} {base x y : K}

lemma mem_children_iff {a c : CellID} : a ∈ c.children ↔
    ∃ i j : ℤ, (i = 0 ∨ i = 1) ∧ (j = 0 ∨ j = 1) ∧
      a = ⟨int32 (c.x * 2) + i, int32 (c.y * 2) + j, c.depth + 1⟩ := by
  simp only [children, List.mem_cons, List.not_mem_nil, or_false]
  constructor
  · rintro (rfl | rfl | rfl | rfl)
    · exact ⟨0, 0, .inl rfl, .inl rfl, by simp⟩
    · exact ⟨1, 0, .inr rfl, .inl rfl, by simp⟩
    · exact ⟨0, 1, .inl rfl, .inr rfl, by simp⟩
    · exact ⟨1, 1, .inr rfl, .inr rfl, by simp⟩
  · rintro ⟨i, j, rfl | rfl, rfl | rfl, rfl⟩ <;> simp

lemma mem_children_iff_of_fit (hfit : c.ChildrenFit) : a ∈ c.children ↔
    ∃ i j : ℤ, (i = 0 ∨ i = 1) ∧ (j = 0 ∨ j = 1) ∧
      a = ⟨c.x * 2 + i, c.y * 2 + j, c.depth + 1⟩ := by
  rw [mem_children_iff, hfit.1, hfit.2]

lemma depth_of_mem_children (h : a ∈ c.children) : a.depth = c.depth + 1 := by
  obtain ⟨i, j, -, -, rfl⟩ := mem_children_iff.mp h
  rfl

/-! ### Sizes -/

section Size

variable [IsStrictOrderedRing K]

lemma size_pos (hbase : 0 < base) (hc : c.depth < 32) : 0 < c.size base := by
  rw [size, squaresPerBase, if_pos hc]
  positivity

omit [LinearOrder K] [IsStrictOrderedRing K] in
lemma size_of_lt (hc : c.depth < 32) : c.size base = base / 2 ^ c.depth := by
  rw [size, squaresPerBase, if_pos hc]
  push_cast
  rfl

lemma worldBounds_child {i j : ℤ} (hc : c.depth + 1 < 32) :
    (⟨c.x * 2 + i, c.y * 2 + j, c.depth + 1⟩ : CellID).worldBounds base =
      let p := c.worldBounds base
      let h := c.size base / 2
      ⟨p.minX + i * h, p.minY + j * h, p.minX + i * h + h, p.minY + j * h + h⟩ := by
  have hsize : (⟨c.x * 2 + i, c.y * 2 + j, c.depth + 1⟩ : CellID).size base =
      c.size base / 2 := by
    rw [size_of_lt hc, size_of_lt (by omega), pow_succ, div_div]
  simp only [worldBounds, hsize, Box.mk.injEq]
  push_cast
  refine ⟨?_, ?_, ?_, ?_⟩ <;> ring

/-! ### Halving an interval -/

omit [Field K] [IsStrictOrderedRing K] in
private lemma or_of_index {p : ℤ → Prop} : (∃ i : ℤ, (i = 0 ∨ i = 1) ∧ p i) ↔ p 0 ∨ p 1 := by
  constructor
  · rintro ⟨i, rfl | rfl, h⟩
    · exact .inl h
    · exact .inr h
  · rintro (h | h)
    · exact ⟨0, .inl rfl, h⟩
    · exact ⟨1, .inr rfl, h⟩

lemma halfOpen_halves {lo s : K} (hs : 0 < s) : (lo ≤ x ∧ x < lo + s) ↔
    ∃ i : ℤ, (i = 0 ∨ i = 1) ∧ lo + i * (s / 2) ≤ x ∧ x < lo + i * (s / 2) + s / 2 := by
  rw [or_of_index]
  constructor
  · rintro ⟨h, h'⟩
    rcases lt_or_ge x (lo + s / 2) with hx | hx
    · exact .inl ⟨by linarith, by linarith⟩
    · exact .inr ⟨by linarith, by linarith⟩
  · rintro (⟨h, h'⟩ | ⟨h, h'⟩)
    · exact ⟨by linarith, by linarith⟩
    · exact ⟨by linarith, by linarith⟩

lemma closed_halves {lo s : K} (hs : 0 < s) : (lo ≤ x ∧ x ≤ lo + s) ↔
    ∃ i : ℤ, (i = 0 ∨ i = 1) ∧ lo + i * (s / 2) ≤ x ∧ x ≤ lo + i * (s / 2) + s / 2 := by
  rw [or_of_index]
  constructor
  · rintro ⟨h, h'⟩
    rcases le_total x (lo + s / 2) with hx | hx
    · exact .inl ⟨by linarith, by linarith⟩
    · exact .inr ⟨by linarith, by linarith⟩
  · rintro (⟨h, h'⟩ | ⟨h, h'⟩)
    · exact ⟨by linarith, by linarith⟩
    · exact ⟨by linarith, by linarith⟩

lemma half_unique {lo h : K} {i j : ℤ} (hh : 0 < h) (hi : lo + i * h ≤ x ∧ x < lo + i * h + h)
    (hj : lo + j * h ≤ x ∧ x < lo + j * h + h) : i = j := by
  have hij : (i : K) < j + 1 := by
    have : (i : K) * h < (j + 1) * h := by linarith
    exact lt_of_mul_lt_mul_right this hh.le
  have hji : (j : K) < i + 1 := by
    have : (j : K) * h < (i + 1) * h := by linarith
    exact lt_of_mul_lt_mul_right this hh.le
  have h₁ : i < j + 1 := by exact_mod_cast hij
  have h₂ : j < i + 1 := by exact_mod_cast hji
  omega

/-! ### Points of a cell and of its children -/

omit [LinearOrder K] [IsStrictOrderedRing K] in
lemma maxX_eq : (c.worldBounds base).maxX =
    (c.worldBounds base).minX + c.size base := rfl

omit [LinearOrder K] [IsStrictOrderedRing K] in
lemma maxY_eq : (c.worldBounds base).maxY =
    (c.worldBounds base).minY + c.size base := rfl

theorem contains_iff_children (hbase : 0 < base) (hc : c.depth + 1 < 32) (hfit : c.ChildrenFit) :
    (c.worldBounds base).Contains x y ↔
      ∃ a ∈ c.children, (a.worldBounds base).Contains x y := by
  have hs : 0 < c.size base := size_pos hbase (by omega)
  rw [Box.Contains, maxX_eq, maxY_eq, halfOpen_halves hs, halfOpen_halves hs]
  constructor
  · rintro ⟨⟨i, hi, hx⟩, j, hj, hy⟩
    refine ⟨_, (mem_children_iff_of_fit hfit).mpr ⟨i, j, hi, hj, rfl⟩, ?_⟩
    rw [worldBounds_child hc]
    exact ⟨hx, hy⟩
  · rintro ⟨a, ha, hin⟩
    obtain ⟨i, j, hi, hj, rfl⟩ := (mem_children_iff_of_fit hfit).mp ha
    rw [worldBounds_child hc] at hin
    exact ⟨⟨i, hi, hin.1⟩, j, hj, hin.2⟩

theorem contains_child_unique (hbase : 0 < base) (hc : c.depth + 1 < 32) (hfit : c.ChildrenFit)
    (ha : a ∈ c.children)
    (hb : b ∈ c.children) (hax : (a.worldBounds base).Contains x y)
    (hbx : (b.worldBounds base).Contains x y) : a = b := by
  have hs : 0 < c.size base / 2 := half_pos (size_pos hbase (by omega))
  obtain ⟨i, j, -, -, rfl⟩ := (mem_children_iff_of_fit hfit).mp ha
  obtain ⟨i', j', -, -, rfl⟩ := (mem_children_iff_of_fit hfit).mp hb
  rw [worldBounds_child hc] at hax hbx
  obtain rfl := half_unique hs hax.1 hbx.1
  obtain rfl := half_unique hs hax.2 hbx.2
  rfl

theorem on_iff_children (hbase : 0 < base) (hc : c.depth + 1 < 32) (hfit : c.ChildrenFit) :
    (c.worldBounds base).On x y ↔
      ∃ a ∈ c.children, (a.worldBounds base).On x y := by
  have hs : 0 < c.size base := size_pos hbase (by omega)
  rw [Box.On, maxX_eq, maxY_eq, closed_halves hs, closed_halves hs]
  constructor
  · rintro ⟨⟨i, hi, hx⟩, j, hj, hy⟩
    refine ⟨_, (mem_children_iff_of_fit hfit).mpr ⟨i, j, hi, hj, rfl⟩, ?_⟩
    rw [worldBounds_child hc]
    exact ⟨hx, hy⟩
  · rintro ⟨a, ha, hin⟩
    obtain ⟨i, j, hi, hj, rfl⟩ := (mem_children_iff_of_fit hfit).mp ha
    rw [worldBounds_child hc] at hin
    exact ⟨⟨i, hi, hin.1⟩, j, hj, hin.2⟩

/-! ### Overlapping and touching -/

lemma overlap_iff (hbase : 0 < base) (ha : a.depth < 32) (hb : b.depth < 32) :
    a.Overlap b base ↔ ∃ x y, (a.worldBounds base).Contains x y ∧
      (b.worldBounds base).Contains x y := by
  have hsa := size_pos (c := a) hbase ha
  have hsb := size_pos (c := b) hbase hb
  constructor
  · rintro ⟨⟨h₁, h₂⟩, h₃, h₄⟩
    refine ⟨max (a.worldBounds base).minX (b.worldBounds base).minX,
      max (a.worldBounds base).minY (b.worldBounds base).minY, ?_⟩
    refine ⟨⟨⟨le_max_left _ _, max_lt ?_ h₂⟩, le_max_left _ _, max_lt ?_ h₄⟩,
      ⟨le_max_right _ _, max_lt h₁ ?_⟩, le_max_right _ _, max_lt h₃ ?_⟩
    · rw [maxX_eq]
      linarith
    · rw [maxY_eq]
      linarith
    · rw [maxX_eq]
      linarith
    · rw [maxY_eq]
      linarith
  · rintro ⟨x, y, ⟨⟨hx, hx'⟩, hy, hy'⟩, ⟨h₁, h₁'⟩, h₂, h₂'⟩
    exact ⟨⟨hx.trans_lt h₁', h₁.trans_lt hx'⟩, hy.trans_lt h₂', h₂.trans_lt hy'⟩

def Touches (a b : CellID) (base : K) : Prop :=
  ∃ x y, (a.worldBounds base).On x y ∧ (b.worldBounds base).On x y

omit [IsStrictOrderedRing K] in
lemma Touches.symm (h : a.Touches b base) : b.Touches a base := by
  obtain ⟨x, y, ha, hb⟩ := h
  exact ⟨x, y, hb, ha⟩

lemma areAdjacent_iff (hbase : 0 < base) (ha : a.depth < 32) (hb : b.depth < 32) :
    areAdjacent a b base = true ↔ a ≠ b ∧ a.Touches b base := by
  have hsa := size_pos (c := a) hbase ha
  have hsb := size_pos (c := b) hbase hb
  have htouch : a.Touches b base ↔
      ((a.worldBounds base).minX ≤ (b.worldBounds base).maxX ∧
        (b.worldBounds base).minX ≤ (a.worldBounds base).maxX) ∧
      ((a.worldBounds base).minY ≤ (b.worldBounds base).maxY ∧
        (b.worldBounds base).minY ≤ (a.worldBounds base).maxY) := by
    constructor
    · rintro ⟨x, y, ⟨⟨hx, hx'⟩, hy, hy'⟩, ⟨h₁, h₁'⟩, h₂, h₂'⟩
      exact ⟨⟨hx.trans h₁', h₁.trans hx'⟩, hy.trans h₂', h₂.trans hy'⟩
    rintro ⟨⟨h₁, h₂⟩, h₃, h₄⟩
    refine ⟨max (a.worldBounds base).minX (b.worldBounds base).minX,
      max (a.worldBounds base).minY (b.worldBounds base).minY, ?_⟩
    refine ⟨⟨⟨le_max_left _ _, max_le ?_ h₂⟩, le_max_left _ _, max_le ?_ h₄⟩,
      ⟨le_max_right _ _, max_le h₁ ?_⟩, le_max_right _ _, max_le h₃ ?_⟩
    · rw [maxX_eq]
      linarith
    · rw [maxY_eq]
      linarith
    · rw [maxX_eq]
      linarith
    · rw [maxY_eq]
      linarith
  simp only [areAdjacent, ne_eq, Bool.and_eq_true, decide_eq_true_eq, max_le_iff, sub_nonpos]
  tauto

/-! ### Children, overlapping and touching -/

lemma contains_corner (hbase : 0 < base) (ha : a.depth < 32) :
    (a.worldBounds base).Contains (a.worldBounds base).minX
      (a.worldBounds base).minY := by
  have hs := size_pos (c := a) hbase ha
  refine ⟨⟨le_rfl, ?_⟩, le_rfl, ?_⟩
  · rw [maxX_eq]
    linarith
  · rw [maxY_eq]
    linarith

lemma touches_iff_children (hbase : 0 < base) (hc : c.depth + 1 < 32) (hfit : c.ChildrenFit) :
    c.Touches b base ↔ ∃ a ∈ c.children, a.Touches b base := by
  constructor
  · rintro ⟨x, y, hx, hb⟩
    obtain ⟨a, ha, hax⟩ := (on_iff_children hbase hc hfit).mp hx
    exact ⟨a, ha, x, y, hax, hb⟩
  · rintro ⟨a, ha, x, y, hax, hb⟩
    exact ⟨x, y, (on_iff_children hbase hc hfit).mpr ⟨a, ha, hax⟩, hb⟩

lemma overlap_iff_children (hbase : 0 < base) (hc : c.depth + 1 < 32) (hfit : c.ChildrenFit)
    (hb : b.depth < 32) :
    c.Overlap b base ↔ ∃ a ∈ c.children, a.Overlap b base := by
  rw [overlap_iff hbase (by omega) hb]
  constructor
  · rintro ⟨x, y, hx, hbx⟩
    obtain ⟨a, ha, hax⟩ := (contains_iff_children hbase hc hfit).mp hx
    have had := depth_of_mem_children ha
    exact ⟨a, ha, (overlap_iff hbase (by omega) hb).mpr ⟨x, y, hax, hbx⟩⟩
  · rintro ⟨a, ha, hov⟩
    have had := depth_of_mem_children ha
    obtain ⟨x, y, hax, hbx⟩ := (overlap_iff hbase (by omega) hb).mp hov
    exact ⟨x, y, (contains_iff_children hbase hc hfit).mpr ⟨a, ha, hax⟩, hbx⟩

lemma not_overlap_of_children (hbase : 0 < base) (hc : c.depth + 1 < 32) (hfit : c.ChildrenFit)
    (ha : a ∈ c.children)
    (hb : b ∈ c.children) (hab : a ≠ b) : ¬ a.Overlap b base := by
  have had := depth_of_mem_children ha
  have hbd := depth_of_mem_children hb
  rw [overlap_iff hbase (by omega) (by omega)]
  rintro ⟨x, y, hax, hbx⟩
  exact hab (contains_child_unique hbase hc hfit ha hb hax hbx)

lemma overlap_child (hbase : 0 < base) (hc : c.depth + 1 < 32) (hfit : c.ChildrenFit)
    (ha : a ∈ c.children) :
    a.Overlap c base := by
  have had := depth_of_mem_children ha
  have hcorner := contains_corner (a := a) hbase (by omega)
  exact (overlap_iff hbase (by omega) (by omega)).mpr
    ⟨_, _, hcorner, (contains_iff_children hbase hc hfit).mpr ⟨a, ha, hcorner⟩⟩

omit [IsStrictOrderedRing K] in
lemma Overlap.symm (h : a.Overlap b base) : b.Overlap a base :=
  ⟨⟨h.1.2, h.1.1⟩, h.2.2, h.2.1⟩

end Size

end CellID

/-! ### Tilings -/

/-- Cells of a depth below 32 whose interiors do not meet. -/
structure Tiling {K : Type*} [Field K] [LinearOrder K] (cells : Set CellID) (base : K) :
    Prop where
  depth_lt : ∀ c ∈ cells, c.depth < 32
  disjoint : ∀ a ∈ cells, ∀ b ∈ cells, a ≠ b → ¬ a.Overlap b base

namespace Tiling

variable {K : Type*} [Field K] [LinearOrder K] [IsStrictOrderedRing K] {cells : Set CellID}
  {base : K} {parent c : CellID}

open CellID

lemma child_notMem (h : Tiling cells base) (hbase : 0 < base) (hp : parent ∈ cells)
    (hd : parent.depth + 1 < 32) (hfit : parent.ChildrenFit) (hc : c ∈ parent.children) :
    c ∉ cells := by
  intro hmem
  have hne : c ≠ parent := by
    rintro rfl
    have := depth_of_mem_children hc
    omega
  exact h.disjoint c hmem parent hp hne (overlap_child hbase hd hfit hc)

lemma parent_notMem (h : Tiling cells base) (hbase : 0 < base) (hd : parent.depth + 1 < 32)
    (hfit : parent.ChildrenFit)
    (hc : ∀ c ∈ parent.children, c ∈ cells) : parent ∉ cells := by
  intro hp
  obtain ⟨c, hmem⟩ : ∃ c, c ∈ parent.children := ⟨_, List.mem_cons_self⟩
  exact h.child_notMem hbase hp hd hfit hmem (hc c hmem)

theorem split (h : Tiling cells base) (hbase : 0 < base) (hp : parent ∈ cells)
    (hd : parent.depth + 1 < 32) (hfit : parent.ChildrenFit) :
    Tiling (cells \ {parent} ∪ {c | c ∈ parent.children}) base := by
  -- what overlaps a child overlaps the parent
  have hchild : ∀ a ∈ parent.children, ∀ b ∈ cells \ {parent}, ¬ a.Overlap b base := by
    rintro a ha b ⟨hb, hbp⟩ hov
    exact h.disjoint parent hp b hb (Ne.symm hbp)
      ((overlap_iff_children hbase hd hfit (h.depth_lt b hb)).mpr ⟨a, ha, hov⟩)
  refine ⟨?_, ?_⟩
  · rintro c (⟨hc, -⟩ | hc)
    · exact h.depth_lt c hc
    · rw [depth_of_mem_children hc]
      exact hd
  · rintro a (ha | ha) b (hb | hb) hab
    · exact h.disjoint a ha.1 b hb.1 hab
    · exact fun hov => hchild b hb a ha hov.symm
    · exact hchild a ha b hb
    · exact not_overlap_of_children hbase hd hfit ha hb hab

theorem merge (h : Tiling cells base) (hbase : 0 < base) (hfit : parent.ChildrenFit)
    (hc : ∀ c ∈ parent.children, c ∈ cells) :
    Tiling (cells \ {c | c ∈ parent.children} ∪ {parent}) base := by
  have hd : parent.depth + 1 < 32 := by
    have hmem : (⟨int32 (parent.x * 2), int32 (parent.y * 2), parent.depth + 1⟩ : CellID) ∈
        parent.children :=
      List.mem_cons_self
    exact h.depth_lt _ (hc _ hmem)
  -- what overlaps the parent overlaps a child
  have hparent : ∀ b ∈ cells, b ∉ parent.children → ¬ parent.Overlap b base := by
    intro b hb hbc hov
    obtain ⟨a, ha, hov⟩ := (overlap_iff_children hbase hd hfit (h.depth_lt b hb)).mp hov
    refine h.disjoint a (hc a ha) b hb ?_ hov
    rintro rfl
    exact hbc ha
  refine ⟨?_, ?_⟩
  · rintro c (⟨hc, -⟩ | rfl)
    · exact h.depth_lt c hc
    · omega
  rintro a (ha | rfl) b (hb | rfl) hab
  · exact h.disjoint a ha.1 b hb.1 hab
  · exact fun hov => hparent a ha.1 ha.2 hov.symm
  · exact hparent b hb.1 hb.2
  · exact absurd rfl hab

end Tiling

end Mmokit
