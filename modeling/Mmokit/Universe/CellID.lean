/-
The geometry of cells (`pkg/universe/cell_id.go`).

A cell is a square of the world grid, or of one of its quadtree refinements: at depth `d` the side
is `baseCellSize / 2 ^ d` and the coordinates count squares of that side. Positions of entities are
kept relative to the origin of the cell of depth zero around them, its *root*.

Lengths are taken in an arbitrary ordered field, so that all arithmetic on them is exact. The
coordinates are integers, as `int32` has them: only doubling can leave its range.
-/
import Mathlib.Algebra.Order.Field.Basic
import Mathlib.Tactic.Ring
import Mathlib.Tactic.Linarith

namespace Mmokit

structure CellID where
  x : ℤ
  y : ℤ
  depth : ℕ
deriving DecidableEq

structure Box (K : Type*) where
  minX : K
  minY : K
  maxX : K
  maxY : K
deriving DecidableEq

namespace CellID

variable {K : Type*} [Field K] [LinearOrder K] (c : CellID) (baseCellSize : K)

/-- `uint32(1) << depth`; a shift by 32 or more leaves nothing. -/
def squaresPerBase (depth : ℕ) : ℕ := if depth < 32 then 2 ^ depth else 0

def size : K := baseCellSize / (squaresPerBase c.depth : K)

def worldBounds : Box K :=
  let minX := (c.x : K) * c.size baseCellSize
  let minY := (c.y : K) * c.size baseCellSize
  ⟨minX, minY, minX + c.size baseCellSize, minY + c.size baseCellSize⟩

/-- `Parent`; the source panics at depth zero, where nothing calls it. -/
def parent : CellID := ⟨c.x.tdiv 2, c.y.tdiv 2, c.depth - 1⟩

/-- An integer as `int32` keeps it. -/
def int32 (n : ℤ) : ℤ := (n + 2 ^ 31) % 2 ^ 32 - 2 ^ 31

/-- The four cells of a split. The doubled coordinates may overflow, and one more never does. -/
def children : List CellID :=
  let x₂ := int32 (c.x * 2)
  let y₂ := int32 (c.y * 2)
  [⟨x₂, y₂, c.depth + 1⟩, ⟨x₂ + 1, y₂, c.depth + 1⟩, ⟨x₂, y₂ + 1, c.depth + 1⟩,
    ⟨x₂ + 1, y₂ + 1, c.depth + 1⟩]

/-- The doubled coordinates do not overflow. -/
def ChildrenFit : Prop := int32 (c.x * 2) = c.x * 2 ∧ int32 (c.y * 2) = c.y * 2

instance : Decidable c.ChildrenFit := inferInstanceAs (Decidable (_ ∧ _))

/-- The ancestor of depth zero: `for root.Depth > 0 { root = root.Parent() }`. -/
def root : CellID := parent^[c.depth] c

def rootOrigin : K × K := ((c.root.x : K) * baseCellSize, (c.root.y : K) * baseCellSize)

def localBounds : Box K :=
  if c.depth = 0 then ⟨0, 0, baseCellSize, baseCellSize⟩
  else
    let w := c.worldBounds baseCellSize
    let o := c.rootOrigin baseCellSize
    ⟨w.minX - o.1, w.minY - o.2, w.maxX - o.1, w.maxY - o.2⟩

/-- `AreAdjacent`: two cells touch. The source relies on the cells of a quadtree not overlapping. -/
def areAdjacent (a b : CellID) (baseCellSize : K) : Bool :=
  let p := a.worldBounds baseCellSize
  let q := b.worldBounds baseCellSize
  let gapX := max (p.minX - q.maxX) (q.minX - p.maxX)
  let gapY := max (p.minY - q.maxY) (q.minY - p.maxY)
  a ≠ b && gapX ≤ 0 && gapY ≤ 0

def axisDirection (aMin aMax bMin bMax : K) : ℤ :=
  if aMax ≤ bMin then 1 else if bMax ≤ aMin then -1 else 0

def cellDirection (a b : CellID) (baseCellSize : K) : ℤ × ℤ :=
  let p := a.worldBounds baseCellSize
  let q := b.worldBounds baseCellSize
  (axisDirection p.minX p.maxX q.minX q.maxX, axisDirection p.minY p.maxY q.minY q.maxY)

def Overlap (a b : CellID) (baseCellSize : K) : Prop :=
  let p := a.worldBounds baseCellSize
  let q := b.worldBounds baseCellSize
  (p.minX < q.maxX ∧ q.minX < p.maxX) ∧ (p.minY < q.maxY ∧ q.minY < p.maxY)

def axisDistance (lo hi p : K) : K := max 0 (max (lo - p) (p - hi))

/-- A point, in coordinates relative to the root of `c`, is closer than `dist` to the rectangle of
`dest` along each axis. -/
def CloseTo (c dest : CellID) (baseCellSize px py dist : K) : Prop :=
  let q := dest.worldBounds baseCellSize
  let o := c.rootOrigin baseCellSize
  axisDistance q.minX q.maxX (o.1 + px) < dist ∧ axisDistance q.minY q.maxY (o.2 + py) < dist

omit [LinearOrder K] in
@[simp] lemma size_zero {x y : ℤ} : (⟨x, y, 0⟩ : CellID).size baseCellSize = baseCellSize := by
  simp [size, squaresPerBase]

omit [LinearOrder K] in
lemma localBounds_eq :
    c.localBounds baseCellSize =
      ⟨(c.worldBounds baseCellSize).minX - (c.rootOrigin baseCellSize).1,
        (c.worldBounds baseCellSize).minY - (c.rootOrigin baseCellSize).2,
        (c.worldBounds baseCellSize).maxX - (c.rootOrigin baseCellSize).1,
        (c.worldBounds baseCellSize).maxY - (c.rootOrigin baseCellSize).2⟩ := by
  obtain ⟨x, y, depth⟩ := c
  cases depth with
  | zero => simp [localBounds, worldBounds, rootOrigin, root]
  | succ d => rfl

omit [Field K] in
lemma axisDirection_cases (aMin aMax bMin bMax : K) :
    axisDirection aMin aMax bMin bMax = 1 ∧ aMax ≤ bMin ∨
      axisDirection aMin aMax bMin bMax = -1 ∧ bMax ≤ aMin ∨
      axisDirection aMin aMax bMin bMax = 0 ∧ aMin < bMax ∧ bMin < aMax := by
  unfold axisDirection
  split
  · rename_i h
    exact .inl ⟨rfl, h⟩
  rename_i h
  split
  · rename_i h'
    exact .inr (.inl ⟨rfl, h'⟩)
  · rename_i h'
    exact .inr (.inr ⟨rfl, not_le.mp h', not_le.mp h⟩)

omit [Field K] in
lemma axisDirection_eq_zero_iff {aMin aMax bMin bMax : K} :
    axisDirection aMin aMax bMin bMax = 0 ↔ aMin < bMax ∧ bMin < aMax := by
  rcases axisDirection_cases aMin aMax bMin bMax with ⟨hd, h⟩ | ⟨hd, h⟩ | ⟨hd, h⟩
  · simp [hd, h]
  · simp [hd, h]
  · simp [hd, h]

lemma cellDirection_eq_zero_iff (a b : CellID) :
    (a.cellDirection b baseCellSize = (0, 0)) ↔ a.Overlap b baseCellSize := by
  unfold cellDirection Overlap
  dsimp only
  generalize a.worldBounds baseCellSize = p
  generalize b.worldBounds baseCellSize = q
  rw [Prod.mk.injEq, axisDirection_eq_zero_iff, axisDirection_eq_zero_iff]

end CellID

end Mmokit
