/-
Which entities go to which child of a split (`serializeQuadrantEntities` in
`pkg/universe/cell_transfer_executor.go`).

The source cell compares the position of an entity with half of its side. Positions are relative
to the origin of the root, so this is the middle of the cell only if the cell lies at the origin of
its root.
-/
import Mmokit.Universe.BorderCoverage
import Mmokit.Universe.CellGeometry
import Mmokit.Universe.CellRelocation

namespace Mmokit

open CellID

namespace CellID

/-- The child of a quadrant: `0` bottom left, `1` bottom right, `2` top left, `3` top right. -/
def child (c : CellID) (q : Fin 4) : CellID :=
  ⟨int32 (c.x * 2) + (q.val.testBit 0).toNat, int32 (c.y * 2) + (q.val.testBit 1).toNat,
    c.depth + 1⟩

end CellID

namespace Stage

variable {M K : Type*} [Field K] [LinearOrder K]

/-- The authoritative entities on the two sides of half a side that belong to the quadrant. -/
def quadrantEntities (b : Stage M) (c : CellID) (base : K) (pos : Entity → K × K)
    (q : Fin 4) : List Entity :=
  let half := c.size base / (2 : ℕ)
  (List.range b.ecs.next).filter fun e => (b.ecs.rows e).any (·.replica.isNone) &&
    inQuadrant q (half ≤ (pos e).1) (half ≤ (pos e).2)

/-- The frames of the command for the quadrant's child. -/
def serializeQuadrantEntities (b : Stage M) (c : CellID) (base : K)
    (pos : Entity → K × K) (q : Fin 4) : List TransferFrame :=
  (b.quadrantEntities c base pos q).map b.serializeEntityCore

end Stage

variable {K : Type*} [Field K] [LinearOrder K]

/-- Half a side from the corner of the root lies on the same side of the position as the middle of
the cell does, along both axes. -/
def CellID.HalvedAlike (c : CellID) (base : K) (pos : K × K) : Prop :=
  let half := c.size base / (2 : ℕ)
  (half ≤ pos.1 ↔ (c.localBounds base).minX + half ≤ pos.1) ∧
    (half ≤ pos.2 ↔ (c.localBounds base).minY + half ≤ pos.2)

variable {M : Type*} {b : Stage M} {c : CellID} {base : K}
  {pos : Entity → K × K} {e : Entity} {q : Fin 4}

lemma mem_quadrantEntities (hlive : e < b.ecs.next)
    (hauth : (b.ecs.rows e).any (·.replica.isNone) = true) :
    e ∈ b.quadrantEntities c base pos q ↔
      decide (c.size base / 2 ≤ (pos e).1) = q.val.testBit 0 ∧
        decide (c.size base / 2 ≤ (pos e).2) = q.val.testBit 1 := by
  rw [Stage.quadrantEntities, List.mem_filter, List.mem_range, hauth, Bool.true_and, inQuadrant,
    Bool.and_eq_true, beq_iff_eq, beq_iff_eq]
  exact and_iff_right hlive

lemma cast_bit {p : K} {h : K} {bit : Bool} (hbit : decide (h ≤ p) = bit) :
    (((bit.toNat : ℤ) : ℤ) : K) = if h ≤ p then 1 else 0 := by
  subst hbit
  by_cases hp : h ≤ p <;> simp [hp]

variable [IsStrictOrderedRing K]

/-- Along one axis, a position in the cell lies in the chosen half of it exactly if the child has
the same root, and if half a side from the root's corner is on the same side as the middle. -/
lemma chosen_half_iff {w h base p : K} {r r' : ℤ} (hh : 0 < h) (hle : 2 * h ≤ base)
    (hlo : w - r * base ≤ p) (hhi : p < w - r * base + 2 * h) :
    (w + (if h ≤ p then 1 else 0) * h - r' * base ≤ p ∧
        p < w + (if h ≤ p then 1 else 0) * h + h - r' * base) ↔
      r' = r ∧ (h ≤ p ↔ w - r * base + h ≤ p) := by
  rcases lt_trichotomy r' r with hr | rfl | hr
  · have hroots : (r' : K) + 1 ≤ r := by exact_mod_cast hr
    have hgap : (r' : K) * base + base ≤ r * base := by nlinarith
    refine iff_of_false (fun hin => ?_) fun hin => hr.ne hin.1
    split at hin <;> linarith [hin.1]
  · split
    · rename_i hp
      simp only [hp, true_iff, true_and]
      constructor
      · intro hin
        linarith [hin.1]
      · intro hin
        exact ⟨by linarith, by linarith⟩
    · rename_i hp
      simp only [hp, false_iff, true_and, not_le]
      constructor
      · intro hin
        linarith [hin.2]
      · intro hin
        exact ⟨by linarith, by linarith⟩
  · have hroots : (r : K) + 1 ≤ r' := by exact_mod_cast hr
    have hgap : (r : K) * base + base ≤ r' * base := by nlinarith
    refine iff_of_false (fun hin => ?_) fun hin => hr.ne' hin.1
    split at hin <;> linarith [hin.2]

/-- **Where a split sends an entity.** Every authoritative entity is serialised for exactly one
child. If the coordinates of the children fit, then this is the child around the entity exactly if
the children have a size, the child has the root of the cell, and halving from the corner of the
root is halving the cell. -/
theorem split_serializes_into_child_iff (hbase : 0 < base) (hlive : e < b.ecs.next)
    (hauth : (b.ecs.rows e).any (·.replica.isNone) = true)
    (hin : (c.localBounds base).Contains (pos e).1 (pos e).2) :
    (∃! q, e ∈ b.quadrantEntities c base pos q) ∧
      ∀ q, e ∈ b.quadrantEntities c base pos q →
        b.serializeEntityCore e ∈ b.serializeQuadrantEntities c base pos q ∧
          (c.ChildrenFit → (((c.child q).localBounds base).Contains (pos e).1 (pos e).2 ↔
            c.depth + 1 < 32 ∧ ((c.child q).root.x = c.root.x ∧ (c.child q).root.y = c.root.y) ∧
              c.HalvedAlike base (pos e))) := by
  constructor
  · have hbits : ∀ i j : Bool, ∃! q : Fin 4, i = q.val.testBit 0 ∧ j = q.val.testBit 1 := by
      unfold ExistsUnique
      decide
    simpa only [mem_quadrantEntities hlive hauth] using hbits _ _
  intro q hq
  refine ⟨List.mem_map_of_mem hq, fun hfit => ?_⟩
  obtain ⟨hx, hy⟩ := (mem_quadrantEntities hlive hauth).mp hq
  by_cases hdepth : c.depth + 1 < 32
  · have hsize := size_pos (c := c) hbase (by omega)
    have hle := size_le c hbase.le
    obtain ⟨⟨hx₁, hx₂⟩, hy₁, hy₂⟩ := hin
    rw [localBounds_eq, child, hfit.1, hfit.2, worldBounds_child hdepth, Box.Contains,
      cast_bit hx, cast_bit hy]
    simp only [hdepth, true_and, CellID.HalvedAlike, localBounds_eq c, rootOrigin,
      Nat.cast_ofNat]
      at hx₁ hx₂ hy₁ hy₂ ⊢
    rw [chosen_half_iff (by linarith) (by linarith) hx₁ (by
        rw [maxX_eq] at hx₂; linarith),
      chosen_half_iff (by linarith) (by linarith) hy₁ (by
        rw [maxY_eq] at hy₂; linarith)]
    tauto
  · -- a child of depth 32 has no size
    refine iff_of_false (fun hchild => ?_) fun h => hdepth h.1
    rw [localBounds_eq] at hchild
    have hzero : (c.child q).size base = 0 := by
      simp [size, squaresPerBase, child, hdepth]
    have hlt := hchild.1.1.trans_lt hchild.1.2
    simp [worldBounds, hzero] at hlt

def Stage.oneEntity : Stage Unit :=
  { Stage.new true with ecs := ⟨1, fun e => if e = 0 then some ⟨some ⟨7, 1⟩, none⟩ else none⟩ }

/-- A split of a whole root: the entity goes to the top left child, and stands in it. -/
theorem split_serializes_into_child_iff_root :
    (∃! q, 0 ∈ Stage.oneEntity.quadrantEntities ⟨0, 0, 0⟩ (8 : ℚ) (fun _ => (1, 5)) q) ∧
      Stage.oneEntity.serializeEntityCore 0 ∈
        Stage.oneEntity.serializeQuadrantEntities ⟨0, 0, 0⟩ (8 : ℚ) (fun _ => (1, 5)) 2 ∧
      (((⟨0, 0, 0⟩ : CellID).child 2).localBounds (8 : ℚ)).Contains 1 5 := by
  have h := @split_serializes_into_child_iff ℚ _ _ Unit Stage.oneEntity ⟨0, 0, 0⟩ 8
    (fun _ => (1, 5)) 0 _ (by decide) (by decide) (by decide) (by decide +kernel)
  obtain ⟨hframe, hiff⟩ := h.2 2 (by decide +kernel)
  refine ⟨h.1, hframe, (hiff (by decide)).mpr ⟨by decide, by decide, ?_⟩⟩
  simp [CellID.HalvedAlike, localBounds]

/-- **An entity goes to the wrong child.** The cell is the right half of the bottom of its root, and
the entity stands in the left half of the cell. -/
theorem split_serializes_into_wrong_child :
    ((⟨1, 0, 1⟩ : CellID).localBounds (8 : ℚ)).Contains 5 1 ∧
      (((⟨1, 0, 1⟩ : CellID).child 0).localBounds (8 : ℚ)).Contains 5 1 ∧
      0 ∈ Stage.oneEntity.quadrantEntities ⟨1, 0, 1⟩ (8 : ℚ) (fun _ => (5, 1)) 1 ∧
      ¬ (((⟨1, 0, 1⟩ : CellID).child 1).localBounds (8 : ℚ)).Contains 5 1 := by
  decide +kernel

end Mmokit
