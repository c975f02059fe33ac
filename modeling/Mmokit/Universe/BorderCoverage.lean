/-
Does a border frame cover the strip along the border?

The test of the distance is meant to let all candidates through: its radius is twice the size of a
cell. But it compares the position of the entity, which is relative to the root of the cell, with
the midpoint of the facing side in world coordinates.
-/
import Mmokit.Universe.BorderReplication

namespace Mmokit

open CellID

variable {K : Type*} [Field K] [LinearOrder K]

def NearSide (d : ℤ) (lo hi margin p : K) : Prop :=
  (d = -1 → p < lo + margin) ∧ (d = 1 → hi - margin < p)

lemma entityNearNeighborEdge_iff {pos : Vec3 K} {nv : CellViewer K} {l : Box K} {margin : K}
    (hx : nv.dirDX = 1 ∨ nv.dirDX = -1 ∨ nv.dirDX = 0)
    (hy : nv.dirDY = 1 ∨ nv.dirDY = -1 ∨ nv.dirDY = 0) :
    entityNearNeighborEdge pos nv l margin = true ↔
      (nv.dirDX, nv.dirDY) ≠ (0, 0) ∧ NearSide nv.dirDX l.minX l.maxX margin pos.x ∧
        NearSide nv.dirDY l.minY l.maxY margin pos.y := by
  unfold entityNearNeighborEdge NearSide
  rcases hx with hx | hx | hx <;> rcases hy with hy | hy | hy <;> simp [hx, hy]

variable [IsStrictOrderedRing K]

lemma nearSide_of_axisDistance {aMin aMax bMin bMax o p dist margin : K}
    (h : axisDistance bMin bMax (o + p) < dist) (hm : dist ≤ margin) :
    NearSide (axisDirection aMin aMax bMin bMax) (aMin - o) (aMax - o) margin p := by
  obtain ⟨-, hlo, hhi⟩ : 0 < dist ∧ bMin - (o + p) < dist ∧ o + p - bMax < dist := by
    simpa [axisDistance] using h
  rcases axisDirection_cases aMin aMax bMin bMax with ⟨hd, h⟩ | ⟨hd, h⟩ | ⟨hd, -⟩
  · exact ⟨by simp [hd], fun _ => by linarith⟩
  · exact ⟨fun _ => by linarith, by simp [hd]⟩
  · exact ⟨by simp [hd], by simp [hd]⟩

variable {stage : BorderStage K} {dest : CellID} {ref : EntityRef K}

lemma aoiRadius_le_margin (haoi : 0 < stage.aoiRadius) (nv : CellViewer K) (netID : NetID) :
    stage.aoiRadius ≤ stage.margin nv netID := by
  unfold BorderStage.margin BorderStage.exitMargin BorderStage.enterMargin
  rw [if_neg (not_le.mpr haoi)]
  split <;> linarith

omit [IsStrictOrderedRing K] in
lemma direction_viewerAfter (id : UInt64) (cell dest : CellID) (base : K)
    (history : List (BorderStage K × UInt64)) :
    ((viewerAfter id cell dest base history).dirDX,
      (viewerAfter id cell dest base history).dirDY) =
        cell.cellDirection dest base := by
  have h := sameConfig_viewerAfter id cell dest base history
  rw [h.dirDX, h.dirDY]
  rfl

omit [IsStrictOrderedRing K] in
lemma inStrip_viewerAfter_iff (stage : BorderStage K) (dest : CellID) (id : UInt64)
    (history : List (BorderStage K × UInt64)) (ref : EntityRef K) :
    let nv := viewerAfter id stage.cell dest stage.baseCellSize history
    let d := stage.cell.cellDirection dest stage.baseCellSize
    let l := stage.cell.localBounds stage.baseCellSize
    stage.inStrip nv ref = true ↔
      ¬ stage.cell.Overlap dest stage.baseCellSize ∧
        NearSide d.1 l.minX l.maxX (stage.margin nv ref.netID.id) ref.position.x ∧
        NearSide d.2 l.minY l.maxY (stage.margin nv ref.netID.id) ref.position.y := by
  intro nv d l
  have hdir : (nv.dirDX, nv.dirDY) = d := direction_viewerAfter _ _ _ _ _
  have hx : nv.dirDX = d.1 := congrArg Prod.fst hdir
  have hy : nv.dirDY = d.2 := congrArg Prod.snd hdir
  have hthree (aMin aMax bMin bMax : K) :
      axisDirection aMin aMax bMin bMax = 1 ∨
        axisDirection aMin aMax bMin bMax = -1 ∨
        axisDirection aMin aMax bMin bMax = 0 := by
    rcases axisDirection_cases aMin aMax bMin bMax with h | h | h
    · exact .inl h.1
    · exact .inr (.inl h.1)
    · exact .inr (.inr h.1)
  unfold BorderStage.inStrip
  rw [entityNearNeighborEdge_iff (by rw [hx]; exact hthree _ _ _ _)
    (by rw [hy]; exact hthree _ _ _ _),
    hx, hy, Ne, cellDirection_eq_zero_iff]

/-- **The strip contains all entities that are close to the neighbour**, if the cells do not
overlap. -/
lemma inStrip_of_close (haoi : 0 < stage.aoiRadius) (id : UInt64)
    (history : List (BorderStage K × UInt64))
    (hover : ¬ stage.cell.Overlap dest stage.baseCellSize)
    (hclose : stage.cell.CloseTo dest stage.baseCellSize ref.position.x ref.position.y
      stage.aoiRadius) :
    stage.inStrip (viewerAfter id stage.cell dest stage.baseCellSize history) ref = true := by
  refine (inStrip_viewerAfter_iff stage dest id history ref).mpr ?_
  rw [localBounds_eq]
  have hm := aoiRadius_le_margin haoi
    (viewerAfter id stage.cell dest stage.baseCellSize history) ref.netID.id
  exact ⟨hover, nearSide_of_axisDistance hclose.1 hm, nearSide_of_axisDistance hclose.2 hm⟩

def CellID.facingMidpoint (c dest : CellID) (base : K) : K × K :=
  let d := c.cellDirection dest base
  (c.localBounds base).sideMidpoint d.1 d.2

/-- The local position of an entity is within two cell sizes of the midpoint of the facing side in
world coordinates: the midpoint relative to the root, moved by the origin of the root. -/
def WithinShiftedRadius (cell dest : CellID) (base : K) (pos : Vec3 K) : Prop :=
  let m := cell.facingMidpoint dest base
  let o := cell.rootOrigin base
  (pos.x - (m.1 + o.1)) ^ 2 + (pos.y - (m.2 + o.2)) ^ 2 ≤ defaultTierRadius base ^ 2

lemma neighborBoundaryMidpoint_eq (cell dest : CellID) (base : K) :
    neighborBoundaryMidpoint cell (cell.cellDirection dest base).1
        (cell.cellDirection dest base).2 base =
      ((cell.facingMidpoint dest base).1 + (cell.rootOrigin base).1,
        (cell.facingMidpoint dest base).2 + (cell.rootOrigin base).2) := by
  unfold neighborBoundaryMidpoint facingMidpoint Box.sideMidpoint
  rw [localBounds_eq]
  ext <;> dsimp only <;> ring

lemma passes_viewerAfter_iff (cell dest : CellID) (base : K) (id tick : UInt64)
    (history : List (BorderStage K × UInt64)) (ref : EntityRef K) :
    (viewerAfter id cell dest base history).passes tick ref = true ↔
      WithinShiftedRadius cell dest base ref.position := by
  have h := sameConfig_viewerAfter id cell dest base history
  have hmid := neighborBoundaryMidpoint_eq cell dest base
  have htier : (neighborViewer id cell dest base).tier ref.kind =
      ⟨defaultTierRadius base, 1⟩ := rfl
  have hx : (neighborViewer id cell dest base).x = _ := congrArg Prod.fst hmid
  have hy : (neighborViewer id cell dest base).y = _ := congrArg Prod.snd hmid
  unfold CellViewer.passes WithinShiftedRadius
  rw [h.tier, htier, h.x, h.y, hx, hy]
  simp [insideRadius, skipThisTick, sq]

lemma size_le (cell : CellID) {base : K} (hbase : 0 ≤ base) : cell.size base ≤ base := by
  unfold size squaresPerBase
  split
  · have hone : (1 : K) ≤ ((2 ^ cell.depth : ℕ) : K) := by
      exact_mod_cast Nat.one_le_two_pow
    exact div_le_self hbase hone
  · simpa using hbase

def InLocalBounds (cell : CellID) (base : K) (pos : Vec3 K) : Prop :=
  let l := cell.localBounds base
  (l.minX ≤ pos.x ∧ pos.x ≤ l.maxX) ∧ (l.minY ≤ pos.y ∧ pos.y ≤ l.maxY)

omit [LinearOrder K] [IsStrictOrderedRing K] in
lemma position_eq_of_stamp_eq {ref ref' : EntityRef K} (h : stage.stamp ref' = stage.stamp ref) :
    ref'.position.x = ref.position.x ∧ ref'.position.y = ref.position.y := by
  have hheader : stage.header ref' = stage.header ref := congrArg (·.2.2) h
  exact ⟨add_left_cancel (congrArg BorderHeader.worldX hheader),
    add_left_cancel (congrArg BorderHeader.worldY hheader)⟩

/-- **Coverage of the border.** An entity that the query yields and that is closer to the neighbour
than the radius of interest has an entry in the frame exactly if the cells do not overlap and its
local position is within the radius of the midpoint in world coordinates. -/
theorem borderFrame_covers_iff (stage : BorderStage K) (dest : CellID) (id tick : UInt64)
    (history : List (BorderStage K × UInt64)) (e : BorderEntity K) (ref : EntityRef K)
    (he : e ∈ stage.entities) (href : e.ref = some ref) (haoi : 0 < stage.aoiRadius)
    (hclose : stage.cell.CloseTo dest stage.baseCellSize ref.position.x ref.position.y
      stage.aoiRadius) :
    (∃ entry ∈ (stage.borderFrame
        (viewerAfter id stage.cell dest stage.baseCellSize history) tick).entries,
      entry.stamp = stage.stamp ref) ↔
      ¬ stage.cell.Overlap dest stage.baseCellSize ∧
        WithinShiftedRadius stage.cell dest stage.baseCellSize ref.position := by
  rw [mem_borderFrame_iff]
  constructor
  · rintro ⟨ref', hmem, hpass, hstamp⟩
    -- Another entity with the same stamp stands at the same place, so its tests are those of `e`.
    obtain ⟨hx, hy⟩ := position_eq_of_stamp_eq hstamp
    have hstrip := (List.mem_filter.mp hmem).2
    refine ⟨((inStrip_viewerAfter_iff stage dest id history ref').mp hstrip).1, ?_⟩
    rw [passes_viewerAfter_iff] at hpass
    simpa only [WithinShiftedRadius, hx, hy] using hpass
  · rintro ⟨hover, hradius⟩
    have hquery : ref ∈ stage.entities.filterMap BorderEntity.ref :=
      List.mem_filterMap.mpr ⟨e, he, href⟩
    have hstrip := inStrip_of_close haoi id history hover hclose
    exact ⟨ref, List.mem_filter.mpr ⟨hquery, hstrip⟩,
      (passes_viewerAfter_iff _ _ _ _ _ _ _).mpr hradius, rfl⟩

def entityAtBorder : BorderEntity ℚ where
  position := some ⟨99, 50, 0⟩
  networkID := some ⟨7, 0⟩
  kind := some 1
  collider := some 1
  ghost := false
  replica := false
  dormant := false
  velocity := none
  rotation := none
  components := [0, 0]

def refAtBorder : EntityRef ℚ :=
  ⟨⟨7, 0⟩, 1, ⟨99, 50, 0⟩, 1, ⟨0, 0, 0⟩, ⟨0, 0, 0, 0⟩, [0, 0]⟩

def borderStageAt (x : ℤ) : BorderStage ℚ where
  cell := ⟨x, 0, 0⟩
  baseCellSize := 100
  aoiRadius := 50
  dimension := .dimension2D
  producedAtMs := 0
  entities := [entityAtBorder]

theorem borderFrame_covers_first :
    ∃ entry ∈ ((borderStageAt 0).borderFrame (viewerAfter 1 ⟨0, 0, 0⟩ ⟨1, 0, 0⟩ 100 []) 1).entries,
      entry.stamp = (borderStageAt 0).stamp refAtBorder :=
  (borderFrame_covers_iff (borderStageAt 0) ⟨1, 0, 0⟩ 1 1 [] entityAtBorder refAtBorder
    (List.mem_singleton.mpr rfl) rfl (by decide +kernel)
    (by unfold CellID.CloseTo; decide +kernel)).mpr
    ⟨by unfold CellID.Overlap; decide +kernel, by unfold WithinShiftedRadius; decide +kernel⟩

/-- The same entity in the sixth cell of the row is not sent to the seventh. -/
theorem borderFrame_misses :
    areAdjacent ⟨5, 0, 0⟩ ⟨6, 0, 0⟩ (100 : ℚ) = true ∧
      ¬ CellID.Overlap ⟨5, 0, 0⟩ ⟨6, 0, 0⟩ (100 : ℚ) ∧
      entityAtBorder ∈ (borderStageAt 5).entities ∧ entityAtBorder.ref = some refAtBorder ∧
      InLocalBounds ⟨5, 0, 0⟩ (100 : ℚ) refAtBorder.position ∧
      (0 < (borderStageAt 5).aoiRadius ∧
        (borderStageAt 5).aoiRadius ≤ (borderStageAt 5).baseCellSize) ∧
      CellID.CloseTo ⟨5, 0, 0⟩ ⟨6, 0, 0⟩ (100 : ℚ) 99 50 (borderStageAt 5).aoiRadius ∧
      ((borderStageAt 5).borderFrame (neighborViewer 1 ⟨5, 0, 0⟩ ⟨6, 0, 0⟩ 100) 1).entries =
        [] := by
  unfold CellID.Overlap CellID.CloseTo InLocalBounds
  refine ⟨?_, ?_, List.mem_singleton.mpr rfl, rfl, ?_, ?_, ?_, ?_⟩ <;> decide +kernel

end Mmokit
