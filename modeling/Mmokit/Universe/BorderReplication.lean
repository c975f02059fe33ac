/-
Border replication (`pkg/universe/border_replication.go`, `border_viewer.go` and the dispatcher of
`pkg/replication`).

Every tick a cell sends each neighbour a frame with the entities near the common border.
-/
import Mmokit.Universe.CellID
import Mmokit.Universe.Stage

namespace Mmokit

inductive Dimension
  | dimension2D
  | dimension3D
deriving DecidableEq

structure Vec3 (K : Type*) where
  x : K
  y : K
  z : K
deriving DecidableEq

structure Rotation (K : Type*) where
  x : K
  y : K
  z : K
  w : K
deriving DecidableEq

structure BorderEntity (K : Type*) where
  position : Option (Vec3 K)
  networkID : Option NetworkID
  kind : Option UInt8
  /-- The radius of the collider. -/
  collider : Option K
  ghost : Bool
  replica : Bool
  dormant : Bool
  velocity : Option (Vec3 K)
  rotation : Option (Rotation K)
  /-- What `scanEntityComponents` writes for the entity. -/
  components : List UInt8
deriving DecidableEq

/-- The fixed part of what is sent for an entity, before it is quantised. The coordinates that a 2D
profile does not carry are absent there. -/
structure BorderHeader (K : Type*) where
  worldX : K
  worldY : K
  worldZ : Option K
  radius : K
  vx : K
  vy : K
  vz : Option K
  rot : Rotation K
  producedAtMs : UInt64
deriving DecidableEq

def borderHeaderSize : Dimension → ℕ
  | .dimension2D => 26
  | .dimension3D => 37

structure DeltaBuf (K : Type*) where
  dimension : Dimension
  header : BorderHeader K
  tail : List UInt8
deriving DecidableEq

def DeltaBuf.length {K : Type*} (d : DeltaBuf K) : ℕ := borderHeaderSize d.dimension + d.tail.length

structure FrameEntry (K : Type*) where
  netID : NetworkID
  kind : UInt16
  deltaBuf : DeltaBuf K
deriving DecidableEq

structure Frame (K : Type*) where
  viewerID : UInt64
  tick : UInt64
  entries : List (FrameEntry K)
deriving DecidableEq

structure ReplicationTier (K : Type*) where
  radius : K
  updateDivisor : ℤ
deriving DecidableEq

structure EntityBaseline where
  authorityEpoch : Epoch
  hasAuthorityEpoch : Bool
  fullTailFramesRemaining : UInt8
  acked : Option (List UInt8)
deriving DecidableEq

structure CellViewer (K : Type*) where
  id : UInt64
  x : K
  y : K
  tiers : UInt16 → Option (ReplicationTier K)
  defaultTier : ReplicationTier K
  dirDX : ℤ
  dirDY : ℤ
  baselines : NetID → Option EntityBaseline
  prevInSet : NetID → Bool
  currInSet : NetID → Bool

structure BorderStage (K : Type*) where
  cell : CellID
  baseCellSize : K
  aoiRadius : K
  dimension : Dimension
  /-- The stamp of the cluster clock, `0` without a clock. -/
  producedAtMs : UInt64
  /-- All entities, in the order of the query. -/
  entities : List (BorderEntity K)

structure EntityRef (K : Type*) where
  netID : NetworkID
  kind : UInt16
  position : Vec3 K
  radius : K
  velocity : Vec3 K
  rotation : Rotation K
  components : List UInt8

variable {K : Type*}

def borderLifecycleFullTailFrames : UInt8 := 3

def borderFullResyncInterval : UInt32 := 30

/-- The mark for an unchanged tail, `0xFFFF` in little-endian order. -/
def borderTailUnchanged : List UInt8 := [0xFF, 0xFF]

/-! ### The viewer -/

namespace CellViewer

variable (v : CellViewer K)

def wasInSet (netID : NetID) : Bool := v.prevInSet netID

def markInSet (netID : NetID) : CellViewer K :=
  { v with currInSet := Function.update v.currInSet netID true }

def swapInSet : CellViewer K :=
  { v with
    baselines := fun netID =>
      if v.prevInSet netID && !v.currInSet netID then none else v.baselines netID
    prevInSet := v.currInSet
    currInSet := fun _ => false }

/-- The tier of a kind. A border frame lists all members, so the divisor of an own tier is
ignored. -/
def tier (kind : UInt16) : ReplicationTier K :=
  match v.tiers kind with
  | some t => { t with updateDivisor := 1 }
  | none => v.defaultTier

end CellViewer

structure CellViewer.SameConfig (v w : CellViewer K) : Prop where
  x : v.x = w.x
  y : v.y = w.y
  tiers : v.tiers = w.tiers
  defaultTier : v.defaultTier = w.defaultTier
  dirDX : v.dirDX = w.dirDX
  dirDY : v.dirDY = w.dirDY

namespace CellViewer.SameConfig

variable {u v w : CellViewer K}

lemma refl (v : CellViewer K) : v.SameConfig v := ⟨rfl, rfl, rfl, rfl, rfl, rfl⟩

lemma trans (h : u.SameConfig v) (h' : v.SameConfig w) : u.SameConfig w :=
  ⟨h.x.trans h'.x, h.y.trans h'.y, h.tiers.trans h'.tiers, h.defaultTier.trans h'.defaultTier,
    h.dirDX.trans h'.dirDX, h.dirDY.trans h'.dirDY⟩

lemma tier (h : v.SameConfig w) (kind : UInt16) : v.tier kind = w.tier kind := by
  simp only [CellViewer.tier, h.tiers, h.defaultTier]

end CellViewer.SameConfig

section Tiers

variable [Field K] [LinearOrder K]

def insideRadius (t : ReplicationTier K) (cx cy px py : K) : Bool :=
  let dx := px - cx
  let dy := py - cy
  dx * dx + dy * dy ≤ t.radius * t.radius

def skipThisTick (t : ReplicationTier K) (tick : UInt64) : Bool :=
  if t.updateDivisor ≤ 1 then false else (tick.toNat : ℤ) % t.updateDivisor ≠ 0

def Box.sideMidpoint (b : Box K) (dx dy : ℤ) : K × K :=
  let cx := (b.minX + b.maxX) / 2
  let cy := (b.minY + b.maxY) / 2
  let halfW := (b.maxX - b.minX) / 2
  let halfH := (b.maxY - b.minY) / 2
  (cx + dx * halfW, cy + dy * halfH)

def neighborBoundaryMidpoint (cell : CellID) (dx dy : ℤ) (baseCellSize : K) : K × K :=
  (cell.worldBounds baseCellSize).sideMidpoint dx dy

def defaultTierRadius (baseCellSize : K) : K := baseCellSize * 2

def newCellViewer (id : UInt64) (boundaryX boundaryY baseCellSize : K) : CellViewer K where
  id := id
  x := boundaryX
  y := boundaryY
  tiers := fun _ => none
  defaultTier := ⟨defaultTierRadius baseCellSize, 1⟩
  dirDX := 0
  dirDY := 0
  baselines := fun _ => none
  prevInSet := fun _ => false
  currInSet := fun _ => false

def neighborViewer (id : UInt64) (cell dest : CellID) (baseCellSize : K) : CellViewer K :=
  let d := cell.cellDirection dest baseCellSize
  let m := neighborBoundaryMidpoint cell d.1 d.2 baseCellSize
  { newCellViewer id m.1 m.2 baseCellSize with dirDX := d.1, dirDY := d.2 }

end Tiers

/-! ### Building an entry -/

section Build

variable [Field K] [LinearOrder K] (stage : BorderStage K)

def BorderStage.header (ref : EntityRef K) : BorderHeader K :=
  let o := stage.cell.rootOrigin stage.baseCellSize
  let only3D (k : K) : Option K := if stage.dimension = .dimension3D then some k else none
  { worldX := o.1 + ref.position.x
    worldY := o.2 + ref.position.y
    worldZ := only3D ref.position.z
    radius := ref.radius
    vx := ref.velocity.x
    vy := ref.velocity.y
    vz := only3D ref.velocity.z
    rot := ref.rotation
    producedAtMs := stage.producedAtMs }

/-- The baseline of this lifecycle of an entity: a fresh one if there is none, or none of this
epoch. -/
def CellViewer.lifecycleBaseline (v : CellViewer K) (nid : NetworkID) : EntityBaseline :=
  let fresh : EntityBaseline := ⟨nid.epoch, true, borderLifecycleFullTailFrames, none⟩
  match v.baselines nid.id with
  | none => fresh
  | some bl => if !bl.hasAuthorityEpoch || bl.authorityEpoch ≠ nid.epoch then fresh else bl

def BorderStage.build (tick : UInt64) (ref : EntityRef K) (v : CellViewer K) :
    DeltaBuf K × CellViewer K :=
  let v := v.markInSet ref.netID.id
  let bl := v.lifecycleBaseline ref.netID
  let forceResync := bl.acked.isNone || 0 < bl.fullTailFramesRemaining ||
    tick.toUInt32 % borderFullResyncInterval == 0
  if !forceResync && bl.acked == some ref.components then
    let v := { v with baselines := Function.update v.baselines ref.netID.id (some bl) }
    (⟨stage.dimension, stage.header ref, borderTailUnchanged⟩, v)
  else
    let bl := { bl with
      acked := some ref.components
      fullTailFramesRemaining :=
        if 0 < bl.fullTailFramesRemaining then bl.fullTailFramesRemaining - 1
        else bl.fullTailFramesRemaining }
    let v := { v with baselines := Function.update v.baselines ref.netID.id (some bl) }
    (⟨stage.dimension, stage.header ref, ref.components⟩, v)

/-! ### The walk -/

/-- Is the entity within `margin` of the side of the cell that faces the neighbour? -/
def entityNearNeighborEdge (pos : Vec3 K) (nv : CellViewer K) (l : Box K) (margin : K) : Bool :=
  let nearLeft := pos.x < l.minX + margin
  let nearRight := l.maxX - margin < pos.x
  let nearBottom := pos.y < l.minY + margin
  let nearTop := l.maxY - margin < pos.y
  match nv.dirDX, nv.dirDY with
  | -1, 0 => nearLeft
  | 1, 0 => nearRight
  | 0, -1 => nearBottom
  | 0, 1 => nearTop
  | -1, -1 => nearLeft && nearBottom
  | -1, 1 => nearLeft && nearTop
  | 1, -1 => nearRight && nearBottom
  | 1, 1 => nearRight && nearTop
  | _, _ => false

def BorderStage.enterMargin : K := if stage.aoiRadius ≤ 0 then 100 else stage.aoiRadius

def BorderStage.exitMargin : K := stage.enterMargin * (3 / 2)

def BorderEntity.ref (e : BorderEntity K) : Option (EntityRef K) :=
  match e.position, e.networkID, e.kind, e.collider with
  | some pos, some netID, some kind, some radius =>
    if e.ghost || e.replica || e.dormant then none
    else
      some
        { netID := netID
          kind := kind.toUInt16
          position := pos
          radius := radius
          velocity := e.velocity.getD ⟨0, 0, 0⟩
          rotation := e.rotation.getD ⟨0, 0, 0, 0⟩
          components := e.components }
  | _, _, _, _ => none

def BorderStage.margin (nv : CellViewer K) (netID : NetID) : K :=
  if nv.wasInSet netID then stage.exitMargin else stage.enterMargin

def BorderStage.inStrip (nv : CellViewer K) (ref : EntityRef K) : Bool :=
  entityNearNeighborEdge ref.position nv (stage.cell.localBounds stage.baseCellSize)
    (stage.margin nv ref.netID.id)

def BorderStage.candidatesFor (nv : CellViewer K) : List (EntityRef K) :=
  (stage.entities.filterMap BorderEntity.ref).filter (stage.inStrip nv)

def BorderStage.walkOne (tick : UInt64) (acc : List (FrameEntry K) × CellViewer K)
    (ref : EntityRef K) : List (FrameEntry K) × CellViewer K :=
  let tier := acc.2.tier ref.kind
  if !insideRadius tier acc.2.x acc.2.y ref.position.x ref.position.y then acc
  else if skipThisTick tier tick then acc
  else
    let r := stage.build tick ref acc.2
    if r.1.length = 0 then (acc.1, r.2) else (acc.1 ++ [⟨ref.netID, ref.kind, r.1⟩], r.2)

def BorderStage.tickNeighbor (nv : CellViewer K) (tick : UInt64) : Frame K × CellViewer K :=
  let r := (stage.candidatesFor nv).foldl (stage.walkOne tick) ([], nv)
  (⟨nv.id, tick, r.1⟩, r.2.swapInSet)

def BorderStage.borderFrame (nv : CellViewer K) (tick : UInt64) : Frame K :=
  (stage.tickNeighbor nv tick).1

def viewerAfter (id : UInt64) (cell dest : CellID) (baseCellSize : K)
    (history : List (BorderStage K × UInt64)) : CellViewer K :=
  history.foldl (fun v h => (h.1.tickNeighbor v h.2).2) (neighborViewer id cell dest baseCellSize)

/-! ### What ticks leave alone -/

omit [LinearOrder K] in
lemma sameConfig_build (tick : UInt64) (ref : EntityRef K) (v : CellViewer K) :
    (stage.build tick ref v).2.SameConfig v := by
  unfold BorderStage.build
  dsimp only
  split <;> exact ⟨rfl, rfl, rfl, rfl, rfl, rfl⟩

/-! ### Which entities a frame holds -/

/-- What identifies the entity of an entry: all but the components. -/
def FrameEntry.stamp (e : FrameEntry K) : NetworkID × UInt16 × BorderHeader K :=
  (e.netID, e.kind, e.deltaBuf.header)

def BorderStage.stamp (ref : EntityRef K) : NetworkID × UInt16 × BorderHeader K :=
  (ref.netID, ref.kind, stage.header ref)

def CellViewer.passes (v : CellViewer K) (tick : UInt64) (ref : EntityRef K) : Bool :=
  insideRadius (v.tier ref.kind) v.x v.y ref.position.x ref.position.y &&
    !skipThisTick (v.tier ref.kind) tick

omit [LinearOrder K] in
lemma header_build (tick : UInt64) (ref : EntityRef K) (v : CellViewer K) :
    (stage.build tick ref v).1.header = stage.header ref := by
  unfold BorderStage.build
  dsimp only
  split <;> rfl

omit [Field K] [LinearOrder K] in
lemma DeltaBuf.length_ne_zero (d : DeltaBuf K) : d.length ≠ 0 := by
  have h : 0 < borderHeaderSize d.dimension := by cases d.dimension <;> decide
  unfold DeltaBuf.length
  omega

variable {v : CellViewer K} (tick : UInt64)

lemma walkOne_spec {acc : List (FrameEntry K) × CellViewer K} (h : acc.2.SameConfig v)
    (ref : EntityRef K) :
    (stage.walkOne tick acc ref).2.SameConfig v ∧
      (stage.walkOne tick acc ref).1.map FrameEntry.stamp =
        acc.1.map FrameEntry.stamp ++ if v.passes tick ref then [stage.stamp ref] else [] := by
  unfold BorderStage.walkOne CellViewer.passes
  simp only [h.tier, h.x, h.y]
  cases hr : insideRadius (v.tier ref.kind) v.x v.y ref.position.x ref.position.y with
  | false => simpa using h
  | true =>
    cases hs : skipThisTick (v.tier ref.kind) tick with
    | true => simpa using h
    | false =>
      have hne := DeltaBuf.length_ne_zero (stage.build tick ref acc.2).1
      simp [hne, FrameEntry.stamp, BorderStage.stamp, header_build,
        (sameConfig_build stage tick ref acc.2).trans h]

lemma stamps_walk {acc : List (FrameEntry K) × CellViewer K} (h : acc.2.SameConfig v)
    (refs : List (EntityRef K)) :
    (refs.foldl (stage.walkOne tick) acc).2.SameConfig v ∧
      (refs.foldl (stage.walkOne tick) acc).1.map FrameEntry.stamp =
        acc.1.map FrameEntry.stamp ++ (refs.filter (v.passes tick)).map stage.stamp := by
  induction refs generalizing acc with
  | nil => simpa using h
  | cons ref refs ih =>
    obtain ⟨hconfig, hstamps⟩ := walkOne_spec stage tick h ref
    obtain ⟨hconfig', hstamps'⟩ := ih hconfig
    refine ⟨hconfig', ?_⟩
    rw [List.foldl_cons, hstamps', hstamps, List.filter_cons]
    split <;> simp

lemma sameConfig_tickNeighbor (nv : CellViewer K) :
    (stage.tickNeighbor nv tick).2.SameConfig nv := by
  have hstart : (([], nv) : List (FrameEntry K) × CellViewer K).2.SameConfig nv := .refl nv
  have h := (stamps_walk stage tick hstart (stage.candidatesFor nv)).1
  exact ⟨h.x, h.y, h.tiers, h.defaultTier, h.dirDX, h.dirDY⟩

lemma sameConfig_viewerAfter (id : UInt64) (cell dest : CellID) (baseCellSize : K)
    (history : List (BorderStage K × UInt64)) :
    (viewerAfter id cell dest baseCellSize history).SameConfig
      (neighborViewer id cell dest baseCellSize) := by
  unfold viewerAfter
  generalize neighborViewer id cell dest baseCellSize = nv
  induction history generalizing nv with
  | nil => exact .refl nv
  | cons h history ih => exact (ih _).trans (sameConfig_tickNeighbor h.1 h.2 nv)

lemma mem_borderFrame_iff {nv : CellViewer K} {st : NetworkID × UInt16 × BorderHeader K} :
    (∃ entry ∈ (stage.borderFrame nv tick).entries, entry.stamp = st) ↔
      ∃ ref ∈ stage.candidatesFor nv, nv.passes tick ref = true ∧ stage.stamp ref = st := by
  have hstart : (([], nv) : List (FrameEntry K) × CellViewer K).2.SameConfig nv := .refl nv
  have h : (stage.borderFrame nv tick).entries.map FrameEntry.stamp =
      ((stage.candidatesFor nv).filter (nv.passes tick)).map stage.stamp :=
    (stamps_walk stage tick hstart (stage.candidatesFor nv)).2
  rw [← List.mem_map, h]
  simp [and_assoc]

end Build

end Mmokit
