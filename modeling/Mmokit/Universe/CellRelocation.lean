/-
Splitting and migrating a cell together with its entities
(`pkg/universe/cell_transfer_executor.go`).

The source cell runs one closure per destination on its loop: the promotions that are due are
carried out, and then every live entity is serialised, for a split only those of one quadrant. The
destination is a new cell, populated from what was serialised. The source cell keeps running, with
all its entities, until every destination has reported and the commit releases it.

Positions are not part of a stage; the closure of a quadrant is given, for every entity, the
answers to the two comparisons `pos.X >= half` and `pos.Y >= half`.
-/
import Mmokit.Universe.Cluster

namespace Mmokit

variable {M : Type*}

/-- One `cellTransferCommand`: where the entities go and, for a split, which quadrant they are
taken from. -/
structure RelocationCommand (M : Type*) where
  destCellID : M
  quadrant : Option (Fin 4)
deriving DecidableEq

inductive Relocation (M : Type*)
  | split (parent : M) (children : Fin 4 → M)
  | migrate (source dest : M)

namespace Relocation

def srcCellID : Relocation M → M
  | split parent _ => parent
  | migrate source _ => source

def commands : Relocation M → List (RelocationCommand M)
  | split _ children => (List.finRange 4).map fun q => ⟨children q, some q⟩
  | migrate _ dest => [⟨dest, none⟩]

end Relocation

/-! ### The source -/

/-- Does an entity stand in this quadrant? `right` and `top` are the answers to `pos.X >= half` and
`pos.Y >= half`. -/
def inQuadrant (quadrant : Fin 4) (right top : Bool) : Bool :=
  right == quadrant.val.testBit 0 && top == quadrant.val.testBit 1

namespace RelocationCommand

def selects (cmd : RelocationCommand M) (pos : Bool × Bool) : Bool :=
  match cmd.quadrant with
  | some q => inQuadrant q pos.1 pos.2
  | none => true

end RelocationCommand

namespace Stage

def serializeEntities (b : Stage M) (keep : Entity → Bool) : List TransferFrame :=
  ((List.range b.ecs.next).filter fun e =>
    (b.ecs.rows e).any (·.replica.isNone) && keep e).map b.serializeEntityCore

end Stage

/-- `flushDuePromotesForCommit` for a split or a migration: only the promotions that are due are
carried out, in some order. -/
def Cell.flushDuePromotesForCommit (c : Cell M)
    (clusterTick : UInt64) (order : List (PendingPromote M)) : Cell M :=
  order.foldl Cell.promoteOne (c.takeDuePromotes clusterTick).2

/-! ### The destination -/

namespace Stage

def new (strict : Bool) : Stage M :=
  { ecs := ⟨0, fun _ => none⟩, netIDIdx := ⟨fun _ => none⟩, strictNetIDIndex := strict,
    replicaNetIDs := fun _ => none, highestSeenEpoch := fun _ => none, borderLastSeen := [],
    handoffAccepted := fun _ => none, crossingQueue := [], drainingForMerge := false,
    toRemove := [], log := [] }

/-- `spawnCellTransferLive`: a new authority always advances the epoch. -/
def spawnCellTransferLive (b : Stage M) (frame : TransferFrame) :
    Except StageError Entity × Stage M :=
  b.spawnFromTransferCore ⟨frame.networkID, frame.epoch + 1⟩ .live

def populate (existing : List NetID) (b : Stage M) :
    List TransferFrame → Except StageError (Stage M)
  | [] => .ok b
  | frame :: rest =>
    if frame.networkID ∈ existing then b.populate existing rest
    else
      match (b.removeReplicaByNetID frame.networkID).spawnCellTransferLive frame with
      | (.ok _, b₁) => b₁.populate (frame.networkID :: existing) rest
      | (.error err, _) => .error err

end Stage

def Cell.around (b : Stage M) : Cell M := ⟨⟨b, ∅, [], fun _ _ => none⟩, [], .idle⟩

/-! ### The whole relocation -/

def ClusterEvent.cell? : ClusterEvent M → Option M
  | .loop c _ | .queueCrossing c _ | .borderFrame c _ _ => some c
  | .deliver pkt _ => some pkt.destCellID
  | .lose _ | .duplicate _ => none

structure RelocationState (M : Type*) where
  cluster : Cluster M
  running : M → Bool
  /-- What was serialised and sent for a command. -/
  shipped : RelocationCommand M → Option (List TransferFrame)
  /-- The commands whose destination has reported. -/
  ready : List (RelocationCommand M)

inductive RelocationEvent (M : Type*)
  /-- A step of the boundary handoff. -/
  | handoff (ev : ClusterEvent M)
  /-- `Execute`, on the loop of the source cell; `half` says where its entities stand. -/
  | execute (cmd : RelocationCommand M) (clusterTick : UInt64)
    (order : List (PendingPromote M)) (half : Entity → Bool × Bool)
  /-- `Receive` of what was sent for a command, on a host whose index is strict or not. -/
  | receive (cmd : RelocationCommand M) (strict : Bool)
  /-- The commit releases the source cell. -/
  | release

namespace RelocationState

variable [DecidableEq M]

/-- `Receive`: a destination that exists already only reports again. -/
def receive (s : RelocationState M) (cmd : RelocationCommand M) (strict : Bool)
    (frames : List TransferFrame) :
    Option (RelocationState M) :=
  if s.running cmd.destCellID then some { s with ready := cmd :: s.ready }
  else
    match (Stage.new strict).populate [] frames with
    | .ok b =>
      some { s with
        cluster := s.cluster.setCell cmd.destCellID (.around b) s.cluster.net []
        running := Function.update s.running cmd.destCellID true
        ready := cmd :: s.ready }
    | .error _ => none

def step (r : Relocation M) (s : RelocationState M) :
    RelocationEvent M → Option (RelocationState M)
  | .handoff ev =>
    if ev.cell?.all s.running then (s.cluster.step ev).map fun t => { s with cluster := t }
    else none
  | .execute cmd clusterTick order half =>
    let src := s.cluster.cells r.srcCellID
    if cmd ∈ r.commands ∧ s.shipped cmd = none ∧ s.running r.srcCellID ∧ src.phase = .idle ∧
        order.isPerm (src.takeDuePromotes clusterTick).1 then
      let src₁ := src.flushDuePromotesForCommit clusterTick order
      let frames := src₁.stage.serializeEntities fun e => cmd.selects (half e)
      some { s with
        cluster := s.cluster.setCell r.srcCellID src₁ s.cluster.net []
        shipped := Function.update s.shipped cmd (some frames) }
    else none
  | .receive cmd strict =>
    match s.shipped cmd with
    | some frames => s.receive cmd strict frames
    | none => none
  | .release =>
    if (∀ cmd ∈ r.commands, cmd ∈ s.ready) ∧ s.running r.srcCellID then
      some { s with running := Function.update s.running r.srcCellID false }
    else none

end RelocationState

end Mmokit
