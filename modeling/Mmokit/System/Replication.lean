/-
The sender of the client replication stream (`pkg/system/replication.go`), for one viewer whose
connection acknowledges frames explicitly.

Every tick the sender looks at the entities around the viewer and writes one frame: full snapshots
of entities that are new to the client, deltas of entities that changed, and the entities that left.
Deltas are encoded against the state that the client has acknowledged. At most one frame is in
flight: while it waits for its acknowledgement nothing is sent, and if the acknowledgement does not
come the next frame starts afresh.

What a frame would change in the sender's state is staged, and is committed when the frame is
acknowledged.
-/
import Mmokit.Library.Serial
import Mmokit.Quantize.DeltaEncoder
import Mmokit.Universe.NetIDIndex

namespace Mmokit.Replication

/-- How the entities of one kind are replicated. `S` is all that the replicator reads: the
components of the entity, and the viewer. -/
structure EntityReplicator (S : Type*) where
  hash : S → UInt64
  snapshot : S → List UInt8
  layout : DeltaEncoder
  hasInitial : Bool
  initialHash : S → UInt64
  initialData : S → List UInt8
  updateDivisor : UInt32
  /-- The fields of a snapshot match the layout. -/
  snapshot_wellFormed : ∀ s, layout.WellFormed (snapshot s)

structure Candidate (S : Type*) where
  netID : NetID
  epoch : Epoch
  kind : UInt8
  state : S
  alive : Bool
  hasNetworkID : Bool
  dormant : Bool
  /-- The entity is the viewer's own. -/
  isViewer : Bool
  relevant : Bool
  inRadius : Bool

inductive SendDisposition
  | failed
  | queued
  | backpressure
  | closed
  | noRoute
  | indeterminate
deriving DecidableEq

structure ReplicationConfig (S : Type*) where
  replicators : UInt8 → Option (EntityReplicator S)
  fullRefreshInterval : UInt32
  pendingAckTimeoutTicks : UInt32

structure TickInput (S : Type*) where
  tick : UInt32
  generation : UInt32
  /-- The NetworkID of the viewer's entity, if it has one. -/
  viewerNetID : Option NetID
  results : List (Candidate S)
  removedIDs : List NetID
  disposition : SendDisposition

structure FullPayload where
  netID : NetID
  epoch : Epoch
  type : UInt8
  snapshot : List UInt8
  initialData : List UInt8
deriving DecidableEq

structure DeltaPayload where
  netID : NetID
  epoch : Epoch
  type : UInt8
  data : List UInt8
deriving DecidableEq

structure ReplicationFrame where
  tick : UInt32
  seq : UInt32
  streamEpoch : UInt32
  fresh : Bool
  full : List FullPayload
  deltas : List DeltaPayload
  exited : List NetID
  removed : List NetID
deriving DecidableEq

/-- What the client has of an entity. -/
structure Baseline where
  authorityEpoch : Epoch := 0
  hasAuthorityEpoch : Bool := false
  acked : Option (List UInt8) := none
  initialHash : UInt64 := 0
  hasInitialHash : Bool := false
deriving DecidableEq

/-- A change that an acknowledgement commits. -/
structure Staged where
  netID : NetID
  baseline : Option Baseline := none
  promoteSnapshot : Option (List UInt8) := none
  lastHash : Option UInt64 := none
  drop : Bool := false
deriving DecidableEq

/-- The frame in flight. -/
structure PendingAttempt where
  streamEpoch : UInt32
  seq : UInt32
  sentTick : UInt32
  txn : List Staged
  visible : List NetID
  selfNetID : NetID
  removed : List NetID
  exited : List NetID
  clearPendingRemoved : List NetID
deriving DecidableEq

/-- What the sender knows of a connection. -/
structure ConnState where
  baselines : NetID → Option Baseline := fun _ => none
  lastHash : NetID → Option UInt64 := fun _ => none
  pending : Option PendingAttempt := none
  nextSeq : UInt32 := 0
  streamEpoch : UInt32 := 0
  hasExplicitGeneration : Bool := false
  forceFresh : Bool := false
  selfNetID : NetID := 0
  pendingRemoved : NetID → Bool := fun _ => false
  lastVisible : Option (List NetID) := none

/-! ### Transactions -/

namespace ConnState

variable (conn : ConnState)

def commitStaged (s : Staged) : ConnState :=
  if s.drop then
    { conn with
      baselines := Function.update conn.baselines s.netID none
      lastHash := Function.update conn.lastHash s.netID none }
  else
    let acked := (conn.baselines s.netID).bind Baseline.acked
    let baselines := match s.baseline with
      | some bl => Function.update conn.baselines s.netID
          (some { bl with acked := s.promoteSnapshot.orElse fun _ => acked })
      | none => conn.baselines
    let lastHash := match s.lastHash with
      | some hash => Function.update conn.lastHash s.netID (some hash)
      | none => conn.lastHash
    { conn with baselines := baselines, lastHash := lastHash }

def retainStaged (s : Staged) : ConnState :=
  if s.promoteSnapshot.isSome && !s.drop then
    { conn with
      baselines := Function.update conn.baselines s.netID
        (some ((conn.baselines s.netID).getD {})) }
  else conn

def markRemoved (ids : List NetID) : ConnState :=
  { conn with pendingRemoved := fun n => ids.contains n || conn.pendingRemoved n }

def clearRemoved (ids : List NetID) : ConnState :=
  { conn with pendingRemoved := fun n => !ids.contains n && conn.pendingRemoved n }

def commitPendingAttempt : ConnState :=
  match conn.pending with
  | none => conn
  | some p =>
    let committed := p.txn.foldl commitStaged conn
    { (committed.clearRemoved p.clearPendingRemoved).clearRemoved p.exited with
      lastVisible := some p.visible
      selfNetID := p.selfNetID
      pending := none
      forceFresh := false }

def discardPendingAttempt : ConnState :=
  match conn.pending with
  | none => conn
  | some p => { conn.markRemoved p.removed with pending := none, forceFresh := true }

def ackFrame (streamEpoch seq : UInt32) : ConnState :=
  match conn.pending with
  | none => conn
  | some p =>
    if p.streamEpoch ≠ streamEpoch ∨ p.seq ≠ seq then conn else conn.commitPendingAttempt

/-- A receipt of the writer: a frame that was turned down later is given up. -/
def drainFrameReceipt (streamEpoch seq : UInt32) (disposition : SendDisposition) : ConnState :=
  match conn.pending with
  | none => conn
  | some p =>
    if p.streamEpoch ≠ streamEpoch ∨ p.seq ≠ seq then conn
    else if disposition = .queued then conn
    else conn.discardPendingAttempt

def omitViewer : ConnState := { conn.discardPendingAttempt with forceFresh := true }

def streamGenerationAfter (candidate current : UInt32) : Bool :=
  candidate ≠ current && candidate - current < 0x80000000

/-- A later generation replaces the whole stream. -/
def resolveStreamGeneration (generation : UInt32) : ConnState :=
  let adopt (c : ConnState) : ConnState :=
    { c with streamEpoch := generation, hasExplicitGeneration := true }
  if !conn.hasExplicitGeneration then
    if conn.nextSeq ≠ 0 ∧ conn.streamEpoch ≠ generation then adopt {} else adopt conn
  else if generation = conn.streamEpoch then conn
  else if !streamGenerationAfter generation conn.streamEpoch then conn
  else adopt {}

end ConnState

/-! ### One entity -/

/-- What a frame says of an entity. -/
inductive Outcome
  | unchanged
  /-- The tier's update divisor holds it back. -/
  | held
  /-- The hash has changed, the snapshot has not. -/
  | identical (staged : Staged)
  | full (payload : FullPayload) (staged : Staged)
  | delta (payload : DeltaPayload) (staged : Staged)
deriving DecidableEq

section Entity

variable {S : Type*} (conn : ConnState) (rep : EntityReplicator S) (c : Candidate S)

def ConnState.wasVisible (netID : NetID) : Bool := (conn.lastVisible.getD []).contains netID

def ConnState.epochChanged (netID : NetID) (epoch : Epoch) : Bool :=
  match conn.baselines netID with
  | none => false
  | some bl => !bl.hasAuthorityEpoch || bl.authorityEpoch ≠ epoch

def ConnState.needsFull (forceFresh : Bool) (netID : NetID) (epoch : Epoch) : Bool :=
  forceFresh || !conn.wasVisible netID || conn.pendingRemoved netID ||
    conn.epochChanged netID epoch

def initialChanged : Bool :=
  rep.hasInitial &&
    match conn.baselines c.netID with
    | none => true
    | some bl => !bl.hasInitialHash || bl.initialHash ≠ rep.initialHash c.state

def stageSnapshot (withInitial : Bool) : Staged :=
  let bl := (conn.baselines c.netID).getD {}
  let bl := { bl with authorityEpoch := c.epoch, hasAuthorityEpoch := true }
  let bl := if withInitial && rep.hasInitial then
      { bl with initialHash := rep.initialHash c.state, hasInitialHash := true }
    else bl
  { netID := c.netID
    baseline := some bl
    promoteSnapshot := some (rep.snapshot c.state)
    lastHash := some (rep.hash c.state) }

def fullPayload (withInitial : Bool) : FullPayload :=
  { netID := c.netID
    epoch := c.epoch
    type := c.kind
    snapshot := rep.snapshot c.state
    initialData := if withInitial then rep.initialData c.state else [] }

def encodeEntity (forceFresh isKeyframe : Bool) (tick : UInt32) : Outcome :=
  let needsFull := conn.needsFull forceFresh c.netID c.epoch
  let initialChanged := initialChanged conn rep c
  if !needsFull && !isKeyframe && !initialChanged &&
      conn.lastHash c.netID == some (rep.hash c.state) then
    .unchanged
  -- The divisor comes before the keyframe, and before the hash is recorded.
  else if !needsFull && !initialChanged && 1 < rep.updateDivisor &&
      tick % rep.updateDivisor != 0 then
    .held
  else
    match (conn.baselines c.netID).bind Baseline.acked with
    | none => .full (fullPayload rep c true) (stageSnapshot conn rep c true)
    | some acked =>
      if needsFull || initialChanged then
        .full (fullPayload rep c true) (stageSnapshot conn rep c true)
      else if isKeyframe then .full (fullPayload rep c false) (stageSnapshot conn rep c false)
      else
        match rep.layout.encode acked (rep.snapshot c.state) with
        | none => .identical { netID := c.netID, lastHash := some (rep.hash c.state) }
        | some data => .delta ⟨c.netID, c.epoch, c.kind, data⟩ (stageSnapshot conn rep c false)

end Entity

/-! ### One tick -/

structure Build where
  visible : List NetID := []
  full : List FullPayload := []
  deltas : List DeltaPayload := []
  txn : List Staged := []
  /-- The entities that their divisor holds back; the source does not record them. -/
  held : List NetID := []
deriving DecidableEq

namespace Build

variable (b : Build)

def addOutcome : Outcome → Build
  | .unchanged => b
  | .held => b
  | .identical s => { b with txn := b.txn ++ [s] }
  | .full p s => { b with full := b.full ++ [p], txn := b.txn ++ [s] }
  | .delta p s => { b with deltas := b.deltas ++ [p], txn := b.txn ++ [s] }

end Build

section Tick

variable {S : Type*} (cfg : ReplicationConfig S) (conn : ConnState)

def admitted (visible : List NetID) (c : Candidate S) : Option (EntityReplicator S) :=
  if !c.alive || !c.hasNetworkID || (c.dormant && !c.isViewer) then none
  else if visible.contains c.netID then none
  else
    match cfg.replicators c.kind with
    | none => none
    | some rep => if c.relevant && c.inRadius then some rep else none

def replicateEntity (forceFresh isKeyframe : Bool) (tick : UInt32) (b : Build)
    (c : Candidate S) : Build :=
  match admitted cfg b.visible c with
  | none => b
  | some rep =>
    let outcome := encodeEntity conn rep c forceFresh isKeyframe tick
    { b.addOutcome outcome with
      visible := b.visible ++ [c.netID]
      held := if outcome = .held then b.held ++ [c.netID] else b.held }

def isKeyframe (tick : UInt32) : Bool :=
  0 < cfg.fullRefreshInterval && tick % cfg.fullRefreshInterval == 0

def departed (removedIDs visible : List NetID) (selfNetID : NetID) : List NetID × List NetID :=
  let gone := (conn.lastVisible.getD []).filter fun n => !visible.contains n
  let isRemoved (n : NetID) : Bool := removedIDs.contains n || conn.pendingRemoved n
  (gone.filter isRemoved, gone.filter fun n => !isRemoved n && n ≠ selfNetID)

def pendingTimedOut (p : PendingAttempt) (tick : UInt32) : Bool :=
  let timeout := if cfg.pendingAckTimeoutTicks = 0 then 10 else cfg.pendingAckTimeoutTicks
  timeout ≤ tick - p.sentTick

/-- What happens to an attempt in flight at the start of a tick, and whether a frame is built. -/
def awaitPending (i : TickInput S) : ConnState × Bool :=
  match conn.pending with
  | none => (conn, true)
  | some p =>
    let noted := conn.markRemoved
      (i.removedIDs.filter fun n => conn.wasVisible n || p.visible.contains n)
    if pendingTimedOut cfg p i.tick then (noted.discardPendingAttempt, true) else (noted, false)

def buildFrame (i : TickInput S) : Build :=
  i.results.foldl (replicateEntity cfg conn conn.forceFresh (isKeyframe cfg i.tick) i.tick) {}

/-- The own entity of the viewer: what it was, if the viewer has none with a NetworkID. -/
def stagedSelfNetID (i : TickInput S) : NetID := i.viewerNetID.getD conn.selfNetID

def dropStaged (ids : List NetID) : List Staged := ids.map fun n => { netID := n, drop := true }

def frameOf (i : TickInput S) : ReplicationFrame :=
  let b := buildFrame cfg conn i
  let d := departed conn i.removedIDs b.visible (stagedSelfNetID conn i)
  { tick := i.tick
    seq := conn.nextSeq + 1
    streamEpoch := conn.streamEpoch
    fresh := conn.forceFresh || conn.lastVisible.isNone
    full := b.full
    deltas := b.deltas
    exited := d.2
    removed := d.1 }

def attemptOf (i : TickInput S) : PendingAttempt :=
  let b := buildFrame cfg conn i
  let d := departed conn i.removedIDs b.visible (stagedSelfNetID conn i)
  let marked := conn.markRemoved d.1
  { streamEpoch := conn.streamEpoch
    seq := conn.nextSeq + 1
    sentTick := i.tick
    txn := b.txn ++ dropStaged d.2 ++ dropStaged d.1
    visible := b.visible
    selfNetID := stagedSelfNetID conn i
    removed := d.1
    exited := d.2
    clearPendingRemoved := b.visible.filter marked.pendingRemoved ++ d.1 }

/-- What the writer's answer does to the state: only a queued frame is awaited, and one that may
still arrive forces a fresh start. -/
def afterWrite (i : TickInput S) : ConnState :=
  let frame := frameOf cfg conn i
  let attempt := attemptOf cfg conn i
  let conn := { conn with nextSeq := frame.seq }
  match i.disposition with
  | .queued =>
    { (attempt.txn.foldl ConnState.retainStaged conn).markRemoved frame.removed with
      pending := some attempt }
  | .indeterminate => { conn.markRemoved frame.removed with forceFresh := true }
  | _ => conn.markRemoved frame.removed

def update (i : TickInput S) : ConnState × Option ReplicationFrame :=
  let r := awaitPending cfg (conn.resolveStreamGeneration i.generation) i
  if r.2 then (afterWrite cfg r.1 i, some (frameOf cfg r.1 i)) else (r.1, none)

end Tick

end Mmokit.Replication
