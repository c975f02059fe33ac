/-
The stage of one cell (`pkg/universe/stage.go`): the entity store, the netID index, the replicas
that neighbouring cells push, and the record of accepted handoffs.

Of an entity the model keeps the two components that decide about authority, `NetworkID` and
`Replica`. `M` is the type of mesh cell ids.
-/
import Mmokit.Universe.NetIDIndex
import Mathlib.Data.List.Dedup
import Mathlib.Data.Int.Notation

namespace Mmokit

open Function

def serialUint32After (candidate current : UInt32) : Bool :=
  let delta := candidate - current
  delta != 0 && delta < (1 : UInt32) <<< 31

structure NetworkID where
  id : NetID
  epoch : Epoch
deriving DecidableEq

/-- The component of an entity that stands for one living on another cell. -/
structure Replica (M : Type*) where
  sourceCellID : M
  sourceNetID : NetID
  ttl : ℤ
deriving DecidableEq

structure Row (M : Type*) where
  networkID : Option NetworkID
  replica : Option (Replica M)
deriving DecidableEq

structure World (M : Type*) where
  next : Entity
  rows : Entity → Option (Row M)

structure CrossingEvent (M : Type*) where
  entity : Entity
  netID : NetID
  connID : UInt32
  destCellID : M
  bypassCooldown : Bool
deriving DecidableEq

/-- The part of a serialised entity that its respawn reads for authority. -/
structure TransferFrame where
  networkID : NetID
  epoch : Epoch
deriving DecidableEq

/-- One entry of a border frame; `parsed` says whether its header could be read. -/
structure BorderEntry where
  netID : NetID
  epoch : Epoch
  parsed : Bool
deriving DecidableEq

/-- The lines of the transfer log that speak about authority, newest first in `Stage.log`. -/
inductive TransferLog
  /-- "handoff queued": the cell accepted a handoff and queued its promotion. -/
  | queued (netID : NetID) (epoch : Epoch)
  /-- "handoff committed": a queued promotion was carried out. -/
  | committed (netID : NetID) (epoch : Epoch)
  /-- "demoted live→replica". -/
  | demoted (netID : NetID)
deriving DecidableEq

inductive StageError
  | duplicateLive (netID : NetID)
  | transferRejected (netID : NetID)
  | notLive (netID : NetID)
  | notAlive (netID : NetID)
  | demoteRejected (netID : NetID)
deriving DecidableEq

/-- The entities of a cell and its indexes. -/
structure Stage (M : Type*) where
  ecs : World M
  netIDIdx : NetIDIndex
  strictNetIDIndex : Bool
  /-- The entity that stands for a replicated netID. -/
  replicaNetIDs : NetID → Option Entity
  highestSeenEpoch : NetID → Option Epoch
  /-- Which netIDs the last border frame of each source listed. -/
  borderLastSeen : List (M × NetID)
  handoffAccepted : NetID → Option Epoch
  crossingQueue : List (CrossingEvent M)
  drainingForMerge : Bool
  /-- The entities marked for removal at the end of the tick. -/
  toRemove : List Entity
  log : List TransferLog

namespace World

variable {M : Type*} (w : World M)

def alive (e : Entity) : Bool := (w.rows e).isSome

def newEntity (row : Row M) : Entity × World M :=
  (w.next, ⟨w.next + 1, update w.rows w.next (some row)⟩)

def setRow (e : Entity) (row : Row M) : World M :=
  { w with rows := update w.rows e (some row) }

def removeEntity (e : Entity) : World M :=
  { w with rows := update w.rows e none }

end World

namespace Stage

variable {M : Type*} (b : Stage M)

def lookupNetID (netID : NetID) : Option NetIDSlot := b.netIDIdx.lookup netID

def networkIDOf (e : Entity) : Option NetworkID := (b.ecs.rows e).bind (·.networkID)

def setEpoch (e : Entity) (epoch : Epoch) : Stage M :=
  match b.ecs.rows e with
  | some row =>
    let row' := { row with networkID := row.networkID.map fun nid => { nid with epoch := epoch } }
    { b with ecs := b.ecs.setRow e row' }
  | none => b

/-! ### Accepted handoffs -/

def handoffAlreadyAccepted (netID : NetID) (epoch : Epoch) : Bool :=
  match b.handoffAccepted netID with
  | none => false
  | some stored => !serialUint32After epoch stored

def markHandoffAccepted (netID : NetID) (epoch : Epoch) : Stage M :=
  match b.handoffAccepted netID with
  | some stored =>
    if serialUint32After epoch stored then
      { b with handoffAccepted := update b.handoffAccepted netID (some epoch) }
    else b
  | none => { b with handoffAccepted := update b.handoffAccepted netID (some epoch) }

def forgetHandoffAccepted (netID : NetID) : Stage M :=
  { b with handoffAccepted := update b.handoffAccepted netID none }

/-! ### Removal -/

def forgetBorderNetID (netID : NetID) : Stage M :=
  { b with borderLastSeen := b.borderLastSeen.filter (·.2 ≠ netID) }

def untrackReplica (e : Entity) : Option (Replica M) → Stage M
  | some rep =>
    if b.replicaNetIDs rep.sourceNetID = some e then
      let b₁ := { b with replicaNetIDs := update b.replicaNetIDs rep.sourceNetID none }
      b₁.forgetBorderNetID rep.sourceNetID
    else b
  | none => b

def exitIndex (e : Entity) : Option NetworkID → Stage M
  | some nid => { b with netIDIdx := (b.netIDIdx.exitEntity nid.id e).2 }
  | none => b

def cleanupEntityRemoval (e : Entity) : Stage M :=
  match b.ecs.rows e with
  | none => b
  | some row => (b.untrackReplica e row.replica).exitIndex e row.networkID

/-- `RemoveEntityNowWithPolicy` of the engine, for an entity whose removal is not announced. -/
def removeEntityNow (e : Entity) : Stage M :=
  if b.ecs.alive e then
    let b₁ := b.cleanupEntityRemoval e
    { b₁ with ecs := b₁.ecs.removeEntity e }
  else b

def removeReplicaByNetID (netID : NetID) : Stage M :=
  let b₁ := match b.replicaNetIDs netID with
    | some e =>
      if b.ecs.alive e then b.removeEntityNow e
      else
        { b with
          replicaNetIDs := update b.replicaNetIDs netID none
          netIDIdx := (b.netIDIdx.exitEntity netID e).2 }
    | none =>
      match b.lookupNetID netID with
      | some ⟨e, .replica⟩ =>
        if b.ecs.alive e then b.removeEntityNow e
        else { b with netIDIdx := (b.netIDIdx.exitEntity netID e).2 }
      | _ => b
  b₁.forgetBorderNetID netID

def decrementTTL (row : Row M) : Row M :=
  { row with replica := row.replica.map fun rep => { rep with ttl := rep.ttl - 1 } }

def expired (row : Row M) : Bool := row.replica.any (·.ttl ≤ 0)

/-- `MarkForRemovalWithPolicy` of the engine: a second request for an entity is dropped. -/
def markForRemoval (e : Entity) : Stage M :=
  if e ∈ b.toRemove then b else { b with toRemove := b.toRemove ++ [e] }

def expireReplicas : Stage M :=
  let b₁ := { b with ecs := { b.ecs with rows := fun e => (b.ecs.rows e).map decrementTTL } }
  ((List.range b.ecs.next).filter fun e => (b₁.ecs.rows e).any expired).foldl markForRemoval b₁

def flushRemovals : Stage M :=
  { b.toRemove.foldl removeEntityNow b with toRemove := [] }

/-! ### Spawning from a transfer, and demotion -/

/-- `SpawnFromTransferCore`: create the entity, then enter it into the index. A conflict undoes
the spawn only under the strict index; otherwise the entity stays, outside the index. -/
def spawnFromTransferCore (frame : TransferFrame) (presence : EntityPresence) :
    Except StageError Entity × Stage M :=
  let (entity, ecs) := b.ecs.newEntity ⟨some ⟨frame.networkID, frame.epoch⟩, none⟩
  let b₁ := { b with ecs := ecs }
  if frame.networkID = 0 then (.ok entity, b₁)
  else
    let (res, idx) := b₁.netIDIdx.enter frame.networkID entity presence
    let b₂ := { b₁ with netIDIdx := idx }
    match res.action with
    | .installed | .updated => (.ok entity, b₂)
    | .duplicate =>
      if b.strictNetIDIndex then
        (.error (.duplicateLive frame.networkID), b₂.removeEntityNow entity)
      else (.ok entity, b₂)
    | .rejected =>
      if b.strictNetIDIndex then
        (.error (.transferRejected frame.networkID), b₂.removeEntityNow entity)
      else (.ok entity, b₂)

/-- `SpawnLiveFromTransfer`. The index is keyed by the identifier in the blob; the argument of
the same name is only logged by the source. -/
def spawnLiveFromTransfer (epoch : Epoch) (blob : TransferFrame) :
    Except StageError Entity × Stage M :=
  match b.spawnFromTransferCore blob .live with
  | (.error err, b₁) => (.error err, b₁)
  | (.ok ent, b₁) => (.ok ent, b₁.setEpoch ent epoch)

def markReplica (e : Entity) (source : M) (netID : NetID) : Stage M :=
  match b.ecs.rows e with
  | some row => { b with ecs := b.ecs.setRow e { row with replica := some ⟨source, netID, 30⟩ } }
  | none => b

def demoteLiveToReplica (netID : NetID) (newSourceCellID : M) :
    Except StageError Unit × Stage M :=
  match b.lookupNetID netID with
  | some ⟨ent, .live⟩ =>
    if b.ecs.alive ent then
      let b₁ := b.markReplica ent newSourceCellID netID
      let (res, idx) := b₁.netIDIdx.demote netID ent
      let b₂ := { b₁ with netIDIdx := idx }
      if res.action = .updated then
        let b₃ := { b₂ with replicaNetIDs := update b₂.replicaNetIDs netID (some ent) }
        let b₄ := b₃.forgetHandoffAccepted netID
        (.ok (), { b₄ with log := .demoted netID :: b₄.log })
      else (.error (.demoteRejected netID), b₂)
    else (.error (.notAlive netID), b)
  | _ => (.error (.notLive netID), b)

/-! ### Border frames -/

/-- Is an incoming epoch older than what is known? Equal epochs are not. -/
def staleEpoch (epoch known : Epoch) : Bool := epoch != known && !serialUint32After epoch known

def refreshReplica (e : Entity) (source : M) : Stage M :=
  match b.ecs.rows e with
  | some row =>
    let row' :=
      { row with replica := row.replica.map fun rep =>
          { rep with sourceCellID := source, ttl := 30 } }
    { b with ecs := b.ecs.setRow e row' }
  | none => b

def aliveReplica (netID : NetID) : Option Entity :=
  (b.replicaNetIDs netID).filter fun e => b.ecs.alive e

def createBorderReplica (netID : NetID) (epoch : Epoch) (sourceCellID : M) :
    Stage M :=
  let (ent, ecs) := b.ecs.newEntity ⟨some ⟨netID, epoch⟩, some ⟨sourceCellID, netID, 30⟩⟩
  let (res, idx) := b.netIDIdx.enter netID ent .replica
  let b₁ :=
    { b with
      ecs := ecs
      replicaNetIDs := update b.replicaNetIDs netID (some ent)
      netIDIdx := idx }
  if res.action = .rejected ∧ b.strictNetIDIndex then b₁.removeEntityNow ent else b₁

def upsertBorderReplica (netID : NetID) (epoch : Epoch) (sourceCellID : M) :
    Stage M :=
  if ((b.aliveReplica netID).bind b.networkIDOf).any fun nid => staleEpoch epoch nid.epoch then b
  else if (b.highestSeenEpoch netID).any (staleEpoch epoch) then b
  else
    let b₁ :=
      { b with highestSeenEpoch := update b.highestSeenEpoch netID (some epoch) }
    if (b₁.lookupNetID netID).any (·.presence = .live) then b₁
    else
      match b₁.aliveReplica netID with
      | some ent =>
        let b₂ := match b₁.networkIDOf ent with
          | some nid => if serialUint32After epoch nid.epoch then b₁.setEpoch ent epoch else b₁
          | none => b₁
        b₂.refreshReplica ent sourceCellID
      | none => b₁.createBorderReplica netID epoch sourceCellID

section Border

variable [DecidableEq M]

def netIDStillPushedByOtherSource (netID : NetID) (excludeSource : M) : Bool :=
  b.borderLastSeen.any fun x => x.1 ≠ excludeSource && x.2 = netID

/-- `ApplyBorderFrame`: bring in the listed entities, then drop what this source has stopped
listing and no other source lists. -/
def applyBorderFrame (entries : List BorderEntry) (sourceCellID : M) : Stage M :=
  let b₁ := entries.foldl (fun b entry =>
    if entry.parsed then b.upsertBorderReplica entry.netID entry.epoch sourceCellID else b) b
  let currentSet := (entries.map (·.netID)).dedup
  let prev := (b₁.borderLastSeen.filter (·.1 = sourceCellID)).map (·.2)
  let b₂ := prev.foldl (fun b netID =>
    if netID ∈ currentSet || b.netIDStillPushedByOtherSource netID sourceCellID then b
    else b.removeReplicaByNetID netID) b₁
  { b₂ with
    borderLastSeen := b₂.borderLastSeen.filter (·.1 ≠ sourceCellID) ++
      currentSet.map fun netID => (sourceCellID, netID) }

end Border

/-! ### The crossing queue and authority -/

def queueCrossing (evt : CrossingEvent M) : Stage M :=
  { b with crossingQueue := b.crossingQueue ++ [evt] }

def drainCrossingQueue : List (CrossingEvent M) × Stage M :=
  (b.crossingQueue, { b with crossingQueue := [] })

def serializeEntityCore (e : Entity) : TransferFrame :=
  match b.networkIDOf e with
  | some nid => ⟨nid.id, nid.epoch⟩
  | none => ⟨0, 0⟩

/-- Is this stage the authority over the netID? This is what the handoff code asks the index. -/
def isLive (netID : NetID) : Bool := (b.lookupNetID netID).any (·.presence = .live)

def liveEpoch (netID : NetID) : Option Epoch :=
  match b.lookupNetID netID with
  | some ⟨e, .live⟩ => (b.networkIDOf e).map (·.epoch)
  | _ => none

/-! ### What replica upkeep leaves alone

Of the state of a stage, `record` is what only the handoff code writes. -/

/-- The accepted handoffs, the log, the entities marked for removal and the queued crossings. -/
def record : (NetID → Option Epoch) × List TransferLog × List Entity ×
    List (CrossingEvent M) :=
  (b.handoffAccepted, b.log, b.toRemove, b.crossingQueue)

section Record

variable {b} {e : Entity} {m : NetID} {epoch : Epoch} {source : M}

@[simp] lemma setEpoch_record : (b.setEpoch e epoch).record = b.record := by
  unfold setEpoch
  split <;> rfl

@[simp] lemma refreshReplica_record : (b.refreshReplica e source).record = b.record := by
  unfold refreshReplica
  split <;> rfl

@[simp] lemma forgetBorderNetID_record : (b.forgetBorderNetID m).record = b.record := rfl

@[simp] lemma removeEntityNow_record : (b.removeEntityNow e).record = b.record := by
  unfold removeEntityNow cleanupEntityRemoval untrackReplica exitIndex
  repeat' split
  all_goals rfl

@[simp] lemma removeReplicaByNetID_record : (b.removeReplicaByNetID m).record = b.record := by
  unfold removeReplicaByNetID
  repeat' split
  all_goals first | exact removeEntityNow_record | rfl

@[simp] lemma createBorderReplica_record :
    (b.createBorderReplica m epoch source).record = b.record := by
  unfold createBorderReplica
  simp only
  split
  · rw [removeEntityNow_record]
    rfl
  · rfl

@[simp] lemma upsertBorderReplica_record :
    (b.upsertBorderReplica m epoch source).record = b.record := by
  unfold upsertBorderReplica
  simp only
  repeat' split
  all_goals try simp only [refreshReplica_record, setEpoch_record, createBorderReplica_record]
  all_goals rfl

lemma foldl_record {α : Type*} {f : Stage M → α → Stage M} (hf : ∀ b a, (f b a).record = b.record)
    (l : List α) (b : Stage M) : (l.foldl f b).record = b.record := by
  induction l generalizing b with
  | nil => rfl
  | cons a l ih => rw [List.foldl_cons, ih, hf]

@[simp] lemma applyBorderFrame_record [DecidableEq M] {entries : List BorderEntry} :
    (b.applyBorderFrame entries source).record = b.record := by
  have hup : ∀ (b : Stage M) (entry : BorderEntry),
      (if entry.parsed then b.upsertBorderReplica entry.netID entry.epoch source
        else b).record = b.record := by
    intro b entry
    split
    · exact upsertBorderReplica_record
    · rfl
  have hdown : ∀ (b : Stage M) (netID : NetID),
      (if netID ∈ (entries.map (·.netID)).dedup || b.netIDStillPushedByOtherSource netID source
        then b else b.removeReplicaByNetID netID).record = b.record := by
    intro b netID
    split
    · rfl
    · exact removeReplicaByNetID_record
  exact (foldl_record hdown _ _).trans (foldl_record hup _ _)

lemma foldl_markForRemoval_eq (l : List Entity) (b : Stage M) :
    ∃ marked, l.foldl markForRemoval b = { b with toRemove := marked } ∧
      ∀ e ∈ marked, e ∈ b.toRemove ∨ e ∈ l := by
  induction l generalizing b with
  | nil => exact ⟨b.toRemove, rfl, fun e he => .inl he⟩
  | cons a l ih =>
    obtain ⟨marked, hfold, hmem⟩ := ih (b.markForRemoval a)
    refine ⟨marked, ?_, fun e he => ?_⟩
    · rw [List.foldl_cons, hfold]
      unfold markForRemoval
      split <;> rfl
    rcases hmem e he with he | he
    · unfold markForRemoval at he
      split at he
      · exact .inl he
      · rcases List.mem_append.mp he with he | he
        · exact .inl he
        · exact .inr (by simp_all)
    · exact .inr (List.mem_cons_of_mem a he)

lemma expire_flush_record : b.expireReplicas.flushRemovals.record =
    (b.handoffAccepted, b.log, [], b.crossingQueue) := by
  have hflush := foldl_record (f := removeEntityNow) (fun _ _ => removeEntityNow_record)
    b.expireReplicas.toRemove b.expireReplicas
  obtain ⟨marked, hexp, -⟩ : ∃ marked, b.expireReplicas = _ ∧ _ := foldl_markForRemoval_eq _ _
  simp only [record, Prod.mk.injEq] at hflush ⊢
  obtain ⟨hacc, hlog, -, hqueue⟩ := hflush
  exact ⟨hexp ▸ hacc, hexp ▸ hlog, rfl, hexp ▸ hqueue⟩

@[simp] lemma spawnFromTransferCore_record {frame : TransferFrame} {presence : EntityPresence} :
    (b.spawnFromTransferCore frame presence).2.record = b.record := by
  unfold spawnFromTransferCore
  simp only
  repeat' split
  all_goals first | rfl | exact removeEntityNow_record

@[simp] lemma spawnLiveFromTransfer_record {frame : TransferFrame} :
    (b.spawnLiveFromTransfer epoch frame).2.record = b.record := by
  have h : (b.spawnFromTransferCore frame .live).2.record = b.record :=
    spawnFromTransferCore_record
  unfold spawnLiveFromTransfer
  split
  · rename_i heq
    rwa [heq] at h
  · rename_i heq
    rw [heq] at h
    exact setEpoch_record.trans h

end Record

end Stage

end Mmokit
