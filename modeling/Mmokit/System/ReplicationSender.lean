/-
The sender of the client replication stream for one viewer, with all its modes
(`pkg/system/replication.go`).

`Replication` has the sender of a connection that acknowledges frames explicitly and whose
generations are given from outside. Here are also connections on a reliable transport, streams
without an explicit generation, and dormant entities.
-/
import Mmokit.System.FrameContents

namespace Mmokit.Replication

inductive AckMode
  | reliable
  | explicit
deriving DecidableEq

inductive DeliveryClass
  | bestEffort
  | ordered
  | reliableOrdered
deriving DecidableEq

structure SendResult where
  disposition : SendDisposition
  delivery : DeliveryClass
deriving DecidableEq

namespace SendResult

def queued (r : SendResult) : Bool := r.disposition = .queued

def supports (r : SendResult) : DeliveryClass → Bool
  | .bestEffort => r.queued
  | .ordered => r.queued && (r.delivery = .ordered || r.delivery = .reliableOrdered)
  | .reliableOrdered => r.queued && r.delivery = .reliableOrdered

end SendResult

structure SenderConfig (S : Type*) extends ReplicationConfig S where
  /-- 0 disables dormancy. -/
  dormancyThreshold : UInt32
  pendingReceiptTimeoutTicks : UInt32
  /-- The writer reports later what has become of a frame. -/
  tracksReceipts : Bool

structure ViewerTick (S : Type*) where
  tick : UInt32
  /-- The answer of the `StreamGeneration` callback, if there is one. -/
  generation : Option UInt32
  /-- The NetworkID of the viewer's entity, if it has one. -/
  viewer : Option (NetID × Epoch)
  results : List (Candidate S)
  removedIDs : List NetID
  result : SendResult

/-- A connection in one of the two modes. -/
structure Sender extends ConnState where
  mode : AckMode
  hasStreamEpoch : Bool := false
  /-- For each entity, how many ticks its hash has been the same. -/
  unchangedTicks : NetID → Option UInt32 := fun _ => none
  /-- The counts that the attempt in flight stages. -/
  stagedTicks : List (NetID × UInt32) := []

namespace Sender

variable (s : Sender)

def setConn (conn : ConnState) : Sender := { s with toConnState := conn }

def commitTicks (txn : List Staged) (ticks : List (NetID × UInt32)) :
    NetID → Option UInt32 := fun n =>
  if txn.any fun x => x.drop && x.netID == n then none
  else
    match ticks.lookup n with
    | some count => some count
    | none => s.unchangedTicks n

def commitPending : Sender :=
  match s.pending with
  | none => s
  | some p =>
    { s.setConn s.commitPendingAttempt with
      unchangedTicks := s.commitTicks p.txn s.stagedTicks
      stagedTicks := [] }

def discardPending : Sender := { s.setConn s.discardPendingAttempt with stagedTicks := [] }

def ackFrame (streamEpoch seq : UInt32) : Sender :=
  if s.mode = .explicit then
    match s.pending with
    | none => s
    | some p => if p.streamEpoch ≠ streamEpoch ∨ p.seq ≠ seq then s else s.commitPending
  else s

def ackSequence (seq : UInt32) : Sender :=
  if s.mode = .explicit ∧ s.hasExplicitGeneration = false then
    match s.pending with
    | none => s
    | some p => if p.seq ≠ seq then s else s.commitPending
  else s

/-- A receipt of the writer. A reliable connection whose frames turn out to travel on a weaker path
starts over with explicit acknowledgements. -/
def drainFrameReceipt (streamEpoch seq : UInt32) (result : SendResult) : Sender :=
  match s.pending with
  | none => s
  | some p =>
    if p.streamEpoch ≠ streamEpoch ∨ p.seq ≠ seq then s
    else if s.mode = .explicit then
      if result.queued then s else s.discardPending
    else if result.queued && result.delivery ≠ .reliableOrdered then
      { mode := .explicit
        streamEpoch := s.streamEpoch
        hasStreamEpoch := s.hasStreamEpoch
        hasExplicitGeneration := s.hasExplicitGeneration
        nextSeq := s.nextSeq
        selfNetID := s.selfNetID
        forceFresh := true }
    else if result.supports .reliableOrdered then s.commitPending
    else s.discardPending

def omitViewer : Sender := { s.discardPending with forceFresh := true }

/-- The explicit generation of this tick, if there is one: a later one replaces the whole stream. -/
def resolveStreamGeneration (generation : Option UInt32) : Sender :=
  match generation with
  | none => s
  | some g =>
    let adopt (s : Sender) : Sender :=
      { s with streamEpoch := g, hasStreamEpoch := true, hasExplicitGeneration := true }
    if !s.hasExplicitGeneration then
      if s.nextSeq ≠ 0 ∧ s.streamEpoch ≠ g then adopt { mode := s.mode } else adopt s
    else if g = s.streamEpoch then s
    else if !ConnState.streamGenerationAfter g s.streamEpoch then s
    else adopt { mode := s.mode }

end Sender

section Tick

variable {S : Type*} (cfg : SenderConfig S) (s : Sender)

def Sender.timedOut (p : PendingAttempt) (tick : UInt32) : Bool :=
  let timeout := match s.mode with
    | .explicit => if cfg.pendingAckTimeoutTicks = 0 then 10 else cfg.pendingAckTimeoutTicks
    | .reliable => if cfg.pendingReceiptTimeoutTicks = 0 then 3 else cfg.pendingReceiptTimeoutTicks
  timeout ≤ tick - p.sentTick

/-- What happens to an attempt in flight at the start of a tick, and whether a frame is built. -/
def Sender.awaitPending (i : ViewerTick S) : Sender × Bool :=
  match s.pending with
  | none => (s, true)
  | some p =>
    let noted := s.setConn (s.markRemoved
      (i.removedIDs.filter fun n => s.wasVisible n || p.visible.contains n))
    if s.timedOut cfg p i.tick then (noted.discardPending, true) else (noted, false)

/-- Without an explicit generation the stream takes over the viewer's authority epoch. -/
def Sender.adopts (i : ViewerTick S) : Bool :=
  i.generation.isNone && !s.hasStreamEpoch && i.viewer.isSome

def Sender.adoptViewer (i : ViewerTick S) : Sender :=
  match i.viewer with
  | some (_, epoch) =>
    if s.adopts i then { s with streamEpoch := epoch, hasStreamEpoch := true } else s
  | none => s

/-- The frame of this tick starts afresh: because that is due, or because the stream has just
changed its epoch. The second reason is not remembered. -/
def Sender.startsFresh (i : ViewerTick S) : Bool :=
  s.forceFresh || (s.adopts i && s.lastVisible.isSome)

def Sender.building (i : ViewerTick S) : ConnState :=
  { (s.adoptViewer i).toConnState with forceFresh := s.startsFresh i }

def Sender.isDormant (conn : ConnState) (rep : EntityReplicator S) (c : Candidate S) : Bool :=
  !conn.needsFull conn.forceFresh c.netID c.epoch && !initialChanged conn rep c &&
    0 < cfg.dormancyThreshold && (s.unchangedTicks c.netID).any (cfg.dormancyThreshold ≤ ·)

structure SenderBuild extends Build where
  ticks : List (NetID × UInt32) := []

def Sender.replicateEntity (conn : ConnState) (tick : UInt32) (b : SenderBuild) (c : Candidate S) :
    SenderBuild :=
  match admitted cfg.toReplicationConfig b.visible c with
  | none => b
  | some rep =>
    if s.isDormant cfg conn rep c then { b with visible := b.visible ++ [c.netID] }
    else
      let outcome := encodeEntity conn rep c conn.forceFresh
        (isKeyframe cfg.toReplicationConfig tick) tick
      let count := if outcome = .unchanged then (s.unchangedTicks c.netID).getD 0 + 1 else 0
      { toBuild := { b.addOutcome outcome with
          visible := b.visible ++ [c.netID]
          held := if outcome = .held then b.held ++ [c.netID] else b.held }
        ticks := b.ticks ++ [(c.netID, count)] }

def Sender.build (i : ViewerTick S) : SenderBuild :=
  i.results.foldl (s.replicateEntity cfg (s.building i) i.tick) {}

def Sender.self (i : ViewerTick S) : NetID := (i.viewer.map Prod.fst).getD s.selfNetID

def Sender.left (i : ViewerTick S) : List NetID × List NetID :=
  departed s.toConnState i.removedIDs (s.build cfg i).visible (s.self i)

def Sender.frame (i : ViewerTick S) : ReplicationFrame where
  tick := i.tick
  seq := s.nextSeq + 1
  streamEpoch := (s.adoptViewer i).streamEpoch
  fresh := s.startsFresh i || s.lastVisible.isNone
  full := (s.build cfg i).full
  deltas := (s.build cfg i).deltas
  exited := (s.left cfg i).2
  removed := (s.left cfg i).1

def Sender.attempt (i : ViewerTick S) : PendingAttempt where
  streamEpoch := (s.adoptViewer i).streamEpoch
  seq := s.nextSeq + 1
  sentTick := i.tick
  txn := (s.build cfg i).txn ++ dropStaged (s.left cfg i).2 ++ dropStaged (s.left cfg i).1
  visible := (s.build cfg i).visible
  selfNetID := s.self i
  removed := (s.left cfg i).1
  exited := (s.left cfg i).2
  clearPendingRemoved :=
    (s.build cfg i).visible.filter (s.markRemoved (s.left cfg i).1).pendingRemoved ++
      (s.left cfg i).1

def Sender.commitNow (attempt : PendingAttempt) (ticks : List (NetID × UInt32)) : Sender :=
  let committed := attempt.txn.foldl ConnState.commitStaged s.toConnState
  { s.setConn ((committed.clearRemoved attempt.visible).clearRemoved attempt.removed) with
    lastVisible := some attempt.visible
    selfNetID := attempt.selfNetID
    forceFresh := false
    unchangedTicks := s.commitTicks attempt.txn ticks }

def Sender.afterWrite (i : ViewerTick S) : Sender :=
  let attempt := s.attempt cfg i
  let ticks := (s.build cfg i).ticks
  let sent : Sender := { s.adoptViewer i with nextSeq := attempt.seq }
  if sent.mode = .reliable ∧ i.result.supports .reliableOrdered then sent.commitNow attempt ticks
  else if i.result.queued ∧
      (sent.mode = .explicit ∨ i.result.supports .ordered ∧ cfg.tracksReceipts) then
    let retained := if sent.mode = .explicit then
        attempt.txn.foldl ConnState.retainStaged sent.toConnState
      else sent.toConnState
    { sent.setConn (retained.markRemoved attempt.removed) with
      pending := some attempt
      stagedTicks := ticks }
  else
    let marked := sent.setConn (sent.markRemoved attempt.removed)
    if i.result.queued ∨ i.result.disposition = .indeterminate then
      { marked with forceFresh := true }
    else marked

def Sender.ready (i : ViewerTick S) : Option Sender :=
  let r := (s.resolveStreamGeneration i.generation).awaitPending cfg i
  if r.2 then some r.1 else none

def Sender.update (i : ViewerTick S) : Sender × Option ReplicationFrame :=
  let r := (s.resolveStreamGeneration i.generation).awaitPending cfg i
  if r.2 then (r.1.afterWrite cfg i, some (r.1.frame cfg i)) else (r.1, none)

/-- What happens to a sender. -/
inductive SenderEvent (S : Type*)
  | tick (i : ViewerTick S)
  | omitViewer
  /-- The viewer is gone for good; a later one with the same connection starts over. -/
  | removeViewer (mode : AckMode)
  | receipt (streamEpoch seq : UInt32) (result : SendResult)
  | ack (streamEpoch seq : UInt32)
  | ackSequence (seq : UInt32)

def Sender.handle : SenderEvent S → Sender
  | .tick i => (s.update cfg i).1
  | .omitViewer => s.omitViewer
  | .removeViewer mode => { mode := mode }
  | .receipt streamEpoch seq result => s.drainFrameReceipt streamEpoch seq result
  | .ack streamEpoch seq => s.ackFrame streamEpoch seq
  | .ackSequence seq => s.ackSequence seq

end Tick

end Mmokit.Replication
