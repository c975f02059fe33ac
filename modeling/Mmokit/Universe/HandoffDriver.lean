/-
The sending end of a handoff (`pkg/universe/handoff_driver.go`).

An entity that crosses a cell boundary is offered to the neighbouring cell. The driver keeps the
offer in `inflight` and repeats it until the destination accepts; the acceptance moves it to
`pendingDemotes`, and at the commit tick the entity is demoted to a replica.

The source's `Tick` is cut into its loops here: `retryDue` and `retryOne`, `takeDueDemotes` and
`demoteOne`, `handleCrossing`. What a loop body sends to the bridge is returned beside the new
state, and the answer of the bridge is an argument.
-/
import Mmokit.Universe.Stage
import Mathlib.Data.List.AList

namespace Mmokit

def handoffLeadTicks : UInt64 := 2

def handoffCooldownTicks : UInt64 := 20

def handoffAcceptRetryTicks : UInt64 := 4

def handoffAcceptWarnAttempts : ℕ := 5

structure HandoffPayload where
  netID : NetID
  epoch : Epoch
  commitTick : UInt64
  transferBlob : TransferFrame
  connID : UInt32
deriving DecidableEq

structure HandoffAckPayload where
  netID : NetID
  epoch : Epoch
  commitTick : UInt64
deriving DecidableEq

inductive CellMessage
  | handoff (p : HandoffPayload)
  | handoffAccepted (ack : HandoffAckPayload)
deriving DecidableEq

structure InflightHandoff (M : Type*) where
  destCellID : M
  connID : UInt32
  epoch : Epoch
  commitTick : UInt64
  payload : HandoffPayload
  attempts : ℕ
  nextRetryTick : UInt64
  warned : Bool
deriving DecidableEq

structure PendingDemote (M : Type*) where
  netID : NetID
  destCellID : M
  connID : UInt32
deriving DecidableEq

structure HandoffDriver (M : Type*) where
  base : Stage M
  /-- The offers that wait for their acceptance. -/
  inflight : AList fun _ : NetID => InflightHandoff M
  /-- The accepted offers, with their commit ticks. -/
  pendingDemotes : List (UInt64 × PendingDemote M)
  /-- The commit tick of the last handoff of an entity to a cell. -/
  lastHandoff : NetID → M → Option UInt64

def InflightHandoff.retried {M : Type*} (h : InflightHandoff M)
    (currentClusterTick : UInt64) : InflightHandoff M :=
  { h with
    attempts := h.attempts + 1
    nextRetryTick := currentClusterTick + handoffAcceptRetryTicks
    warned := h.warned || handoffAcceptWarnAttempts ≤ h.attempts + 1 }

namespace HandoffDriver

variable {M : Type*} [DecidableEq M] (hd : HandoffDriver M)

def hasHandoffInFlight (netID : NetID) : Bool :=
  (hd.inflight.lookup netID).isSome || hd.pendingDemotes.any (·.2.netID = netID)

def setLastHandoff (netID : NetID) (dest : M) (t : Option UInt64) :
    HandoffDriver M :=
  let forNetID := Function.update (hd.lastHandoff netID) dest t
  { hd with lastHandoff := Function.update hd.lastHandoff netID forNetID }

/-! ### Acceptance -/

/-- `OnHandoffAccepted`: an acceptance counts only if it answers the offer that is waiting. -/
def onHandoffAccepted (netID : NetID) (epoch : Epoch) (commitTick : UInt64)
    (fromCellID : M) : HandoffDriver M :=
  match hd.inflight.lookup netID with
  | none => hd
  | some h =>
    if h.epoch ≠ epoch ∨ h.commitTick ≠ commitTick ∨ h.destCellID ≠ fromCellID then hd
    else
      let demote : PendingDemote M := ⟨netID, h.destCellID, h.connID⟩
      let hd₁ :=
        { hd with
          inflight := hd.inflight.erase netID
          pendingDemotes := hd.pendingDemotes ++ [(h.commitTick, demote)] }
      hd₁.setLastHandoff netID h.destCellID (some h.commitTick)

/-! ### Repeating offers -/

def retryDue (currentClusterTick : UInt64) : List NetID :=
  (hd.inflight.entries.filter fun x => x.2.nextRetryTick ≤ currentClusterTick).map (·.1)

/-- The body of the loop of `retryInflight`, for one due netID. `sent` is the answer of
`SendHandoff`. The source deletes the offers of entities that are not live only after its loop;
nothing reads them in between. -/
def retryOne (currentClusterTick : UInt64) (netID : NetID) (sent : Bool) :
    HandoffDriver M × List (M × CellMessage) :=
  match hd.inflight.lookup netID with
  | none => (hd, [])
  | some h =>
    if !hd.base.isLive netID then ({ hd with inflight := hd.inflight.erase netID }, [])
    else if sent then
      ({ hd with inflight := hd.inflight.insert netID (h.retried currentClusterTick) },
        [(h.destCellID, .handoff h.payload)])
    else
      -- the destination is unreachable: the source keeps the entity, under the raised epoch
      let hd₁ := { hd with inflight := hd.inflight.erase netID }
      (hd₁.setLastHandoff netID h.destCellID none, [])

/-! ### Demotion -/

def takeDueDemotes (currentClusterTick : UInt64) :
    List (PendingDemote M) × HandoffDriver M :=
  ((hd.pendingDemotes.filter (·.1 ≤ currentClusterTick)).map (·.2),
    { hd with pendingDemotes := hd.pendingDemotes.filter fun x => ¬ x.1 ≤ currentClusterTick })

def demoteOne (d : PendingDemote M) : HandoffDriver M :=
  { hd with base := (hd.base.demoteLiveToReplica d.netID d.destCellID).2 }

/-! ### Crossings -/

def inCooldown (evt : CrossingEvent M) (currentClusterTick : UInt64) : Bool :=
  !evt.bypassCooldown &&
    (hd.lastHandoff evt.netID evt.destCellID).any
      fun last => currentClusterTick < last + handoffCooldownTicks

/-- `handleCrossing`: raise the epoch, remember the offer, send it. `sent` is the answer of
`SendHandoff`; where it is negative, the offer and the epoch are taken back, which is also what the
source does when the entity cannot be serialised. -/
def handleCrossing (evt : CrossingEvent M) (currentClusterTick : UInt64) (sent : Bool) :
    HandoffDriver M × List (M × CellMessage) :=
  if !hd.base.ecs.alive evt.entity then (hd, [])
  else if !hd.base.isLive evt.netID then (hd, [])
  else if hd.hasHandoffInFlight evt.netID then (hd, [])
  else if hd.inCooldown evt currentClusterTick then (hd, [])
  else
    let oldEpoch := ((hd.base.networkIDOf evt.entity).map (·.epoch)).getD 0
    let newEpoch := oldEpoch + 1
    let base := hd.base.setEpoch evt.entity newEpoch
    let commitTick := currentClusterTick + handoffLeadTicks
    let payload : HandoffPayload :=
      ⟨evt.netID, newEpoch, commitTick, base.serializeEntityCore evt.entity, evt.connID⟩
    let entry : InflightHandoff M :=
      { destCellID := evt.destCellID, connID := evt.connID, epoch := newEpoch,
        commitTick := commitTick, payload := payload, attempts := 1,
        nextRetryTick := currentClusterTick + handoffAcceptRetryTicks, warned := false }
    let inflight := hd.inflight.insert evt.netID entry
    if sent then
      ({ hd with base := base, inflight := inflight }, [(evt.destCellID, .handoff payload)])
    else
      ({ hd with
          base := base.setEpoch evt.entity oldEpoch, inflight := inflight.erase evt.netID }, [])

end HandoffDriver

end Mmokit
