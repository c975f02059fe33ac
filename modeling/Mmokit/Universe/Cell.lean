/-
One cell (`pkg/universe/cell.go`): its inbox, its queue of promotions, and its loop.

A tick then runs the loops of `PostSystems` one after the other: the promotions that are due, the
offers that are due for a repeat, the demotes that are due, the queued crossings, and the expiry of
replicas.

`Phase` says in which of these loops the cell is and what is left of it, so that each body of a
loop is a step of its own and other cells may run in between. The loops range over maps of the
source, whose order is not specified; a loop may therefore start with its work in any order.
-/
import Mmokit.Universe.HandoffDriver

namespace Mmokit

structure PendingPromote (M : Type*) where
  netID : NetID
  epoch : Epoch
  transferBlob : TransferFrame
  connID : UInt32
  fromCellID : M
deriving DecidableEq

inductive Phase (M : Type*)
  /-- Between two ticks. -/
  | idle
  /-- In `drainPendingPromotes`. -/
  | promotes (tick : UInt64) (due : List (PendingPromote M))
  /-- In `retryInflight`. -/
  | retries (tick : UInt64) (due : List NetID)
  /-- In the loop over the due demotes of `HandoffDriver.Tick`. -/
  | demotes (tick : UInt64) (due : List (PendingDemote M))
  /-- In the loop over the crossings of `HandoffDriver.Tick`. -/
  | crossings (tick : UInt64) (events : List (CrossingEvent M))
deriving DecidableEq

/-- A cell with its driver and its place in the tick. -/
structure Cell (M : Type*) where
  driver : HandoffDriver M
  pendingPromotes : List (UInt64 × PendingPromote M)
  phase : Phase M

/-- One step of the loop of a cell. Steps that start a loop carry the order in which it runs;
steps that send carry the answer of the bridge. -/
inductive LoopStep (M : Type*)
  | beginTick (tick : UInt64) (order : List (PendingPromote M))
  | promote
  | beginRetries (order : List NetID)
  | retry (sent : Bool)
  | beginDemotes (order : List (PendingDemote M))
  | demote
  | beginCrossings
  | cross (sent : Bool)
  | endTick
deriving DecidableEq

namespace Cell

variable {M : Type*} (c : Cell M)

def stage : Stage M := c.driver.base

def withStage (b : Stage M) : Cell M :=
  { c with driver := { c.driver with base := b } }

/-! ### The inbox -/

def processHandoff (fromCellID : M) (p : HandoffPayload) (ackSent : Bool) :
    Cell M × List (M × CellMessage) :=
  let ack := CellMessage.handoffAccepted ⟨p.netID, p.epoch, p.commitTick⟩
  if c.stage.handoffAlreadyAccepted p.netID p.epoch then
    (c, if ackSent then [(fromCellID, ack)] else [])
  else if !ackSent then (c, [])
  else
    let b := c.stage.markHandoffAccepted p.netID p.epoch
    let c₁ := c.withStage { b with log := .queued p.netID p.epoch :: b.log }
    ({ c₁ with
        pendingPromotes := c.pendingPromotes ++
          [(p.commitTick, ⟨p.netID, p.epoch, p.transferBlob, p.connID, fromCellID⟩)] },
      [(fromCellID, ack)])

section Loop

variable [DecidableEq M]

def processMessage (fromCellID : M) (msg : CellMessage) (ackSent : Bool) :
    Cell M × List (M × CellMessage) :=
  match msg with
  | .handoff p => c.processHandoff fromCellID p ackSent
  | .handoffAccepted ack =>
    ({ c with driver :=
        c.driver.onHandoffAccepted ack.netID ack.epoch ack.commitTick fromCellID }, [])

/-! ### The loops of a tick -/

def takeDuePromotes (currentClusterTick : UInt64) :
    List (PendingPromote M) × Cell M :=
  ((c.pendingPromotes.filter (·.1 ≤ currentClusterTick)).map (·.2),
    { c with pendingPromotes := c.pendingPromotes.filter fun x => ¬ x.1 ≤ currentClusterTick })

def makeRoom (b : Stage M) (netID : NetID) : Stage M :=
  match b.lookupNetID netID with
  | some ⟨_, .replica⟩ => b.removeReplicaByNetID netID
  | _ => b

/-- The body of `drainPendingPromotes`, on the stage: a replica makes room, then the entity is
spawned from the blob and becomes live. An error of the spawn is only logged. -/
def promoteOnStage (b : Stage M) (p : PendingPromote M) : Stage M :=
  match (makeRoom b p.netID).spawnLiveFromTransfer p.epoch p.transferBlob with
  | (.ok _, b₁) => { b₁ with log := .committed p.netID p.epoch :: b₁.log }
  | (.error _, b₁) => b₁

def promoteOne (p : PendingPromote M) : Cell M :=
  c.withStage (promoteOnStage c.stage p)

/-- One step of the loop, with the messages that it sends; `none` if the loop is elsewhere. -/
def loop : LoopStep M → Option (Cell M × List (M × CellMessage))
  | .beginTick t order =>
    match c.phase with
    | .idle =>
      let (due, c₁) := c.takeDuePromotes t
      if order.isPerm due then some ({ c₁ with phase := .promotes t order }, []) else none
    | _ => none
  | .promote =>
    match c.phase with
    | .promotes t (p :: rest) => some ({ c.promoteOne p with phase := .promotes t rest }, [])
    | _ => none
  | .beginRetries order =>
    match c.phase with
    | .promotes t [] =>
      if c.stage.drainingForMerge then
        -- a merge is under way: drop the crossings and do nothing else
        let c₁ := c.withStage c.stage.drainCrossingQueue.2
        some ({ c₁ with phase := .crossings t [] }, [])
      else if order.isPerm (c.driver.retryDue t) then
        some ({ c with phase := .retries t order }, [])
      else none
    | _ => none
  | .retry sent =>
    match c.phase with
    | .retries t (netID :: rest) =>
      let (hd, out) := c.driver.retryOne t netID sent
      some ({ c with driver := hd, phase := .retries t rest }, out)
    | _ => none
  | .beginDemotes order =>
    match c.phase with
    | .retries t [] =>
      let (due, hd) := c.driver.takeDueDemotes t
      if order.isPerm due then some ({ c with driver := hd, phase := .demotes t order }, [])
      else none
    | _ => none
  | .demote =>
    match c.phase with
    | .demotes t (d :: rest) =>
      some ({ c with driver := c.driver.demoteOne d, phase := .demotes t rest }, [])
    | _ => none
  | .beginCrossings =>
    match c.phase with
    | .demotes t [] =>
      let (events, b) := c.stage.drainCrossingQueue
      some ({ c.withStage b with phase := .crossings t events }, [])
    | _ => none
  | .cross sent =>
    match c.phase with
    | .crossings t (evt :: rest) =>
      let (hd, out) := c.driver.handleCrossing evt t sent
      some ({ c with driver := hd, phase := .crossings t rest }, out)
    | _ => none
  | .endTick =>
    match c.phase with
    | .crossings _ [] =>
      some ({ c.withStage c.stage.expireReplicas.flushRemovals with phase := .idle }, [])
    | _ => none

end Loop

end Cell

end Mmokit
