/-
The handoff of one entity, seen from a distance.

For a fixed netID the state of a cluster is a configuration of the handover protocol of
`Mmokit.Library.Handover`: a cell holds the authority while its index says live, its offer is the
entry of `inflight`, its armed releases are the pending demotes, its queue are the pending
promotions, and its ledger is read off the table of accepted handoffs and the transfer log. The
loop of a cell may be in the middle of its work; what it has taken out of a map and not done yet
still counts.
-/
import Mmokit.Universe.Cluster
import Mmokit.Library.HandoverSingle

namespace Mmokit

variable {M : Type*}

def acceptedEpochs (n : NetID) : List TransferLog → List Epoch
  | [] => []
  | .queued m e :: log => if m = n then e :: acceptedEpochs n log else acceptedEpochs n log
  | _ :: log => acceptedEpochs n log

def acceptedSinceDemote (n : NetID) : List TransferLog → List Epoch
  | [] => []
  | .queued m e :: log =>
    if m = n then e :: acceptedSinceDemote n log else acceptedSinceDemote n log
  | .demoted m :: log => if m = n then [] else acceptedSinceDemote n log
  | .committed _ _ :: log => acceptedSinceDemote n log

def Stage.ledger (b : Stage M) (n : NetID) : Ledger :=
  ⟨b.handoffAccepted n, acceptedSinceDemote n b.log, acceptedEpochs n b.log⟩

namespace Phase

@[simp] def duePromotes : Phase M → List (PendingPromote M)
  | .promotes _ due => due
  | _ => []

@[simp] def dueDemotes : Phase M → List (PendingDemote M)
  | .demotes _ due => due
  | _ => []

@[simp] def dueRetries : Phase M → List NetID
  | .retries _ due => due
  | _ => []

@[simp] def dueCrossings : Phase M → List (CrossingEvent M)
  | .crossings _ events => events
  | _ => []

end Phase

namespace Cell

def promotions (c : Cell M) : List (PendingPromote M) :=
  c.pendingPromotes.map (·.2) ++ c.phase.duePromotes

def demotions (c : Cell M) : List (PendingDemote M) :=
  c.driver.pendingDemotes.map (·.2) ++ c.phase.dueDemotes

def crossings (c : Cell M) : List (CrossingEvent M) :=
  c.stage.crossingQueue ++ c.phase.dueCrossings

def view (n : NetID) (c : Cell M) : Handover.Peer M where
  holds := c.stage.liveEpoch n
  offer := (c.driver.inflight.lookup n).map fun h => (h.destCellID, h.epoch)
  armed := c.demotions.countP (·.netID = n)
  queue := ↑((c.promotions.filter (·.netID = n)).map (·.epoch))
  ledger := c.stage.ledger n

end Cell

def CellMessage.offered (n : NetID) : CellMessage → Option Epoch
  | .handoff p => if p.netID = n then some p.epoch else none
  | .handoffAccepted _ => none

def Packet.view (n : NetID) (pkt : Packet M) : Option (Handover.Packet M) :=
  match pkt.msg with
  | .handoff p =>
    if p.netID = n then some (.offer pkt.fromCellID pkt.destCellID p.epoch) else none
  | .handoffAccepted ack =>
    if ack.netID = n then some (.accept pkt.fromCellID pkt.destCellID ack.epoch) else none

namespace Cluster

def netView (n : NetID) (net : List (Packet M)) : Set (Handover.Packet M) :=
  { p | ∃ pkt ∈ net, pkt.view n = some p }

def view (n : NetID) (s : Cluster M) : Handover.Config M :=
  ⟨fun c => (s.cells c).view n, netView n s.net⟩

/-- The promotion that comes next is not one of `n`, or `n` is not live. -/
def PromotesFree (s : Cluster M) (n : NetID) (c : M) : Prop :=
  ∀ p ∈ (s.cells c).phase.duePromotes.head?, p.netID = n → (s.cells c).stage.isLive n = false

/-- The crossing that comes next is not one of `n`, or the epoch that it raises `n` to lies in the
window that starts at `b`. -/
def CrossesInWindow (s : Cluster M) (n : NetID) (b : Epoch) (c : M) : Prop :=
  ∀ evt ∈ (s.cells c).phase.dueCrossings.head?, evt.netID = n →
    ∀ e ∈ (s.cells c).stage.liveEpoch n, Serial.offset b e + 1 < 0x80000000

/-- The conditions under which the authority over `n` cannot be lost: a promotion of `n` is carried
out only where `n` is not live, and a crossing of `n` keeps its epochs in the window that starts at
`b`. -/
def OrderlyAt (s : Cluster M) (n : NetID) (b : Epoch) : ClusterEvent M → Prop
  | .loop c .promote => s.PromotesFree n c
  | .loop c (.cross _) => s.CrossesInWindow n b c
  | _ => True

def OfferUnderWay (s : Cluster M) (n : NetID) (c : M)
    (h : InflightHandoff M) : Prop :=
  ∃ pkt ∈ s.net, pkt.view n = some (.offer c h.destCellID h.epoch)

def HasAccepted (s : Cluster M) (n : NetID) (c : M) (e : Epoch) : Prop :=
  e ∈ acceptedEpochs n (s.cells c).stage.log

/-- This cell has accepted a handoff of `n` under the epoch `e` and has not demoted `n` since. -/
def RemembersAccepting (s : Cluster M) (n : NetID) (c : M) (e : Epoch) : Prop :=
  e ∈ acceptedSinceDemote n (s.cells c).stage.log

/-- The offer that is due for a repeat is not one of `n`, or its destination has not accepted it and
no copy of it is under way. -/
def AbandonsSafely (s : Cluster M) (n : NetID) (c : M) : Prop :=
  n ∈ (s.cells c).phase.dueRetries.head? → ∀ h ∈ (s.cells c).driver.inflight.lookup n,
    ¬ s.HasAccepted n h.destCellID h.epoch ∧ ¬ s.OfferUnderWay n c h

/-- The packet is not a handoff of `n`, or not one that its receiver has accepted and forgotten. -/
def DeliversRemembered (s : Cluster M) (n : NetID) (pkt : Packet M) : Prop :=
  ∀ e ∈ pkt.msg.offered n, s.HasAccepted n pkt.destCellID e →
    s.RemembersAccepting n pkt.destCellID e

/-- The conditions under which a handoff settles. Beside those of `OrderlyAt`: an offer of `n` is
given up only if its destination has not accepted it and no copy of it is under way, and a handoff
of `n` that a cell has accepted before reaches it again only until it demotes `n`. -/
def SettlingAt (s : Cluster M) (n : NetID) (b : Epoch) : ClusterEvent M → Prop
  | .loop c (.retry false) => s.AbandonsSafely n c
  | .deliver pkt _ => s.DeliversRemembered n pkt
  | ev => s.OrderlyAt n b ev

section Decide

variable (s : Cluster M) (n : NetID) (b : Epoch)

/-- A statement about what an option holds, if anything; the search for an instance might otherwise
run through all 32-bit numbers. -/
abbrev decideMem {α : Type*} (o : Option α) (p : α → Prop) (h : DecidablePred p) :
    Decidable (∀ a ∈ o, p a) := Option.decidableForallMem o

instance (c : M) : Decidable (s.PromotesFree n c) :=
  decideMem _ _ fun _ => inferInstance

instance (c : M) : Decidable (s.CrossesInWindow n b c) :=
  decideMem _ _ fun _ =>
    have : Decidable (∀ e ∈ (s.cells c).stage.liveEpoch n, Serial.offset b e + 1 < 0x80000000) :=
      decideMem _ _ fun _ => inferInstance
    inferInstance

instance OrderlyAt.decide (ev) : Decidable (s.OrderlyAt n b ev) := by
  induction ev using ClusterEvent.casesOn with
  | loop c l => induction l using LoopStep.casesOn <;> dsimp only [OrderlyAt] <;> infer_instance
  | _ => dsimp only [OrderlyAt]; infer_instance

variable [DecidableEq M]

instance (c : M) : Decidable (s.AbandonsSafely n c) :=
  inferInstanceAs (Decidable (n ∈ (s.cells c).phase.dueRetries.head? →
    ∀ h ∈ (s.cells c).driver.inflight.lookup n,
      ¬ h.epoch ∈ acceptedEpochs n (s.cells h.destCellID).stage.log ∧
        ¬ ∃ pkt ∈ s.net, pkt.view n = some (.offer c h.destCellID h.epoch)))

instance (pkt : Packet M) : Decidable (s.DeliversRemembered n pkt) :=
  decideMem _ _ fun e => inferInstanceAs (Decidable (
    e ∈ acceptedEpochs n (s.cells pkt.destCellID).stage.log →
      e ∈ acceptedSinceDemote n (s.cells pkt.destCellID).stage.log))

instance SettlingAt.decide (ev) : Decidable (s.SettlingAt n b ev) := by
  unfold SettlingAt
  split <;> infer_instance

end Decide

end Cluster

end Mmokit
