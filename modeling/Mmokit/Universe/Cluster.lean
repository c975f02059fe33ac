/-
The cells of a cluster and the network between them.

The network may lose, duplicate, delay and reorder messages: what is under way is a bag, any
element of which may arrive next, disappear, or be copied.

No step destroys an entity, and none splits, merges or migrates a cell.
-/
import Mmokit.Universe.Cell
import Mmokit.Library.Runs

namespace Mmokit

structure Packet (M : Type*) where
  fromCellID : M
  destCellID : M
  msg : CellMessage
deriving DecidableEq

/-- The cells and the messages between them. -/
structure Cluster (M : Type*) where
  cells : M → Cell M
  net : List (Packet M)

inductive ClusterEvent (M : Type*)
  | loop (c : M) (l : LoopStep M)
  /-- A system of the cell reports that an entity has left for another cell. -/
  | queueCrossing (c : M) (evt : CrossingEvent M)
  | borderFrame (c source : M) (entries : List BorderEntry)
  /-- A packet arrives; `ackSent` is what `SendHandoffAccepted` would answer. -/
  | deliver (pkt : Packet M) (ackSent : Bool)
  | lose (pkt : Packet M)
  | duplicate (pkt : Packet M)
deriving DecidableEq

namespace Cluster

variable {M : Type*} [DecidableEq M] (s : Cluster M)

def setCell (c : M) (cell : Cell M) (net : List (Packet M))
    (out : List (M × CellMessage)) : Cluster M :=
  ⟨Function.update s.cells c cell, out.map (fun x => ⟨c, x.1, x.2⟩) ++ net⟩

/-- May this crossing be queued? The entity is alive, the event carries its netID (or `0` if it
has none), and the destination is another cell. -/
def crossingAllowed (c : M) (evt : CrossingEvent M) : Bool :=
  let b := (s.cells c).stage
  b.ecs.alive evt.entity && evt.netID == ((b.networkIDOf evt.entity).map (·.id)).getD 0 &&
    evt.destCellID ≠ c

def step : ClusterEvent M → Option (Cluster M)
  | .loop c l => ((s.cells c).loop l).map fun r => s.setCell c r.1 s.net r.2
  | .queueCrossing c evt =>
    if (s.cells c).phase = .idle ∧ s.crossingAllowed c evt then
      some (s.setCell c ((s.cells c).withStage ((s.cells c).stage.queueCrossing evt)) s.net [])
    else none
  | .borderFrame c source entries =>
    if (s.cells c).phase = .idle then
      some (s.setCell c
        ((s.cells c).withStage ((s.cells c).stage.applyBorderFrame entries source)) s.net [])
    else none
  | .deliver pkt ackSent =>
    if pkt ∈ s.net ∧ (s.cells pkt.destCellID).phase = .idle then
      let r := (s.cells pkt.destCellID).processMessage pkt.fromCellID pkt.msg ackSent
      some (s.setCell pkt.destCellID r.1 (s.net.erase pkt) r.2)
    else none
  | .lose pkt => if pkt ∈ s.net then some { s with net := s.net.erase pkt } else none
  | .duplicate pkt => if pkt ∈ s.net then some { s with net := pkt :: s.net } else none

end Cluster

end Mmokit
