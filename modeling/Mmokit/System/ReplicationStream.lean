/-
The replication stream of one viewer: the sender, the receiver and the link between them.

The link may lose, duplicate, delay and reorder frames and acknowledgements. So it is a record of
all frames that were sent, and of all acknowledgements, any of which may arrive at any time, any
number of times, or never.
-/
import Mmokit.Library.Runs
import Mmokit.System.FrameContents

namespace Mmokit.Replication

structure Sent where
  frame : ReplicationFrame
  visible : List NetID
  /-- The visible entities that their divisor held back. -/
  held : List NetID
  /-- The snapshots of the visible entities. -/
  snapshots : List (NetID × List UInt8)
  /-- The authority epochs and kinds of the visible entities. -/
  seen : List (NetID × Epoch × UInt8)
  selfNetID : NetID
deriving DecidableEq

/-- Sender, client and what is between them. -/
structure Stream where
  conn : ConnState := {}
  client : DecoderState := {}
  sent : List Sent := []
  /-- The generation and sequence number of each acknowledgement. -/
  acks : List (UInt32 × UInt32) := []
  /-- The place in the record of the last frame that the client accepted. -/
  accepted : Option ℕ := none

inductive Action (S : Type*)
  | tick (i : TickInput S)
  /-- The viewer exists, but is not among the active ones. -/
  | omitViewer
  | receipt (streamEpoch seq : UInt32) (disposition : SendDisposition)
  | deliver (k : ℕ)
  | ack (k : ℕ)

section Step

variable {S : Type*} (cfg : ReplicationConfig S) (decoders : UInt8 → Option DeltaEncoder)

def buildingConn (conn : ConnState) (i : TickInput S) : Option ConnState :=
  let r := awaitPending cfg (conn.resolveStreamGeneration i.generation) i
  if r.2 then some r.1 else none

def sentOf (conn : ConnState) (i : TickInput S) : Sent :=
  let es := visibleEntries cfg conn i
  { frame := frameOf cfg conn i
    visible := es.map Entry.netID
    held := (es.filter fun e => e.outcome = .held).map Entry.netID
    snapshots := es.map fun e => (e.netID, e.snapshot)
    seen := es.map fun e => (e.netID, e.candidate.epoch, e.candidate.kind)
    selfNetID := stagedSelfNetID conn i }

def SendDisposition.mayArrive : SendDisposition → Bool
  | .queued | .indeterminate => true
  | _ => false

def step (s : Stream) : Action S → Option Stream
  | .tick i =>
    let after := { s with conn := (update cfg s.conn i).1 }
    match buildingConn cfg s.conn i with
    | some conn =>
      some (if i.disposition.mayArrive then { after with sent := s.sent ++ [sentOf cfg conn i] }
        else after)
    | none => some after
  | .omitViewer => some { s with conn := s.conn.omitViewer }
  | .receipt streamEpoch seq disposition =>
    some { s with conn := s.conn.drainFrameReceipt streamEpoch seq disposition }
  | .deliver k => do
    let sent ← s.sent[k]?
    match s.client.decodeFrame decoders sent.frame with
    | none => some s
    | some client =>
      -- An accepted frame is acknowledged.
      some { s with
        client := client
        acks := s.acks ++ [(sent.frame.streamEpoch, sent.frame.seq)]
        accepted := some k }
  | .ack k => do
    let a ← s.acks[k]?
    some { s with conn := s.conn.ackFrame a.1 a.2 }

end Step

end Mmokit.Replication
