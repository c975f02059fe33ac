/-
The receiver of the client replication stream (`examples/space/internal/bot/world.go`).
-/
import Mmokit.System.Replication

namespace Mmokit.Replication

structure BaselineEntry where
  snapshot : List UInt8
  authorityEpoch : Epoch
  entityType : UInt8
deriving DecidableEq

structure DecoderState where
  baselines : NetID → Option BaselineEntry := fun _ => none
  authorityEpochs : NetID → Option Epoch := fun _ => none
  streamEpoch : UInt32 := 0
  hasStreamEpoch : Bool := false
  lastFrameSeq : UInt32 := 0
  hasLastFrameSeq : Bool := false

namespace DecoderState

variable (st : DecoderState)

def acceptFrame (streamEpoch sequence : UInt32) : Option DecoderState :=
  let ordered : DecoderState := { st with lastFrameSeq := sequence, hasLastFrameSeq := true }
  if !st.hasStreamEpoch then
    some { ordered with streamEpoch := streamEpoch, hasStreamEpoch := true }
  else if streamEpoch ≠ st.streamEpoch then
    if Serial.After streamEpoch st.streamEpoch then
      some { ordered with streamEpoch := streamEpoch, baselines := fun _ => none }
    else none
  else if st.hasLastFrameSeq ∧ ¬ Serial.After sequence st.lastFrameSeq then none
  else some ordered

/-- A full entry: unless its authority is superseded, it replaces the baseline. -/
def applyFull (p : FullPayload) : DecoderState :=
  let entry : BaselineEntry := ⟨p.snapshot, p.epoch, p.type⟩
  let store : DecoderState :=
    { st with baselines := Function.update st.baselines p.netID (some entry) }
  let raise (s : DecoderState) : DecoderState :=
    { s with authorityEpochs := Function.update s.authorityEpochs p.netID (some p.epoch) }
  match st.authorityEpochs p.netID with
  | none => raise store
  | some highest =>
    if p.epoch ≠ highest ∧ ¬ Serial.After p.epoch highest then st
    else if Serial.After p.epoch highest then raise store
    else store

/-- A delta entry: it applies to a baseline of the same authority and type. -/
def applyDelta (decoders : UInt8 → Option DeltaEncoder) (p : DeltaPayload) : DecoderState :=
  match st.baselines p.netID with
  | none => st
  | some bl =>
    if bl.authorityEpoch ≠ p.epoch ∨ bl.entityType ≠ p.type then st
    else
      match decoders p.type with
      | none => st
      | some encoder =>
        let entry := { bl with snapshot := encoder.decode bl.snapshot p.data }
        { st with baselines := Function.update st.baselines p.netID (some entry) }

def forget (netID : NetID) : DecoderState :=
  { st with
    baselines := Function.update st.baselines netID none
    authorityEpochs := Function.update st.authorityEpochs netID none }

def afterDepartures (decoders : UInt8 → Option DeltaEncoder) (f : ReplicationFrame) :
    DecoderState :=
  let start : DecoderState := if f.fresh then { st with baselines := fun _ => none } else st
  let full := f.full.foldl applyFull start
  let deltas := f.deltas.foldl (fun s p => s.applyDelta decoders p) full
  f.exited.foldl forget (f.removed.foldl forget deltas)

def applyFrame (decoders : UInt8 → Option DeltaEncoder) (f : ReplicationFrame) : DecoderState :=
  let left := st.afterDepartures decoders f
  if f.fresh then
    { left with authorityEpochs := fun n =>
        if (f.full.map FullPayload.netID).contains n then left.authorityEpochs n else none }
  else left

def decodeFrame (decoders : UInt8 → Option DeltaEncoder) (f : ReplicationFrame) :
    Option DecoderState :=
  (st.acceptFrame f.streamEpoch f.seq).map fun s => s.applyFrame decoders f

end DecoderState

end Mmokit.Replication
