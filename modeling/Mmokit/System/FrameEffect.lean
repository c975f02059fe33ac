/-
What frames and commits do to one entity.

The decoder's state and the sender's store are observed entity by entity. Each payload of a frame,
and each staged change, touches one entity.
-/
import Mmokit.Library.KeyedFold
import Mmokit.System.FrameContents

namespace Mmokit.Replication

def DecoderState.at (st : DecoderState) (n : NetID) : Option BaselineEntry × Option Epoch :=
  (st.baselines n, st.authorityEpochs n)

def fullEffect (p : FullPayload) (o : Option BaselineEntry × Option Epoch) :
    Option BaselineEntry × Option Epoch :=
  let entry : BaselineEntry := ⟨p.snapshot, p.epoch, p.type⟩
  match o.2 with
  | none => (some entry, some p.epoch)
  | some highest =>
    if p.epoch ≠ highest ∧ ¬ Serial.After p.epoch highest then o
    else if Serial.After p.epoch highest then (some entry, some p.epoch)
    else (some entry, o.2)

def deltaEffect (decoders : UInt8 → Option DeltaEncoder) (p : DeltaPayload)
    (o : Option BaselineEntry × Option Epoch) : Option BaselineEntry × Option Epoch :=
  match o.1 with
  | none => o
  | some bl =>
    if bl.authorityEpoch ≠ p.epoch ∨ bl.entityType ≠ p.type then o
    else
      match decoders p.type with
      | none => o
      | some encoder => (some { bl with snapshot := encoder.decode bl.snapshot p.data }, o.2)

lemma keyed_applyFull :
    Keyed DecoderState.applyFull FullPayload.netID DecoderState.at fullEffect where
  frame {s p k} hk := by
    unfold DecoderState.applyFull DecoderState.at
    cases s.authorityEpochs p.netID with
    | none => simp [hk]
    | some highest =>
      dsimp only
      split
      · rfl
      · split <;> simp [hk]
  effect {s p} := by
    unfold DecoderState.applyFull DecoderState.at fullEffect
    cases hepoch : s.authorityEpochs p.netID with
    | none => simp
    | some highest =>
      dsimp only
      split
      · rw [hepoch]
      · split <;> simp [hepoch]

lemma keyed_applyDelta (decoders : UInt8 → Option DeltaEncoder) :
    Keyed (fun s p => DecoderState.applyDelta s decoders p) DeltaPayload.netID DecoderState.at
      (deltaEffect decoders) where
  frame {s p k} hk := by
    unfold DecoderState.applyDelta DecoderState.at
    cases s.baselines p.netID with
    | none => rfl
    | some bl =>
      dsimp only
      split
      · rfl
      · cases decoders p.type with
        | none => rfl
        | some encoder => simp [hk]
  effect {s p} := by
    unfold DecoderState.applyDelta DecoderState.at deltaEffect
    cases hbl : s.baselines p.netID with
    | none => simp [hbl]
    | some bl =>
      dsimp only
      split
      · rw [hbl]
      · cases decoders p.type with
        | none => simp [hbl]
        | some encoder => simp

lemma keyed_forget :
    Keyed DecoderState.forget id DecoderState.at (fun _ _ => (none, none)) where
  frame {s n k} hk := by
    simp only [id] at hk
    simp [DecoderState.forget, DecoderState.at, hk]
  effect {s n} := by simp [DecoderState.forget, DecoderState.at]

def ConnState.at (conn : ConnState) (n : NetID) : Option Baseline × Option UInt64 :=
  (conn.baselines n, conn.lastHash n)

def stagedEffect (s : Staged) (o : Option Baseline × Option UInt64) :
    Option Baseline × Option UInt64 :=
  if s.drop then (none, none)
  else
    (match s.baseline with
      | some bl => some { bl with
          acked := s.promoteSnapshot.orElse fun _ => o.1.bind Baseline.acked }
      | none => o.1,
      match s.lastHash with
      | some hash => some hash
      | none => o.2)

lemma keyed_commitStaged :
    Keyed ConnState.commitStaged Staged.netID ConnState.at stagedEffect where
  frame {conn s k} hk := by
    unfold ConnState.commitStaged ConnState.at
    split
    · simp [hk]
    · cases s.baseline <;> cases s.lastHash <;> simp [hk]
  effect {conn s} := by
    unfold ConnState.commitStaged ConnState.at stagedEffect
    split
    · simp
    · cases s.baseline <;> cases s.lastHash <;> simp

end Mmokit.Replication
