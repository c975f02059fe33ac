/-
Sender and receiver agree about an entity.

`Agrees` says that the sender's committed baseline of an entity is the snapshot that the client
holds, and that the recorded hash, if there is one, is the hash of a state with that snapshot.
-/
import Mmokit.System.FrameEffect

namespace Mmokit.Replication

open Entry

variable {S : Type*}

/-- Different states of a kind with the same hash have the same snapshot. -/
def CollisionFree (cfg : ReplicationConfig S) : Prop :=
  ∀ kind rep, cfg.replicators kind = some rep →
    ∀ s t, rep.hash s = rep.hash t → rep.snapshot s = rep.snapshot t

def SameLayouts (cfg : ReplicationConfig S) (decoders : UInt8 → Option DeltaEncoder) : Prop :=
  ∀ kind rep, cfg.replicators kind = some rep → decoders kind = some rep.layout

/-- The sender's store and the client's entry agree about an entity. -/
structure Agrees (cfg : ReplicationConfig S) (o : Option Baseline × Option UInt64)
    (entry : BaselineEntry) (bl : Baseline) (rep : EntityReplicator S) : Prop where
  baseline : o.1 = some bl
  hasEpoch : bl.hasAuthorityEpoch = true
  epoch : bl.authorityEpoch = entry.authorityEpoch
  acked : bl.acked = some entry.snapshot
  replicator : cfg.replicators entry.entityType = some rep
  wellFormed : rep.layout.WellFormed entry.snapshot
  hash : ∀ h, o.2 = some h → ∃ s, rep.hash s = h ∧ rep.snapshot s = entry.snapshot

/-! ### What a frame can do with an entity -/

section Cases

variable {conn : ConnState} {rep : EntityReplicator S} {c : Candidate S}
  {forceFresh isKeyframe : Bool} {tick : UInt32}

lemma encodeEntity_cases (conn : ConnState) (rep : EntityReplicator S) (c : Candidate S)
    (forceFresh isKeyframe : Bool) (tick : UInt32) :
    let outcome := encodeEntity conn rep c forceFresh isKeyframe tick
    let needsFull := conn.needsFull forceFresh c.netID c.epoch
    (outcome = .unchanged ∧ needsFull = false ∧ conn.lastHash c.netID = some (rep.hash c.state)) ∨
      (outcome = .held ∧ needsFull = false) ∨
      (∃ w, outcome = .full (fullPayload rep c w) (stageSnapshot conn rep c w)) ∨
      (∃ acked, needsFull = false ∧
        (conn.baselines c.netID).bind Baseline.acked = some acked ∧
        ((outcome = .identical { netID := c.netID, lastHash := some (rep.hash c.state) } ∧
            rep.layout.encode acked (rep.snapshot c.state) = none) ∨
          ∃ data, outcome = .delta ⟨c.netID, c.epoch, c.kind, data⟩
              (stageSnapshot conn rep c false) ∧
            rep.layout.encode acked (rep.snapshot c.state) = some data)) := by
  intro outcome needsFull
  unfold outcome
  unfold encodeEntity
  dsimp only
  split
  · -- the hash has not changed
    rename_i h
    simp only [Bool.and_eq_true, Bool.not_eq_true', beq_iff_eq] at h
    exact .inl ⟨rfl, h.1.1.1, h.2⟩
  · split
    · -- held back by the divisor
      rename_i h
      simp only [Bool.and_eq_true, Bool.not_eq_true'] at h
      exact .inr (.inl ⟨rfl, h.1.1.1⟩)
    · cases hacked : (conn.baselines c.netID).bind Baseline.acked with
      | none => exact .inr (.inr (.inl ⟨true, rfl⟩))
      | some acked =>
        dsimp only
        split
        · exact .inr (.inr (.inl ⟨true, rfl⟩))
        rename_i hneeds
        rw [Bool.or_eq_true, not_or, Bool.not_eq_true] at hneeds
        split
        · exact .inr (.inr (.inl ⟨false, rfl⟩))
        refine .inr (.inr (.inr ⟨acked, hneeds.1, rfl, ?_⟩))
        cases hdata : rep.layout.encode acked (rep.snapshot c.state) with
        | none => exact .inl ⟨rfl, rfl⟩
        | some data => exact .inr ⟨data, rfl, rfl⟩

lemma of_needsFull_eq_false {n : NetID} {epoch : Epoch}
    (h : conn.needsFull forceFresh n epoch = false) :
    forceFresh = false ∧ conn.wasVisible n = true ∧
      ∀ bl, conn.baselines n = some bl → bl.authorityEpoch = epoch := by
  simp only [ConnState.needsFull, Bool.or_eq_false_iff, Bool.not_eq_false'] at h
  obtain ⟨⟨⟨hfresh, hvisible⟩, -⟩, hepoch⟩ := h
  refine ⟨hfresh, hvisible, fun bl hbl => ?_⟩
  simp only [ConnState.epochChanged, hbl, Bool.or_eq_false_iff] at hepoch
  simpa using hepoch.2

lemma stagedEffect_stageSnapshot (conn : ConnState) (rep : EntityReplicator S) (c : Candidate S)
    (w : Bool) (o : Option Baseline × Option UInt64) :
    ∃ bl, stagedEffect (stageSnapshot conn rep c w) o = (some bl, some (rep.hash c.state)) ∧
      bl.hasAuthorityEpoch = true ∧ bl.authorityEpoch = c.epoch ∧
      bl.acked = some (rep.snapshot c.state) := by
  refine ⟨_, rfl, ?_, ?_, rfl⟩ <;> cases w && rep.hasInitial <;> rfl

end Cases

/-! ### One entry -/

namespace Entry

def clientEffect (decoders : UInt8 → Option DeltaEncoder) (e : Entry S)
    (o : Option BaselineEntry × Option Epoch) : Option BaselineEntry × Option Epoch :=
  match e.outcome with
  | .full p _ => fullEffect p o
  | .delta p _ => deltaEffect decoders p o
  | _ => o

def commitEffect (e : Entry S) (o : Option Baseline × Option UInt64) :
    Option Baseline × Option UInt64 :=
  match e.staged with
  | some s => stagedEffect s o
  | none => o

/-- The authority of the entity is not older than the highest one that the client knows of. -/
def Fenced (epoch : Epoch) (highest : Option Epoch) : Prop :=
  ∀ h, highest = some h → epoch = h ∨ Serial.After epoch h

end Entry

lemma fullEffect_of_fenced {p : FullPayload} {o : Option BaselineEntry × Option Epoch}
    (h : Entry.Fenced p.epoch o.2) :
    fullEffect p o = (some ⟨p.snapshot, p.epoch, p.type⟩, some p.epoch) := by
  unfold fullEffect
  cases hhighest : o.2 with
  | none => rfl
  | some highest =>
    dsimp only
    rcases h highest hhighest with rfl | hafter
    · rw [if_neg (by simp)]
      split <;> rfl
    · rw [if_neg (by simp [hafter]), if_pos hafter]

section Agreement

variable {cfg : ReplicationConfig S} {decoders : UInt8 → Option DeltaEncoder} {conn : ConnState}
  {i : TickInput S} {e : Entry S} {o : Option BaselineEntry × Option Epoch}

/-- **Agreement about an entry.** Let the client and the sender agree about the entity, with its
present kind, whenever no full entry is due. Then they agree after the frame and its commit, under
the entity's present authority and kind, and the client has its present snapshot, unless the divisor
held it back. -/
theorem Entry.agrees (hhash : CollisionFree cfg) (hlayout : SameLayouts cfg decoders)
    (hvalid : e.Valid cfg conn i)
    (hprior : conn.needsFull conn.forceFresh e.netID e.candidate.epoch = false →
      ∃ entry bl, o.1 = some entry ∧ entry.entityType = e.candidate.kind ∧
        Agrees cfg (conn.at e.netID) entry bl e.rep)
    (hfence : Entry.Fenced e.candidate.epoch o.2) :
    ∃ entry bl, (e.clientEffect decoders o).1 = some entry ∧
      entry.authorityEpoch = e.candidate.epoch ∧ entry.entityType = e.candidate.kind ∧
      Agrees cfg (e.commitEffect (conn.at e.netID)) entry bl e.rep ∧
      (e.outcome ≠ .held → entry.snapshot = e.snapshot) := by
  have hwf := e.rep.snapshot_wellFormed e.candidate.state
  rcases encodeEntity_cases conn e.rep e.candidate conn.forceFresh (isKeyframe cfg i.tick) i.tick
    with ⟨hout, hneeds, hlast⟩ | ⟨hout, hneeds⟩ | ⟨w, hout⟩ | ⟨acked, hneeds, hacked, hout⟩
  · -- unchanged: equal hashes mean equal snapshots
    rw [← hvalid.outcome] at hout
    obtain ⟨entry, bl, hentry, hkind, hagrees⟩ := hprior hneeds
    obtain ⟨s, hs, hsnap⟩ := hagrees.hash _ hlast
    have hepoch := (of_needsFull_eq_false hneeds).2.2 bl hagrees.baseline
    refine ⟨entry, bl, by simpa [clientEffect, hout] using hentry,
      hagrees.epoch.symm.trans hepoch, hkind,
      by simpa [commitEffect, staged, hout] using hagrees, fun _ => ?_⟩
    exact hsnap.symm.trans (hhash _ _ hvalid.rep s e.candidate.state hs)
  · -- held: nothing changes
    rw [← hvalid.outcome] at hout
    obtain ⟨entry, bl, hentry, hkind, hagrees⟩ := hprior hneeds
    have hepoch := (of_needsFull_eq_false hneeds).2.2 bl hagrees.baseline
    exact ⟨entry, bl, by simpa [clientEffect, hout] using hentry,
      hagrees.epoch.symm.trans hepoch, hkind,
      by simpa [commitEffect, staged, hout] using hagrees, fun h => absurd hout h⟩
  · -- full: the frame carries the snapshot
    rw [← hvalid.outcome] at hout
    obtain ⟨bl, heffect, hhas, hepoch, hsnap⟩ :=
      stagedEffect_stageSnapshot conn e.rep e.candidate w (conn.at e.netID)
    have hclient : e.clientEffect decoders o =
        fullEffect (fullPayload e.rep e.candidate w) o := by
      simp [clientEffect, hout]
    have hcommit : e.commitEffect (conn.at e.netID) =
        (some bl, some (e.rep.hash e.candidate.state)) := by
      simpa [commitEffect, staged, hout] using heffect
    refine ⟨⟨e.snapshot, e.candidate.epoch, e.candidate.kind⟩, bl, ?_, rfl, rfl, ?_, fun _ => rfl⟩
    · rw [hclient, fullEffect_of_fenced hfence]
      rfl
    · rw [hcommit]
      exact ⟨rfl, hhas, hepoch, hsnap, hvalid.rep, hwf,
        fun h hh => ⟨e.candidate.state, Option.some.inj hh, rfl⟩⟩
  · obtain ⟨entry, bl, hentry, hkind, hagrees⟩ := hprior hneeds
    have hepoch := (of_needsFull_eq_false hneeds).2.2 bl hagrees.baseline
    have hbase : conn.baselines e.candidate.netID = some bl := hagrees.baseline
    have hackedEq : acked = entry.snapshot := by
      rw [hbase] at hacked
      exact Option.some.inj (hacked.symm.trans hagrees.acked)
    subst hackedEq
    rcases hout with ⟨hout, hnone⟩ | ⟨data, hout, hdata⟩
    · -- identical: the hash is recorded, the snapshot is the acknowledged one
      rw [← hvalid.outcome] at hout
      have hsame : entry.snapshot = e.snapshot :=
        DeltaEncoder.eq_of_encode_eq_none hagrees.wellFormed hwf hnone
      refine ⟨entry, bl, by simpa [clientEffect, hout] using hentry,
        hagrees.epoch.symm.trans hepoch, hkind, ?_, fun _ => hsame⟩
      have hcommit : e.commitEffect (conn.at e.netID) =
          ((conn.at e.netID).1, some (e.rep.hash e.candidate.state)) := by
        simp [commitEffect, staged, hout, stagedEffect]
      rw [hcommit]
      exact ⟨hagrees.baseline, hagrees.hasEpoch, hagrees.epoch, hagrees.acked, hagrees.replicator,
        hagrees.wellFormed, fun h hh => ⟨e.candidate.state, Option.some.inj hh, hsame.symm⟩⟩
    · -- delta: applied to the acknowledged snapshot it gives the present one
      rw [← hvalid.outcome] at hout
      obtain ⟨bl', heffect, hhas, hepoch', hsnap⟩ :=
        stagedEffect_stageSnapshot conn e.rep e.candidate false (conn.at e.netID)
      have hdecode : e.rep.layout.decode entry.snapshot data = e.snapshot :=
        DeltaEncoder.decode_encode hagrees.wellFormed hwf hdata
      refine ⟨⟨e.snapshot, e.candidate.epoch, e.candidate.kind⟩, bl', ?_, rfl, rfl, ?_,
        fun _ => rfl⟩
      · have hauth : entry.authorityEpoch = e.candidate.epoch :=
          hagrees.epoch.symm.trans hepoch
        simp [clientEffect, hout, deltaEffect, hentry, hauth, hkind,
          hlayout _ _ hvalid.rep, hdecode]
      · have hcommit : e.commitEffect (conn.at e.netID) =
            (some bl', some (e.rep.hash e.candidate.state)) := by
          simpa [commitEffect, staged, hout] using heffect
        rw [hcommit]
        exact ⟨rfl, hhas, hepoch', hsnap, hvalid.rep, hwf,
          fun h hh => ⟨e.candidate.state, Option.some.inj hh, rfl⟩⟩

end Agreement

/-! ### A world of one-byte entities -/

def byteReplicator : EntityReplicator UInt8 where
  hash state := state.toUInt64
  snapshot state := [state]
  layout := ⟨[1], false⟩
  hasInitial := false
  initialHash _ := 0
  initialData _ := []
  updateDivisor := 1
  snapshot_wellFormed state := ⟨[state], [], rfl, by decide, rfl⟩

def byteConfig : ReplicationConfig UInt8 where
  replicators kind := if kind = 1 ∨ kind = 2 then some byteReplicator else none
  fullRefreshInterval := 0
  pendingAckTimeoutTicks := 10

def byteDecoders (kind : UInt8) : Option DeltaEncoder :=
  (byteConfig.replicators kind).map EntityReplicator.layout

def byteEntity (netID : NetID) (state : UInt8) : Candidate UInt8 where
  netID := netID
  epoch := 0
  kind := 1
  state := state
  alive := true
  hasNetworkID := true
  dormant := false
  isViewer := false
  relevant := true
  inRadius := true

end Mmokit.Replication
