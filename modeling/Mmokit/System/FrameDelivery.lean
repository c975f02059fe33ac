/-
Whole frames, entity by entity.

`Carries f es` says that the frame `f` is made of the entries `es`. It is all that the client's side
needs to know of how the frame was built.
-/
import Mmokit.System.FrameAgreement

namespace Mmokit.Replication

open List ConnState DecoderState

variable {S : Type*} {cfg : ReplicationConfig S} {decoders : UInt8 → Option DeltaEncoder}
  {conn : ConnState} {i : TickInput S}

namespace Entry.Valid

variable {e : Entry S}

lemma outcome_cases (h : e.Valid cfg conn i) :
    e.outcome = .unchanged ∨ e.outcome = .held ∨
    (∃ w, e.outcome =
      .full (fullPayload e.rep e.candidate w) (stageSnapshot conn e.rep e.candidate w)) ∨
    e.outcome = .identical { netID := e.netID, lastHash := some (e.rep.hash e.candidate.state) } ∨
    ∃ data, e.outcome = .delta ⟨e.netID, e.candidate.epoch, e.candidate.kind, data⟩
      (stageSnapshot conn e.rep e.candidate false) := by
  rw [h.outcome]
  rcases encodeEntity_cases conn e.rep e.candidate conn.forceFresh (isKeyframe cfg i.tick) i.tick
    with ⟨h, -⟩ | ⟨h, -⟩ | h | ⟨acked, -, -, ⟨h, -⟩ | ⟨data, h, -⟩⟩
  · exact .inl h
  · exact .inr (.inl h)
  · exact .inr (.inr (.inl h))
  · exact .inr (.inr (.inr (.inl h)))
  · exact .inr (.inr (.inr (.inr ⟨data, h⟩)))

lemma full_netID (h : e.Valid cfg conn i) {p : FullPayload} (hp : e.full = some p) :
    p.netID = e.netID := by
  rcases h.outcome_cases with hout | hout | ⟨w, hout⟩ | hout | ⟨data, hout⟩ <;>
    simp only [Entry.full, hout, reduceCtorEq, Option.some.injEq] at hp
  subst hp
  rfl

lemma delta_netID (h : e.Valid cfg conn i) {p : DeltaPayload} (hp : e.delta = some p) :
    p.netID = e.netID := by
  rcases h.outcome_cases with hout | hout | ⟨w, hout⟩ | hout | ⟨data, hout⟩ <;>
    simp only [Entry.delta, hout, reduceCtorEq, Option.some.injEq] at hp
  subst hp
  rfl

lemma staged_netID (h : e.Valid cfg conn i) {s : Staged} (hs : e.staged = some s) :
    s.netID = e.netID := by
  rcases h.outcome_cases with hout | hout | ⟨w, hout⟩ | hout | ⟨data, hout⟩ <;>
    simp only [Entry.staged, hout, reduceCtorEq, Option.some.injEq] at hs <;>
    · subst hs
      rfl

end Entry.Valid

lemma frameOf_full :
    (frameOf cfg conn i).full = (visibleEntries cfg conn i).filterMap Entry.full := by
  simp [frameOf, buildFrame_eq, Build.ofEntries]

lemma frameOf_deltas :
    (frameOf cfg conn i).deltas = (visibleEntries cfg conn i).filterMap Entry.delta := by
  simp [frameOf, buildFrame_eq, Build.ofEntries]

def visibleOf (cfg : ReplicationConfig S) (conn : ConnState) (i : TickInput S) : List NetID :=
  (visibleEntries cfg conn i).map Entry.netID

variable {n : NetID}

lemma mem_visibleOf :
    n ∈ visibleOf cfg conn i ↔ ∃ e ∈ visibleEntries cfg conn i, e.netID = n := mem_map

lemma mem_departed :
    (n ∈ (frameOf cfg conn i).removed ∨ n ∈ (frameOf cfg conn i).exited) ↔
      conn.wasVisible n = true ∧ n ∉ visibleOf cfg conn i ∧
        ((i.removedIDs.contains n || conn.pendingRemoved n) = true ∨
          n ≠ stagedSelfNetID conn i) := by
  simp only [frameOf, departed, buildFrame_eq, Build.ofEntries, visibleOf, wasVisible,
    mem_filter, Bool.not_eq_true', decide_eq_true_eq, Bool.and_eq_true,
    contains_eq_mem, decide_eq_false_iff_not]
  cases (decide (n ∈ i.removedIDs) || conn.pendingRemoved n) <;> simp
  tauto

variable {e : Entry S}

lemma notMem_departed_of_mem (he : e ∈ visibleEntries cfg conn i) :
    e.netID ∉ (frameOf cfg conn i).removed ∧ e.netID ∉ (frameOf cfg conn i).exited := by
  rw [← not_or, mem_departed]
  exact fun h => h.2.1 (mem_visibleOf.mpr ⟨e, he, rfl⟩)

structure Entry.Own (e : Entry S) : Prop where
  full_netID : ∀ p, e.full = some p → p.netID = e.netID
  delta_netID : ∀ p, e.delta = some p → p.netID = e.netID
  staged_netID : ∀ x, e.staged = some x → x.netID = e.netID

lemma Entry.Valid.own (h : e.Valid cfg conn i) : e.Own :=
  ⟨fun _ => h.full_netID, fun _ => h.delta_netID, fun _ => h.staged_netID⟩

/-- The frame has the payloads of the entries. -/
structure Carries (f : ReplicationFrame) (es : List (Entry S)) : Prop where
  full : f.full = es.filterMap Entry.full
  deltas : f.deltas = es.filterMap Entry.delta
  nodup : (es.map Entry.netID).Nodup
  own : ∀ e ∈ es, e.Own
  stays : ∀ e ∈ es, e.netID ∉ f.removed ∧ e.netID ∉ f.exited

lemma carries_frameOf : Carries (frameOf cfg conn i) (visibleEntries cfg conn i) where
  full := frameOf_full
  deltas := frameOf_deltas
  nodup := (visibleEntries_spec cfg conn i).1
  own e he := ((visibleEntries_spec cfg conn i).2 e he).own
  stays _ he := notMem_departed_of_mem he

def startAt (fresh : Bool) (o : Option BaselineEntry × Option Epoch) :
    Option BaselineEntry × Option Epoch :=
  if fresh then (none, o.2) else o

namespace Carries

variable {f : ReplicationFrame} {es : List (Entry S)}

variable {st : DecoderState}

lemma payloads_of_mem (h : Carries f es) {e : Entry S} (he : e ∈ es) :
    (f.deltas.foldl (fun s p => s.applyDelta decoders p)
      (f.full.foldl applyFull st)).at e.netID =
        e.clientEffect decoders (st.at e.netID) := by
  rw [h.full, h.deltas,
    (keyed_applyDelta decoders).foldl_filterMap (fun e' he' => (h.own e' he').delta_netID)
      h.nodup he,
    keyed_applyFull.foldl_filterMap (fun e' he' => (h.own e' he').full_netID) h.nodup he]
  cases hout : e.outcome <;> simp [Entry.delta, Entry.full, Entry.clientEffect, hout]

lemma payloads_of_notMem (h : Carries f es) {n : NetID} (hn : n ∉ es.map Entry.netID) :
    (f.deltas.foldl (fun s p => s.applyDelta decoders p)
      (f.full.foldl applyFull st)).at n = st.at n := by
  rw [h.full, h.deltas,
    (keyed_applyDelta decoders).foldl_filterMap_of_notMem
      (fun e' he' => (h.own e' he').delta_netID) hn,
    keyed_applyFull.foldl_filterMap_of_notMem (fun e' he' => (h.own e' he').full_netID) hn]

end Carries

variable {ids : List NetID} {st : DecoderState}

lemma forget_of_mem (hn : n ∈ ids) : (ids.foldl forget st).at n = (none, none) := by
  induction ids generalizing st with
  | nil => exact absurd hn not_mem_nil
  | cons m ids ih =>
    rw [foldl_cons]
    by_cases hmem : n ∈ ids
    · exact ih hmem
    · have hnm : n = m := (mem_cons.mp hn).resolve_right hmem
      rw [keyed_forget.foldl_of_notMem (by simpa using hmem), hnm]
      exact keyed_forget.effect

lemma forget_of_notMem (hn : n ∉ ids) :
    (ids.foldl forget st).at n = st.at n :=
  keyed_forget.foldl_of_notMem (by simpa using hn)

lemma at_start (st : DecoderState) (fresh : Bool) (n : NetID) :
    (if fresh then ({ st with baselines := fun _ => none } : DecoderState) else st).at n =
      startAt fresh (st.at n) := by
  cases fresh <;> rfl

lemma streamGenerationAfter_iff {candidate current : UInt32} :
    streamGenerationAfter candidate current = true ↔
      Serial.After candidate current := by
  have hne : candidate - current = 0 ↔ candidate = current := by
    constructor
    · intro h
      exact Serial.offset_injective (b := current)
        (by rw [Serial.offset, h, Serial.offset_self]; rfl)
    · rintro rfl
      simp
  simp [streamGenerationAfter, Serial.After, hne]

def DecoderState.order (st : DecoderState) : (Bool × UInt32) × (Bool × UInt32) :=
  ((st.hasStreamEpoch, st.streamEpoch), (st.hasLastFrameSeq, st.lastFrameSeq))

lemma DecoderState.order_applyFrame (decoders : UInt8 → Option DeltaEncoder) (st : DecoderState)
    (f : ReplicationFrame) : (st.applyFrame decoders f).order = st.order := by
  have hfull (st : DecoderState) (p : FullPayload) : (st.applyFull p).order = st.order := by
    unfold applyFull
    cases st.authorityEpochs p.netID with
    | none => rfl
    | some highest => dsimp only; split <;> [rfl; (split <;> rfl)]
  have hdelta (st : DecoderState) (p : DeltaPayload) :
      (st.applyDelta decoders p).order = st.order := by
    unfold applyDelta
    cases st.baselines p.netID with
    | none => rfl
    | some bl => dsimp only; split <;> [rfl; (cases decoders p.type <;> rfl)]
  have hforget (st : DecoderState) (n : NetID) : (st.forget n).order = st.order := rfl
  have hleft : (st.afterDepartures decoders f).order = st.order := by
    unfold afterDepartures
    rw [foldl_keeps _ hforget, foldl_keeps _ hforget, foldl_keeps _ hdelta, foldl_keeps _ hfull]
    split <;> rfl
  unfold applyFrame
  split <;> exact hleft

lemma baselines_applyFrame (st : DecoderState) (f : ReplicationFrame) (n : NetID) :
    (st.applyFrame decoders f).baselines n = ((st.afterDepartures decoders f).at n).1 := by
  unfold applyFrame
  split <;> rfl

variable {f : ReplicationFrame}

lemma epochs_applyFrame {x : Epoch} (h : (st.applyFrame decoders f).authorityEpochs n = some x) :
    ((st.afterDepartures decoders f).at n).2 = some x := by
  unfold applyFrame at h
  split at h
  · dsimp only at h
    split at h
    · exact h
    · exact absurd h (by simp)
  · exact h

namespace Carries

variable {f : ReplicationFrame} {es : List (Entry S)}

lemma afterDepartures_of_mem (h : Carries f es) (st : DecoderState) {e : Entry S} (he : e ∈ es) :
    (st.afterDepartures decoders f).at e.netID =
      e.clientEffect decoders (startAt f.fresh (st.at e.netID)) := by
  obtain ⟨hremoved, hexited⟩ := h.stays e he
  unfold afterDepartures
  rw [forget_of_notMem hexited, forget_of_notMem hremoved, h.payloads_of_mem he, at_start]

lemma afterDepartures_of_notMem (h : Carries f es) (st : DecoderState) {n : NetID}
    (hn : n ∉ es.map Entry.netID) :
    (st.afterDepartures decoders f).at n =
      if n ∈ f.removed ∨ n ∈ f.exited then (none, none) else startAt f.fresh (st.at n) := by
  unfold afterDepartures
  by_cases hexited : n ∈ f.exited
  · rw [forget_of_mem hexited, if_pos (.inr hexited)]
  rw [forget_of_notMem hexited]
  by_cases hremoved : n ∈ f.removed
  · rw [forget_of_mem hremoved, if_pos (.inl hremoved)]
  · rw [forget_of_notMem hremoved, h.payloads_of_notMem hn, at_start,
      if_neg (not_or.mpr ⟨hremoved, hexited⟩)]

end Carries

lemma attemptOf_txn : (attemptOf cfg conn i).txn =
    (visibleEntries cfg conn i).filterMap Entry.staged ++
      dropStaged (frameOf cfg conn i).exited ++ dropStaged (frameOf cfg conn i).removed := by
  simp [attemptOf, frameOf, buildFrame_eq, Build.ofEntries]

lemma map_netID_dropStaged (ids : List NetID) : (dropStaged ids).map Staged.netID = ids := by
  simp [dropStaged, Function.comp_def]

lemma Carries.commit_of_mem {es : List (Entry S)} (h : Carries f es) (conn' : ConnState)
    (he : e ∈ es) :
    ((es.filterMap Entry.staged ++ dropStaged f.exited ++ dropStaged f.removed).foldl
      commitStaged conn').at e.netID = e.commitEffect (conn'.at e.netID) := by
  obtain ⟨hremoved, hexited⟩ := h.stays e he
  rw [foldl_append, foldl_append,
    keyed_commitStaged.foldl_of_notMem (by rwa [map_netID_dropStaged]),
    keyed_commitStaged.foldl_of_notMem (by rwa [map_netID_dropStaged]),
    keyed_commitStaged.foldl_filterMap (fun e' he' => (h.own e' he').staged_netID) h.nodup he]
  unfold Entry.commitEffect
  cases e.staged <;> rfl

lemma commit_of_mem (conn' : ConnState) (he : e ∈ visibleEntries cfg conn i) :
    ((attemptOf cfg conn i).txn.foldl commitStaged conn').at e.netID =
      e.commitEffect (conn'.at e.netID) := by
  rw [attemptOf_txn]
  exact carries_frameOf.commit_of_mem conn' he

def retainEffect (s : Staged) (o : Option Baseline × Option UInt64) :
    Option Baseline × Option UInt64 :=
  if s.promoteSnapshot.isSome && !s.drop then (some (o.1.getD {}), o.2) else o

lemma keyed_retainStaged :
    Keyed ConnState.retainStaged Staged.netID ConnState.at retainEffect where
  frame {conn s k} hk := by
    unfold ConnState.retainStaged ConnState.at
    split
    · simp [hk]
    · rfl
  effect {conn s} := by
    unfold ConnState.retainStaged ConnState.at retainEffect
    split <;> simp

lemma Entry.Valid.commitEffect_retainEffect (h : e.Valid cfg conn i) {s : Staged}
    (hs : e.staged = some s) (o : Option Baseline × Option UInt64) :
    e.commitEffect (retainEffect s o) = e.commitEffect o := by
  rcases h.outcome_cases with hout | hout | ⟨w, hout⟩ | hout | ⟨data, hout⟩ <;>
    simp only [Entry.staged, hout, reduceCtorEq, Option.some.injEq] at hs <;>
    subst hs <;> simp [Entry.commitEffect, Entry.staged, hout, retainEffect, stagedEffect,
      stageSnapshot]

lemma commit_retain_of_mem (conn' : ConnState) (he : e ∈ visibleEntries cfg conn i) :
    e.commitEffect (((attemptOf cfg conn i).txn.foldl ConnState.retainStaged conn').at e.netID) =
      e.commitEffect (conn'.at e.netID) := by
  obtain ⟨hnodup, hvalid⟩ := visibleEntries_spec cfg conn i
  have hstays := notMem_departed_of_mem he
  rw [attemptOf_txn, foldl_append, foldl_append,
    keyed_retainStaged.foldl_of_notMem (by rw [map_netID_dropStaged]; exact hstays.1),
    keyed_retainStaged.foldl_of_notMem (by rw [map_netID_dropStaged]; exact hstays.2),
    keyed_retainStaged.foldl_filterMap (fun e' he' s hs => (hvalid e' he').staged_netID hs)
      hnodup he]
  cases hs : e.staged with
  | none => rfl
  | some s => exact (hvalid e he).commitEffect_retainEffect hs _

end Mmokit.Replication
