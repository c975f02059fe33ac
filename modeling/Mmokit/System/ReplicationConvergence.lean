/-
The replication stream converges.

Whenever the client accepts a frame, it shows what the sender saw when it built that frame.
-/
import Mathlib
import Mmokit.System.ReplicationInvariant

namespace Mmokit.Replication

open List Option ConnState

variable {S : Type*} {cfg : ReplicationConfig S} {decoders : UInt8 → Option DeltaEncoder}
  {b : UInt32} {s : Stream} {views : ℕ → View}

variable {k : ℕ} {r : Sent}

lemma Stream.Record.lt_of_before (h : s.Record decoders b views) {j : ℕ} {r' : Sent}
    (hj : s.sent[j]? = some r) (hk : s.sent[k]? = some r') (hlt : Before b r.frame r'.frame) :
    j < k := Replication.lt_of_before h.order hj hk hlt

lemma Stream.Record.eq_of_ids (h : s.Record decoders b views) {j : ℕ} {r' : Sent}
    (hj : s.sent[j]? = some r) (hk : s.sent[k]? = some r')
    (hgen : r.frame.streamEpoch = r'.frame.streamEpoch) (hseq : r.frame.seq = r'.frame.seq) :
    j = k := Replication.eq_of_ids h.order hj hk hgen hseq

lemma Stream.Record.succeeds (h : s.Record decoders b views) {j : ℕ} {r' : Sent}
    (hj : s.sent[j]? = some r) (hk : s.sent[k]? = some r') (hlt : j < k)
    {x y : NetID × Epoch × UInt8} (hx : x ∈ r.seen) (hy : y ∈ r'.seen) : Succeeds x y := by
  obtain ⟨hj', rfl⟩ := List.getElem?_eq_some_iff.mp hj
  obtain ⟨hk', rfl⟩ := List.getElem?_eq_some_iff.mp hk
  exact List.pairwise_iff_getElem.mp h.lifecycles j k hj' hk' hlt x hx y hy

/-- **What the client finds when it accepts a frame**: the frame is later than all it accepted, the
fence is open for it, and if the frame is not fresh the client shows the view it builds upon. -/
lemma Stream.Inv.accept (h : s.Inv cfg decoders b views) (hk : s.sent[k]? = some r)
    {st : DecoderState} (hst : s.client.acceptFrame r.frame.streamEpoch r.frame.seq = some st) :
    (∀ j, s.HasAccepted j → j < k) ∧ st.Fences r.frame ∧
      st.authorityEpochs = s.client.authorityEpochs ∧
      (r.frame.fresh = false → ∀ j, j + 1 = k → st.baselines = views j) := by
  cases hacc : s.accepted with
  | none =>
    obtain ⟨hnone, -, -⟩ := h.client.nothing hacc
    obtain ⟨hfences, hepochs, -⟩ := acceptFrame_first hnone hst
    have hno : ∀ j, ¬ s.HasAccepted j := by
      rintro j ⟨a, ha, -⟩
      exact absurd (hacc.symm.trans ha) (by simp)
    refine ⟨fun j hj => absurd hj (hno j), hfences, hepochs, fun hfresh j _ => ?_⟩
    obtain ⟨j', -, -, -, -, hj'⟩ := (h.record.frames k r hk).base hfresh
    exact absurd hj' (hno j')
  | some a =>
    obtain ⟨ra, ha, hfences, hview⟩ := h.client.accepted a hacc
    obtain ⟨hlt, hfences', hepochs, hkeep⟩ := acceptFrame_spec hfences
      (h.record.comparable ra (mem_of_getElem? ha))
      (h.record.comparable r (mem_of_getElem? hk)) hst
    have hak : a < k := h.record.lt_of_before ha hk hlt
    refine ⟨?_, hfences', hepochs, fun hfresh j hj => ?_⟩
    · rintro j ⟨a', ha', hle⟩
      obtain rfl : a = a' := some.inj (hacc.symm.trans ha')
      omega
    -- the frame follows one that was accepted, so that one was accepted last
    obtain ⟨j', rj, hj', hrj, hgen, a', ha', hle⟩ := (h.record.frames k r hk).base hfresh
    obtain rfl : a = a' := some.inj (hacc.symm.trans ha')
    obtain rfl : j' = a := by omega
    obtain rfl : j = j' := by omega
    obtain rfl : rj = ra := some.inj (hrj.symm.trans ha)
    rw [hkeep hgen.symm, hview]

variable {t : Stream}

lemma Stream.Record.client_mono (h : s.Record decoders b views) (hsent : t.sent = s.sent)
    (hmono : ∀ j, s.HasAccepted j → t.HasAccepted j) :
    t.Record decoders b views where
  comparable := hsent ▸ h.comparable
  order := hsent ▸ h.order
  lifecycles := hsent ▸ h.lifecycles
  frames k r hk := by
    rw [hsent] at hk
    have hframe := h.frames k r hk
    refine ⟨fun hfresh => ?_, hframe.decode, hframe.fence, hsent ▸ hframe.shows⟩
    obtain ⟨j, rj, hj, hrj, hgen, hacc⟩ := hframe.base hfresh
    exact ⟨j, rj, hj, hsent ▸ hrj, hgen, hmono j hacc⟩

lemma Stream.SenderInv.client_mono (h : s.SenderInv cfg b views) (hconn : t.conn = s.conn)
    (hsent : t.sent = s.sent) (hmono : ∀ j, s.HasAccepted j → t.HasAccepted j) :
    t.SenderInv cfg b views := by
  have hsync : ∀ conn j, s.SyncedAt cfg views conn j → t.SyncedAt cfg views conn j := by
    intro conn j hsync
    unfold Stream.SyncedAt
    rw [hsent]
    exact hsync
  refine ⟨hconn ▸ h.window, hconn ▸ h.start, hconn ▸ hsent ▸ h.bounded, ?_, ?_⟩
  · rw [hconn, hsent]
    intro hpending hforce hvisible
    obtain ⟨j, hj, hacc, hs⟩ := h.committed hpending hforce hvisible
    exact ⟨j, hj, hmono j hacc, hsync _ _ hs⟩
  · rw [hconn, hsent]
    intro p hp
    obtain ⟨j, r, hj, hr, hgen, hseq, hs⟩ := h.pending p hp
    exact ⟨j, r, hj, hr, hgen, hseq, hsync _ _ hs⟩

lemma Stream.Inv.deliver (h : s.Inv cfg decoders b views) (hk : s.sent[k]? = some r)
    {client : DecoderState} (hclient : s.client.decodeFrame decoders r.frame = some client) :
    { s with
      client := client
      acks := s.acks ++ [(r.frame.streamEpoch, r.frame.seq)]
      accepted := some k }.Inv cfg decoders b views := by
  obtain ⟨st, hst, rfl⟩ := map_eq_some_iff.mp hclient
  obtain ⟨hlater, hfences, hepochs, hview⟩ := h.accept hk hst
  have hframe := h.record.frames k r hk
  have hmono : ∀ j, s.HasAccepted j → ∃ a, some k = some a ∧ j ≤ a :=
    fun j hj => ⟨k, rfl, (hlater j hj).le⟩
  refine ⟨h.record.client_mono rfl hmono, ⟨by simp, ?_, ?_, ?_⟩, h.sender.client_mono rfl rfl hmono⟩
  · -- the view: the fence is open since no authority goes back
    intro k' hk'
    obtain rfl : k = k' := some.inj hk'
    refine ⟨r, hk, hfences.applyFrame, hframe.decode st (fun x hx highest hhighest => ?_) hview⟩
    rw [hepochs] at hhighest
    obtain ⟨j, rj, kind, hacc, hj, hseen⟩ := h.client.fence x.1 highest hhighest
    rcases h.record.succeeds hj hk (hlater j hacc) hseen hx rfl with heq | hafter
    · exact .inl (congrArg Prod.fst heq).symm
    · exact .inr hafter
  · -- the fence
    intro n x hx
    rcases hframe.fence st n x hx with hold | ⟨kind, hseen⟩
    · rw [hepochs] at hold
      obtain ⟨j, rj, kind, hacc, hj, hseen⟩ := h.client.fence n x hold
      exact ⟨j, rj, kind, hmono j hacc, hj, hseen⟩
    · exact ⟨k, r, kind, ⟨k, rfl, le_rfl⟩, hk, hseen⟩
  · -- the acknowledgements
    intro a ha
    rcases mem_append.mp ha with ha | ha
    · obtain ⟨j, rj, hacc, hj, heq⟩ := h.client.acks a ha
      exact ⟨j, rj, hmono j hacc, hj, heq⟩
    · exact ⟨k, r, ⟨k, rfl, le_rfl⟩, hk, mem_singleton.mp ha⟩

variable {conn : ConnState}

lemma Stream.Inv.of_sender (h : s.Inv cfg decoders b views)
    (hsender : { s with conn := conn }.SenderInv cfg b views) :
    { s with conn := conn }.Inv cfg decoders b views :=
  ⟨h.record.client_mono rfl fun _ hj => hj,
    ⟨h.client.nothing, h.client.accepted, h.client.fence, h.client.acks⟩, hsender⟩

lemma Stream.Inv.ack (h : s.Inv cfg decoders b views) {a : UInt32 × UInt32} (ha : a ∈ s.acks) :
    { s with conn := s.conn.ackFrame a.1 a.2 }.Inv cfg decoders b views := by
  refine h.of_sender ?_
  unfold ackFrame
  cases hp : s.conn.pending with
  | none => exact h.sender
  | some p =>
    dsimp only
    split
    · exact h.sender
    rename_i hids
    rw [not_or, not_not, not_not] at hids
    obtain ⟨j, r, hj, hr, hgen, hseq, hsync⟩ := h.sender.pending p hp
    obtain ⟨j', r', hacc, hr', hack⟩ := h.client.acks a ha
    obtain rfl : j = j' := h.record.eq_of_ids hr hr'
      (hgen.trans (hids.1.trans (congrArg Prod.fst hack)))
      (hseq.trans (hids.2.trans (congrArg Prod.snd hack)))
    obtain ⟨-, -, hnone, hepoch, hnext, hexplicit⟩ := commitPendingAttempt_spec hp
    refine ⟨?_, fun hfalse => ?_, ?_, fun _ _ _ => ⟨j, hj, hacc, hsync⟩, fun q hq => ?_⟩
    · simp only [hexplicit, hepoch]
      exact h.sender.window
    · have := (h.sender.start (hexplicit.symm.trans hfalse)).2.1
      exact absurd (hp.symm.trans this) (by simp)
    · simp only [hexplicit, hepoch, hnext]
      exact h.sender.bounded
    · exact absurd (hnone.symm.trans hq) (by simp)

lemma Entry.Valid.clientEffect_snd {i : TickInput S} {e : Entry S} (h : e.Valid cfg conn i)
    {o : Option BaselineEntry × Option Epoch} {x : Epoch}
    (hx : (e.clientEffect decoders o).2 = some x) : o.2 = some x ∨ x = e.candidate.epoch := by
  rcases h.outcome_cases with hout | hout | ⟨w, hout⟩ | hout | ⟨data, hout⟩ <;>
    simp only [Entry.clientEffect, hout] at hx
  · exact .inl hx
  · exact .inl hx
  · unfold fullEffect at hx
    cases ho : o.2 with
    | none =>
      simp only [ho, some.injEq] at hx
      exact .inr hx.symm
    | some highest =>
      simp only [ho] at hx
      split at hx
      · exact .inl (ho ▸ hx)
      · split at hx
        · exact .inr (some.inj hx).symm
        · exact .inl hx
  · exact .inl hx
  · unfold deltaEffect at hx
    cases ho : o.1 with
    | none => exact .inl (by simpa [ho] using hx)
    | some bl =>
      simp only [ho] at hx
      split at hx
      · exact .inl hx
      · cases hd : decoders e.candidate.kind with
        | none => exact .inl (by simpa [hd] using hx)
        | some encoder => exact .inl (by simpa [hd] using hx)

lemma startAt_snd (fresh : Bool) (o : Option BaselineEntry × Option Epoch) :
    (startAt fresh o).2 = o.2 := by
  cases fresh <;> rfl

section Tick

variable {conn : ConnState} {i : TickInput S}

lemma awaitPending_cases (cfg : ReplicationConfig S) (conn : ConnState) (i : TickInput S) :
    (conn.pending = none ∧ awaitPending cfg conn i = (conn, true)) ∨
      ∃ p ids, conn.pending = some p ∧
        (awaitPending cfg conn i = ((conn.markRemoved ids).discardPendingAttempt, true) ∨
          awaitPending cfg conn i = (conn.markRemoved ids, false)) := by
  unfold awaitPending
  cases hp : conn.pending with
  | none => exact .inl ⟨rfl, rfl⟩
  | some p =>
    refine .inr ⟨p, i.removedIDs.filter fun n => conn.wasVisible n || p.visible.contains n,
      rfl, ?_⟩
    dsimp only
    split
    · exact .inl rfl
    · exact .inr rfl

lemma discardPendingAttempt_pending (conn : ConnState) :
    conn.discardPendingAttempt.pending = none := by
  cases hp : conn.pending <;> simp [discardPendingAttempt, hp]

lemma discardPendingAttempt_hasExplicitGeneration (conn : ConnState) :
    conn.discardPendingAttempt.hasExplicitGeneration = conn.hasExplicitGeneration := by
  cases hp : conn.pending <;> simp [discardPendingAttempt, hp, markRemoved]

lemma Stream.SenderInv.building (h : s.SenderInv cfg b views)
    (hwindow : Serial.InWindow b i.generation) (hconn : buildingConn cfg s.conn i = some conn) :
    { s with conn := conn }.SenderInv cfg b views ∧ conn.pending = none ∧
      conn.hasExplicitGeneration = true ∧ (update cfg s.conn i).1 = afterWrite cfg conn i := by
  obtain ⟨hresolved, hexplicit⟩ := h.resolveStreamGeneration hwindow
  unfold buildingConn at hconn
  unfold update
  rcases awaitPending_cases cfg (s.conn.resolveStreamGeneration i.generation) i with
    ⟨hnone, hawait⟩ | ⟨p, ids, -, hawait | hawait⟩ <;>
    simp only [hawait, if_true, Bool.false_eq_true, if_false, some.injEq, reduceCtorEq]
      at hconn ⊢ <;> subst hconn
  · exact ⟨hresolved, hnone, hexplicit, rfl⟩
  · exact ⟨(hresolved.markRemoved ids).discard, discardPendingAttempt_pending _,
      (discardPendingAttempt_hasExplicitGeneration _).trans hexplicit, rfl⟩

lemma Stream.SenderInv.waiting (h : s.SenderInv cfg b views)
    (hwindow : Serial.InWindow b i.generation) (hconn : buildingConn cfg s.conn i = none) :
    { s with conn := (update cfg s.conn i).1 }.SenderInv cfg b views := by
  obtain ⟨hresolved, -⟩ := h.resolveStreamGeneration hwindow
  unfold buildingConn at hconn
  unfold update
  rcases awaitPending_cases cfg (s.conn.resolveStreamGeneration i.generation) i with
    ⟨-, hawait⟩ | ⟨p, ids, -, hawait | hawait⟩ <;>
    simp only [hawait, if_true, Bool.false_eq_true, if_false, reduceCtorEq] at hconn ⊢
  exact hresolved.markRemoved ids

lemma Stream.SenderInv.of_fresh_eq_false (h : { s with conn := conn }.SenderInv cfg b views)
    (hpending : conn.pending = none) (hfresh : (frameOf cfg conn i).fresh = false) :
    ∃ j, j + 1 = s.sent.length ∧ s.HasAccepted j ∧ s.SyncedAt cfg views conn j := by
  simp only [frameOf, Bool.or_eq_false_iff] at hfresh
  refine h.committed hpending hfresh.1 fun hnone => ?_
  change conn.lastVisible = none at hnone
  simp [hnone] at hfresh

variable {e : Entry S}

lemma mem_seen (he : e ∈ visibleEntries cfg conn i) :
    (e.netID, e.candidate.epoch, e.candidate.kind) ∈ (sentOf cfg conn i).seen :=
  mem_map_of_mem he

lemma sentOf_seq (hseq : conn.nextSeq.toNat + 1 < 0x80000000) :
    (sentOf cfg conn i).frame.seq.toNat = conn.nextSeq.toNat + 1 := by
  change (conn.nextSeq + 1).toNat = _
  rw [UInt32.toNat_add]
  simp only [UInt32.toNat_one]
  omega

def newView (cfg : ReplicationConfig S) (decoders : UInt8 → Option DeltaEncoder) (s : Stream)
    (views : ℕ → View) (conn : ConnState) (i : TickInput S) : View :=
  nextView cfg decoders conn i
    (baseView (frameOf cfg conn i).fresh (views (s.sent.length - 1)))

lemma Stream.SenderInv.newView_sound (hhash : CollisionFree cfg)
    (hlayout : SameLayouts cfg decoders) (h : { s with conn := conn }.SenderInv cfg b views)
    (hpending : conn.pending = none) (hlife : Continues s.sent (sentOf cfg conn i))
    (he : e ∈ visibleEntries cfg conn i) :
    ∃ entry bl, newView cfg decoders s views conn i e.netID = some entry ∧
      entry.authorityEpoch = e.candidate.epoch ∧ entry.entityType = e.candidate.kind ∧
      Agrees cfg (e.commitEffect (conn.at e.netID)) entry bl e.rep ∧
      (e.outcome ≠ .held → entry.snapshot = e.snapshot) := by
  refine frame_sound hhash hlayout (fun hforce e' he' hvisible => ?_) he
  obtain ⟨j, hj, -, r, hr, -, hlast, hentries⟩ :=
    h.of_fresh_eq_false (i := i) hpending (fresh_eq_false hforce hvisible)
  obtain rfl : j = s.sent.length - 1 := by omega
  have hmem : e'.netID ∈ r.visible := by
    simpa [wasVisible, hlast] using hvisible
  obtain ⟨entry, bl, rep, hview, hseen, hagrees⟩ := hentries e'.netID hmem
  refine ⟨entry, bl, rep, hview, hagrees, fun hepoch => ?_⟩
  rcases hlife r (mem_of_getElem? hr) _ hseen _ (mem_seen he') rfl with heq | hafter
  · exact congrArg Prod.snd heq
  · -- the authority is the same, so it is not a later one
    simp [hepoch, Serial.After] at hafter

lemma lookup_snapshots (he : e ∈ visibleEntries cfg conn i) :
    (sentOf cfg conn i).snapshots.lookup e.netID = some e.snapshot := by
  obtain ⟨hnodup, -⟩ := visibleEntries_spec cfg conn i
  have hlist (es : List (Entry S)) (hnodup : (es.map Entry.netID).Nodup) (he : e ∈ es) :
      (es.map fun e => (e.netID, e.snapshot)).lookup e.netID = some e.snapshot := by
    induction es with
    | nil => exact absurd he not_mem_nil
    | cons x es ih =>
      rw [map_cons, nodup_cons] at hnodup
      rcases mem_cons.mp he with rfl | he
      · simp
      have hne : (e.netID == x.netID) = false := by
        rw [beq_eq_false_iff_ne]
        exact fun heq => hnodup.1 (heq ▸ mem_map_of_mem he)
      simp [lookup_cons, hne, ih hnodup.2 he]
  exact hlist _ hnodup he

variable {conn' : ConnState} {views' : ℕ → View}

lemma Stream.Inv.newFrame (hhash : CollisionFree cfg) (hlayout : SameLayouts cfg decoders)
    (hrecord : s.Record decoders b views) (h : { s with conn := conn }.SenderInv cfg b views)
    (hpending : conn.pending = none) (hlife : Continues s.sent (sentOf cfg conn i))
    (hnew : views' s.sent.length = newView cfg decoders s views conn i)
    (hold : ∀ k < s.sent.length, views' k = views k) :
    { s with conn := conn', sent := s.sent ++ [sentOf cfg conn i] }.FrameInv decoders views'
      s.sent.length (sentOf cfg conn i) where
  base hfresh := by
    obtain ⟨j, hj, hacc, r, hr, hgen, -⟩ := h.of_fresh_eq_false hpending hfresh
    exact ⟨j, r, hj, by rw [getElem?_append_left (by omega)]; exact hr, hgen, hacc⟩
  decode st hfence hbase := by
    have hopen : FenceOpen cfg conn i st := fun e he => hfence _ (mem_seen he)
    rw [hnew]
    refine (applyFrame_eq_nextView hopen).trans ?_
    unfold newView
    cases hfresh : (frameOf cfg conn i).fresh with
    | true => rfl
    | false =>
      obtain ⟨j, hj, -⟩ := h.of_fresh_eq_false hpending hfresh
      obtain rfl : j = s.sent.length - 1 := by omega
      rw [hbase hfresh _ hj, hold _ (by omega)]
  fence st n x hx := by
    have hat : ((st.afterDepartures decoders (frameOf cfg conn i)).at n).2 = some x :=
      epochs_applyFrame hx
    by_cases hn : n ∈ visibleOf cfg conn i
    · obtain ⟨e, he, rfl⟩ := mem_visibleOf.mp hn
      rw [carries_frameOf.afterDepartures_of_mem st he] at hat
      rcases (visibleEntries_spec cfg conn i).2 e he |>.clientEffect_snd hat with hold | rfl
      · exact .inl (by rwa [startAt_snd] at hold)
      · exact .inr ⟨e.candidate.kind, mem_seen he⟩
    · rw [carries_frameOf.afterDepartures_of_notMem st hn] at hat
      split at hat
      · exact absurd hat (by simp)
      · exact .inl (by rwa [startAt_snd] at hat)
  shows := by
    rw [hnew]
    refine ⟨fun n hn hheld => ?_, fun n entry hentry => ?_⟩
    · -- visible entities
      obtain ⟨e, he, rfl⟩ := mem_map.mp hn
      obtain ⟨entry, bl, hview, -, -, -, hsnap⟩ :=
        h.newView_sound hhash hlayout hpending hlife he
      have hout : e.outcome ≠ .held := fun hout =>
        hheld (mem_map_of_mem (mem_filter.mpr ⟨he, by simpa using hout⟩))
      exact ⟨entry, hview, by rw [lookup_snapshots he, hsnap hout]⟩
    · -- entities that are out of sight: the viewer's own, now or in an earlier frame
      by_cases hn : n ∈ visibleOf cfg conn i
      · exact .inl hn
      obtain ⟨hfresh, hbase, hwas | hself⟩ := nextView_eq_some_of_notMem hn hentry
      · obtain ⟨j, hj, -, r, hr, hgen, hlast, -⟩ := h.of_fresh_eq_false hpending hfresh
        obtain rfl : j = s.sent.length - 1 := by omega
        have hnot : n ∉ r.visible := by
          simpa [wasVisible, hlast] using hwas
        rcases (hrecord.frames _ r hr).shows.former n entry hbase with hmem | ⟨r', hr', hgen', hown⟩
        · exact absurd hmem hnot
        · exact .inr ⟨r', mem_append_left _ hr', hgen'.trans hgen, hown⟩
      · exact .inr ⟨sentOf cfg conn i, by simp, rfl, hself.symm, hn⟩

variable {new : Sent}

lemma Stream.FrameInv.append {k : ℕ} {r : Sent} (h : s.FrameInv decoders views k r)
    (hk : k < s.sent.length) (hold : ∀ k < s.sent.length, views' k = views k) :
    { s with conn := conn', sent := s.sent ++ [new] }.FrameInv decoders views' k r where
  base hfresh := by
    obtain ⟨j, rj, hj, hrj, hgen, hacc⟩ := h.base hfresh
    exact ⟨j, rj, hj, by rw [getElem?_append_left (by omega)]; exact hrj, hgen, hacc⟩
  decode st hfence hbase := by
    rw [hold k hk]
    refine h.decode st hfence fun hfresh j hj => ?_
    rw [hbase hfresh j hj, hold j (by omega)]
  fence := h.fence
  shows := by
    rw [hold k hk]
    refine ⟨h.shows.present, fun n entry hentry => ?_⟩
    rcases h.shows.former n entry hentry with hmem | ⟨r', hr', hown⟩
    · exact .inl hmem
    · exact .inr ⟨r', mem_append_left _ hr', hown⟩

lemma Stream.ClientInv.append (h : s.ClientInv views)
    (hold : ∀ k < s.sent.length, views' k = views k) :
    { s with conn := conn', sent := s.sent ++ [new] }.ClientInv views' := by
  have hmem {k : ℕ} {r : Sent} (hk : s.sent[k]? = some r) :
      k < s.sent.length ∧ (s.sent ++ [new])[k]? = some r := by
    obtain ⟨hlt, -⟩ := List.getElem?_eq_some_iff.mp hk
    exact ⟨hlt, by rw [List.getElem?_append_left hlt, hk]⟩
  refine ⟨h.nothing, fun k hk => ?_, fun n x hx => ?_, fun a ha => ?_⟩
  · obtain ⟨r, hr, hfences, hview⟩ := h.accepted k hk
    exact ⟨r, (hmem hr).2, hfences, by rw [hold k (hmem hr).1]; exact hview⟩
  · obtain ⟨j, r, kind, hacc, hr, hseen⟩ := h.fence n x hx
    exact ⟨j, r, kind, hacc, (hmem hr).2, hseen⟩
  · obtain ⟨j, r, hacc, hr, heq⟩ := h.acks a ha
    exact ⟨j, r, hacc, (hmem hr).2, heq⟩

lemma Stream.Record.append (hhash : CollisionFree cfg) (hlayout : SameLayouts cfg decoders)
    (hrecord : s.Record decoders b views) (h : { s with conn := conn }.SenderInv cfg b views)
    (hpending : conn.pending = none) (hexplicit : conn.hasExplicitGeneration = true)
    (hseq : conn.nextSeq.toNat + 1 < 0x80000000) (hlife : Continues s.sent (sentOf cfg conn i))
    (hnew : views' s.sent.length = newView cfg decoders s views conn i)
    (hold : ∀ k < s.sent.length, views' k = views k) :
    { s with conn := conn', sent := s.sent ++ [sentOf cfg conn i] }.Record
      decoders b views' where
  comparable r hr := by
    rcases mem_append.mp hr with hr | hr
    · exact hrecord.comparable r hr
    · obtain rfl := mem_singleton.mp hr
      exact ⟨h.window hexplicit, by rw [sentOf_seq hseq]; exact hseq⟩
  order := by
    refine pairwise_append.mpr ⟨hrecord.order, pairwise_singleton _ _, ?_⟩
    intro r hr r' hr'
    obtain rfl := mem_singleton.mp hr'
    rcases (h.bounded r hr).2 with hlt | ⟨hgen, hle⟩
    · exact .inl hlt
    · exact .inr ⟨hgen, by rw [sentOf_seq hseq]; exact Nat.lt_succ_of_le hle⟩
  lifecycles := by
    refine pairwise_append.mpr ⟨hrecord.lifecycles, pairwise_singleton _ _, ?_⟩
    intro r hr r' hr'
    obtain rfl := mem_singleton.mp hr'
    exact hlife r hr
  frames k r hk := by
    rcases Nat.lt_or_ge k s.sent.length with hlt | hge
    · rw [List.getElem?_append_left hlt] at hk
      exact (hrecord.frames k r hk).append hlt hold
    obtain ⟨hlt, -⟩ := List.getElem?_eq_some_iff.mp hk
    rw [List.length_append, List.length_singleton] at hlt
    obtain rfl : k = s.sent.length := by omega
    rw [getElem?_concat_length] at hk
    cases hk
    exact Stream.Inv.newFrame hhash hlayout hrecord h hpending hlife hnew hold

lemma foldl_retainStaged_eq (conn : ConnState) (txn : List Staged) :
    ∃ baselines, txn.foldl retainStaged conn = { conn with baselines := baselines } := by
  induction txn generalizing conn with
  | nil => exact ⟨_, rfl⟩
  | cons x txn ih =>
    have hx : ∃ baselines, conn.retainStaged x = { conn with baselines := baselines } := by
      unfold retainStaged
      split <;> exact ⟨_, rfl⟩
    obtain ⟨bs, hx⟩ := hx
    obtain ⟨bs', htail⟩ := ih (conn.retainStaged x)
    exact ⟨bs', by rw [foldl_cons, htail, hx]⟩

lemma Stream.SenderInv.bounded_append (h : { s with conn := conn }.SenderInv cfg b views)
    (hseq : conn.nextSeq.toNat + 1 < 0x80000000) {r : Sent}
    (hr : r ∈ s.sent ++ [sentOf cfg conn i]) :
    Serial.offset b r.frame.streamEpoch < Serial.offset b conn.streamEpoch ∨
      r.frame.streamEpoch = conn.streamEpoch ∧
        r.frame.seq.toNat ≤ (sentOf cfg conn i).frame.seq.toNat := by
  rcases mem_append.mp hr with hr | hr
  · rw [sentOf_seq hseq]
    exact (h.bounded r hr).2.imp_right fun ⟨hgen, hle⟩ => ⟨hgen, Nat.le_succ_of_le hle⟩
  · obtain rfl := mem_singleton.mp hr
    exact .inr ⟨rfl, le_rfl⟩

lemma Stream.SenderInv.queued (hhash : CollisionFree cfg) (hlayout : SameLayouts cfg decoders)
    (h : { s with conn := conn }.SenderInv cfg b views) (hpending : conn.pending = none)
    (hexplicit : conn.hasExplicitGeneration = true) (hseq : conn.nextSeq.toNat + 1 < 0x80000000)
    (hlife : Continues s.sent (sentOf cfg conn i))
    (hnew : views' s.sent.length = newView cfg decoders s views conn i)
    (hqueued : i.disposition = .queued) :
    { s with conn := afterWrite cfg conn i, sent := s.sent ++ [sentOf cfg conn i] }.SenderInv
      cfg b views' := by
  obtain ⟨bs, hfold⟩ := foldl_retainStaged_eq
    { conn with nextSeq := (frameOf cfg conn i).seq } (attemptOf cfg conn i).txn
  have hwrite : afterWrite cfg conn i =
      { (((attemptOf cfg conn i).txn.foldl retainStaged
        { conn with nextSeq := (frameOf cfg conn i).seq }).markRemoved
          (frameOf cfg conn i).removed) with pending := some (attemptOf cfg conn i) } := by
    simp [afterWrite, hqueued]
  have hwritten : (afterWrite cfg conn i).pending = some (attemptOf cfg conn i) := by
    rw [hwrite]
  have hepoch : (afterWrite cfg conn i).streamEpoch = conn.streamEpoch := by
    rw [hwrite, hfold]
    rfl
  have hgen : (afterWrite cfg conn i).hasExplicitGeneration = true := by
    rw [hwrite, hfold]
    exact hexplicit
  have hnext : (afterWrite cfg conn i).nextSeq = (sentOf cfg conn i).frame.seq := by
    rw [hwrite, hfold]
    rfl
  refine ⟨fun _ => ?_, fun hfalse => ?_, fun r hr => ?_, fun hnone => ?_, fun p hp => ?_⟩
  · exact hepoch ▸ h.window hexplicit
  · exact absurd (hgen.symm.trans hfalse) (by simp)
  · refine ⟨hgen, ?_⟩
    rw [hepoch, hnext]
    exact h.bounded_append hseq hr
  · exact absurd (hwritten.symm.trans hnone) (by simp)
  obtain rfl := some.inj (hwritten.symm.trans hp)
  obtain ⟨hat, hvisible, -, hcommitted, -⟩ := commitPendingAttempt_spec hwritten
  refine ⟨s.sent.length, sentOf cfg conn i, by simp, getElem?_concat_length, rfl, rfl,
    sentOf cfg conn i, getElem?_concat_length, (hcommitted.trans hepoch).symm, ?_, ?_⟩
  · rw [hvisible]
    simp [attemptOf, sentOf, buildFrame_eq, Build.ofEntries]
  intro n hn
  obtain ⟨e, he, rfl⟩ := mem_map.mp hn
  obtain ⟨entry, bl, hview, hauthority, hkind, hagrees, -⟩ :=
    h.newView_sound hhash hlayout hpending hlife he
  refine ⟨entry, bl, e.rep, by rw [hnew, hview], ?_, ?_⟩
  · rw [hauthority, hkind]
    exact mem_seen he
  have hstore : (afterWrite cfg conn i).at e.netID =
      ((attemptOf cfg conn i).txn.foldl retainStaged
        { conn with nextSeq := (frameOf cfg conn i).seq }).at e.netID := by
    rw [hwrite]
    rfl
  rw [hat, commit_of_mem _ he, hstore, commit_retain_of_mem _ he]
  exact hagrees

/-- A frame that may or may not have been sent is not awaited: the next one starts afresh. -/
lemma Stream.SenderInv.indeterminate (h : { s with conn := conn }.SenderInv cfg b views)
    (hpending : conn.pending = none) (hexplicit : conn.hasExplicitGeneration = true)
    (hseq : conn.nextSeq.toNat + 1 < 0x80000000) (hindeterminate : i.disposition = .indeterminate) :
    { s with conn := afterWrite cfg conn i, sent := s.sent ++ [sentOf cfg conn i] }.SenderInv
      cfg b views' := by
  have hwrite : afterWrite cfg conn i =
      { { conn with nextSeq := (frameOf cfg conn i).seq }.markRemoved
          (frameOf cfg conn i).removed with forceFresh := true } := by
    simp [afterWrite, hindeterminate]
  rw [hwrite]
  refine ⟨fun _ => h.window hexplicit, fun hfalse => ?_, fun r hr => ⟨hexplicit, ?_⟩,
    fun _ hforce => absurd hforce (by simp), fun p hp => ?_⟩
  · exact absurd (hexplicit.symm.trans hfalse) (by simp)
  · exact h.bounded_append hseq hr
  · exact absurd (hpending.symm.trans hp) (by simp)

lemma Stream.SenderInv.refused (h : { s with conn := conn }.SenderInv cfg b views)
    (hpending : conn.pending = none) (hexplicit : conn.hasExplicitGeneration = true)
    (hseq : conn.nextSeq.toNat + 1 < 0x80000000) (hrefused : i.disposition.mayArrive = false) :
    { s with conn := afterWrite cfg conn i }.SenderInv cfg b views := by
  have hwrite : afterWrite cfg conn i =
      { conn with nextSeq := (frameOf cfg conn i).seq }.markRemoved
        (frameOf cfg conn i).removed := by
    cases hd : i.disposition <;> simp [hd, SendDisposition.mayArrive] at hrefused <;>
      simp [afterWrite, hd]
  rw [hwrite]
  refine ⟨fun _ => h.window hexplicit, fun hfalse => ?_, fun r hr => ⟨hexplicit, ?_⟩,
    fun _ hforce hvisible => ?_, fun p hp => ?_⟩
  · exact absurd (hexplicit.symm.trans hfalse) (by simp)
  · exact h.bounded_append (i := i) hseq (mem_append_left _ hr)
  · obtain ⟨j, hj, hacc, hsync⟩ := h.committed hpending hforce hvisible
    exact ⟨j, hj, hacc, hsync.congr (fun _ => rfl) rfl rfl⟩
  · exact absurd (hpending.symm.trans hp) (by simp)

lemma Stream.Inv.tick (hhash : CollisionFree cfg) (hlayout : SameLayouts cfg decoders)
    (h : s.Inv cfg decoders b views) (hK : Orderly cfg b s (.tick i)) {t : Stream}
    (hstep : step cfg decoders s (.tick i) = some t) :
    ∃ views', t.Inv cfg decoders b views' := by
  obtain ⟨hwindow, hbuilding⟩ := hK
  simp only [step] at hstep
  cases hconn : buildingConn cfg s.conn i with
  | none =>
    -- nothing is built while a frame is awaited
    simp only [hconn, some.injEq] at hstep
    subst hstep
    exact ⟨views, h.of_sender (h.sender.waiting hwindow hconn)⟩
  | some conn =>
    obtain ⟨hseq, hlife⟩ := hbuilding conn hconn
    obtain ⟨hsender, hpending, hexplicit, hupdate⟩ := h.sender.building hwindow hconn
    simp only [hconn, hupdate, some.injEq] at hstep
    subst hstep
    split
    · rename_i harrive
      have hnew := Function.update_self s.sent.length
        (newView cfg decoders s views conn i) views
      have hold : ∀ k < s.sent.length, Function.update views s.sent.length
          (newView cfg decoders s views conn i) k = views k :=
        fun k hk => Function.update_of_ne (Nat.ne_of_lt hk) _ _
      refine ⟨_, h.record.append hhash hlayout hsender hpending hexplicit hseq hlife hnew hold,
        h.client.append hold, ?_⟩
      cases hd : i.disposition <;> simp only [hd, SendDisposition.mayArrive, Bool.false_eq_true]
        at harrive
      · exact hsender.queued hhash hlayout hpending hexplicit hseq hlife hnew hd
      · exact hsender.indeterminate hpending hexplicit hseq hd
    · rename_i hrefused
      exact ⟨views, h.of_sender
        (hsender.refused hpending hexplicit hseq (by simpa using hrefused))⟩

end Tick

lemma Stream.inv_initial (cfg : ReplicationConfig S) (decoders : UInt8 → Option DeltaEncoder)
    (b : UInt32) : ({} : Stream).Inv cfg decoders b fun _ _ => none := by
  refine ⟨⟨by simp, List.Pairwise.nil, List.Pairwise.nil, by simp⟩,
    ⟨by simp, by simp, by simp, by simp⟩, ⟨by simp, by simp, by simp, by simp, by simp⟩⟩

lemma Stream.Inv.step (hhash : CollisionFree cfg) (hlayout : SameLayouts cfg decoders)
    (h : s.Inv cfg decoders b views) {a : Action S} (hK : Orderly cfg b s a)
    (hstep : Steps (step cfg decoders) s a t) : ∃ views', t.Inv cfg decoders b views' := by
  cases a with
  | tick i => exact h.tick hhash hlayout hK hstep
  | omitViewer =>
    cases hstep
    exact ⟨views, h.of_sender h.sender.omitViewer⟩
  | receipt streamEpoch seq disposition =>
    cases hstep
    exact ⟨views, h.of_sender (h.sender.drainFrameReceipt streamEpoch seq disposition)⟩
  | deliver k =>
    obtain ⟨r, hr, hstep⟩ := bind_eq_some_iff.mp hstep
    cases hclient : s.client.decodeFrame decoders r.frame with
    | none =>
      simp only [hclient, some.injEq] at hstep
      exact ⟨views, hstep ▸ h⟩
    | some client =>
      simp only [hclient, some.injEq] at hstep
      exact ⟨views, hstep ▸ h.deliver hr hclient⟩
  | ack k =>
    obtain ⟨a, ha, hstep⟩ := bind_eq_some_iff.mp hstep
    cases hstep
    exact ⟨views, h.ack (mem_of_getElem? ha)⟩

instance (x y : NetID × Epoch × UInt8) : Decidable (Succeeds x y) :=
  inferInstanceAs (Decidable (_ → _))

/-- Decide a property of all members of a list, by going through the list. -/
abbrev decideAll {α : Type*} (l : List α) (p : α → Prop) (h : DecidablePred p) :
    Decidable (∀ a ∈ l, p a) := decidableBAll p l

instance (sent : List Sent) (new : Sent) : Decidable (Continues sent new) :=
  decideAll sent _ fun r => decideAll r.seen _ fun _ => decideAll new.seen _ fun _ => inferInstance

instance Orderly.decide (cfg : ReplicationConfig S) (b : UInt32) (s : Stream) (a) :
    Decidable (Orderly cfg b s a) := by
  cases a <;> dsimp only [Orderly] <;> infer_instance

end Mmokit.Replication
