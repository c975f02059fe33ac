/-
What each operation of a cell does to the authority over one netID.

Here every operation of the cell gets one lemma, which gives its effect on the view and shows that
it keeps `Cell.Sane`: the stage is coherent at `n`, and queues, offers and messages carry the
identifiers of the entities that they are about. The one assumption on the run is that no promotion
of `n` is carried out where `n` is already live.
-/
import Mmokit.Universe.HandoffView
import Mmokit.Universe.StageHandoff

namespace Mmokit

open List Stage AList HandoffDriver

variable {M : Type*}

namespace Stage

variable {b b' : Stage M} {n m : NetID} {e : Epoch}

lemma ledger_of_record (h : b'.record = b.record) : b'.ledger n = b.ledger n := by
  simp only [record, Prod.mk.injEq] at h
  obtain ⟨hacc, hlog, -⟩ := h
  rw [ledger, ledger, hacc, hlog]

variable {rest : List Entity × List (CrossingEvent M)}

lemma ledger_of_demote
    (h : b'.record = (Function.update b.handoffAccepted n none, .demoted n :: b.log, rest)) :
    b'.ledger n = (b.ledger n).forget := by
  simp only [record, Prod.mk.injEq] at h
  obtain ⟨hacc, hlog, -⟩ := h
  simp [ledger, hacc, hlog, acceptedSinceDemote, acceptedEpochs, Ledger.forget]

lemma ledger_of_demote_ne (hmn : m ≠ n)
    (h : b'.record = (Function.update b.handoffAccepted m none, .demoted m :: b.log, rest)) :
    b'.ledger n = b.ledger n := by
  simp only [record, Prod.mk.injEq] at h
  obtain ⟨hacc, hlog, -⟩ := h
  simp [ledger, hacc, hlog, acceptedSinceDemote, acceptedEpochs, hmn, hmn.symm]

lemma serialUint32After_iff (a c : UInt32) : serialUint32After a c = true ↔ Serial.After a c := by
  have hhalf : (1 : UInt32) <<< 31 = 0x80000000 := by decide
  simp [serialUint32After, Serial.After, hhalf]

lemma alreadyAccepted_iff : b.handoffAlreadyAccepted n e = true ↔ (b.ledger n).Knows e := by
  unfold handoffAlreadyAccepted Ledger.Knows
  cases h : b.handoffAccepted n with
  | none => simp [ledger, h]
  | some stored =>
    simp [ledger, h, ← serialUint32After_iff]

lemma ledger_queued (hnew : b.handoffAlreadyAccepted n e = false) :
    ledger { b.markHandoffAccepted n e with
      log := .queued n e :: (b.markHandoffAccepted n e).log } n = (b.ledger n).accept e := by
  unfold handoffAlreadyAccepted at hnew
  unfold markHandoffAccepted
  cases h : b.handoffAccepted n with
  | none => simp [ledger, acceptedSinceDemote, acceptedEpochs, Ledger.accept]
  | some stored =>
    have hafter : serialUint32After e stored = true := by simpa [h] using hnew
    simp [ledger, acceptedSinceDemote, acceptedEpochs, Ledger.accept, hafter]

lemma ledger_queued_ne (hmn : m ≠ n) :
    ledger { b.markHandoffAccepted m e with
      log := .queued m e :: (b.markHandoffAccepted m e).log } n = b.ledger n := by
  unfold markHandoffAccepted
  repeat' split
  all_goals simp [ledger, acceptedSinceDemote, acceptedEpochs, hmn, hmn.symm]

end Stage

def CrossingEvent.Names (b : Stage M) (evt : CrossingEvent M) : Prop :=
  evt.entity < b.ecs.next ∧ ∀ row, b.ecs.rows evt.entity = some row →
    (row.networkID.map (·.id)).getD 0 = evt.netID

lemma Stage.Evolves.names {b b' : Stage M} (h : b.Evolves b') {evt : CrossingEvent M}
    (hn : evt.Names b) : evt.Names b' := by
  refine ⟨Nat.lt_of_lt_of_le hn.1 h.next_le, fun row' hrow' => ?_⟩
  obtain ⟨row, hrow, hid⟩ := h.ids hn.1 hrow'
  rw [hid]
  exact hn.2 row hrow

def HandoffPayload.Sane (p : HandoffPayload) : Prop := p.transferBlob.networkID = p.netID

/-- Queues and maps of a cell fit its entities, and the stage is coherent at `n`. -/
structure Cell.Sane (n : NetID) (c : Cell M) : Prop where
  wf : c.stage.WF
  coherent : c.stage.CoherentAt n
  marked : c.stage.toRemove = []
  crossing : ∀ evt ∈ c.crossings, evt.Names c.stage
  promotion : ∀ p ∈ c.promotions, p.transferBlob.networkID = p.netID
  inflight : ∀ {m h}, c.driver.inflight.lookup m = some h →
    h.payload.Sane ∧ h.payload.netID = m ∧ h.payload.epoch = h.epoch

structure Cluster.Sane (n : NetID) (s : Cluster M) : Prop where
  cell : ∀ c, (s.cells c).Sane n
  net : ∀ pkt ∈ s.net, ∀ p, pkt.msg = .handoff p → p.Sane

def SaneOut (out : List (M × CellMessage)) : Prop :=
  ∀ x ∈ out, ∀ p, x.2 = .handoff p → p.Sane

lemma saneOut_nil : SaneOut ([] : List (M × CellMessage)) := by
  simp [SaneOut]

namespace Cell

variable {n : NetID} {c c' : Cell M}

lemma view_congr (hlive : c'.stage.liveEpoch n = c.stage.liveEpoch n)
    (hoff : c'.driver.inflight.lookup n = c.driver.inflight.lookup n)
    (hdem : c'.demotions.countP (·.netID = n) = c.demotions.countP (·.netID = n))
    (hpro : (c'.promotions.filter (·.netID = n)).Perm (c.promotions.filter (·.netID = n)))
    (hled : c'.stage.ledger n = c.stage.ledger n) : c'.view n = c.view n := by
  refine Handover.Peer.ext hlive ?_ hdem ?_ hled
  · simp only [view, hoff]
  · exact Multiset.coe_eq_coe.mpr (hpro.map _)

lemma Sane.step (h : c.Sane n) (ht : Stage.Tame n c.stage c'.stage)
    (hmark : c'.stage.toRemove = [])
    (hcross : ∀ evt ∈ c'.crossings, evt ∈ c.crossings ∨ evt.Names c'.stage)
    (hpro : ∀ p ∈ c'.promotions, p ∈ c.promotions ∨ p.transferBlob.networkID = p.netID)
    (hinf : ∀ {m h}, c'.driver.inflight.lookup m = some h →
      h.payload.Sane ∧ h.payload.netID = m ∧ h.payload.epoch = h.epoch) : c'.Sane n where
  wf := ht.wf
  coherent := ht.coherent
  marked := hmark
  crossing evt hevt :=
    (hcross evt hevt).elim (fun hevt => ht.evolves.names (h.crossing evt hevt)) id
  promotion p hp := (hpro p hp).elim (h.promotion p) id
  inflight := hinf

@[simp] lemma withStage_stage (b : Stage M) : (c.withStage b).stage = b := rfl

variable {b : Stage M}

lemma view_withStage (hlive : b.liveEpoch n = c.stage.liveEpoch n)
    (hled : b.ledger n = c.stage.ledger n) : (c.withStage b).view n = c.view n :=
  view_congr hlive rfl rfl (.refl _) hled

lemma Sane.withStage (h : c.Sane n) (hq : Stage.Quiet n c.stage b)
    (hrec : b.record = c.stage.record) :
    (c.withStage b).Sane n ∧ (c.withStage b).view n = c.view n := by
  have hrec' := hrec
  simp only [record, Prod.mk.injEq] at hrec'
  obtain ⟨-, -, hmark, hqueue⟩ := hrec'
  refine ⟨h.step hq.tame (hmark.trans h.marked) (fun evt hevt => .inl ?_) (fun p hp => .inl hp)
    h.inflight, view_withStage hq.live (ledger_of_record hrec)⟩
  simpa only [crossings, Cell.withStage, Cell.stage, hqueue] using hevt

lemma filter_due_perm {α : Type*} (l : List (UInt64 × α)) (t : UInt64) {order : List α}
    (horder : order.Perm ((l.filter (·.1 ≤ t)).map (·.2))) :
    ((l.filter fun x => ¬ x.1 ≤ t).map (·.2) ++ order).Perm (l.map (·.2)) := by
  have h := (filter_append_perm (fun x : UInt64 × α => x.1 ≤ t) l).map (·.2)
  rw [map_append] at h
  refine (perm_append_comm.trans (horder.append_right _)).trans ?_
  simpa only [decide_not] using h

lemma Sane.move (h : c.Sane n) (hstage : c'.stage = c.stage)
    (hinf : c'.driver.inflight = c.driver.inflight)
    (hcross : c'.phase.dueCrossings = c.phase.dueCrossings)
    (hpro : c'.promotions.Perm c.promotions) (hdem : c'.demotions.Perm c.demotions) :
    c'.Sane n ∧ c'.view n = c.view n := by
  refine ⟨⟨hstage ▸ h.wf, hstage ▸ h.coherent, hstage ▸ h.marked, ?_,
    fun p hp => h.promotion p (hpro.subset hp), fun hl => h.inflight (hinf ▸ hl)⟩,
    view_congr (hstage ▸ rfl) (hinf ▸ rfl) (hdem.countP_eq _) (hpro.filter _) (hstage ▸ rfl)⟩
  rw [crossings, hstage, hcross]
  exact h.crossing

def Silent (n : NetID) (out : List (M × CellMessage)) : Prop :=
  ∀ x ∈ out, ∀ c, (⟨c, x.1, x.2⟩ : Packet M).view n = none

lemma silent_nil : Silent n ([] : List (M × CellMessage)) := by
  simp [Silent]

variable {p : HandoffPayload}

lemma silent_handoff {d : M} (hp : p.netID ≠ n) : Silent n [(d, CellMessage.handoff p)] := by
  simp [Silent, Packet.view, hp]

lemma Sane.queueCrossing {evt : CrossingEvent M} (h : c.Sane n)
    (halive : c.stage.ecs.alive evt.entity = true)
    (hid : evt.netID = ((c.stage.networkIDOf evt.entity).map (·.id)).getD 0) :
    (c.withStage (c.stage.queueCrossing evt)).Sane n ∧
      (c.withStage (c.stage.queueCrossing evt)).view n = c.view n := by
  have hq : Stage.Quiet n c.stage (c.stage.queueCrossing evt) :=
    quiet_of_same h.wf h.coherent rfl rfl rfl
  refine ⟨h.step hq.tame h.marked (fun evt' hevt => ?_) (fun p hp => .inl hp) h.inflight,
    view_withStage hq.live rfl⟩
  have hmem : evt' ∈ c.crossings ∨ evt' = evt := by
    simp only [crossings, withStage_stage, Stage.queueCrossing, mem_append,
      mem_singleton] at hevt ⊢
    tauto
  refine hmem.imp_right ?_
  rintro rfl
  obtain ⟨row, hrow⟩ : ∃ row, c.stage.ecs.rows evt'.entity = some row :=
    Option.isSome_iff_exists.mp halive
  refine ⟨?_, fun row' hrow' => ?_⟩
  · by_contra hge
    have hnone := h.wf.fresh evt'.entity (Nat.le_of_not_lt hge)
    simp [hrow] at hnone
  · obtain rfl : row = row' := Option.some.inj (hrow.symm.trans hrow')
    simp [hid, networkIDOf, hrow]

lemma Sane.borderFrame [DecidableEq M] {source : M} {entries : List BorderEntry} (h : c.Sane n) :
    (c.withStage (c.stage.applyBorderFrame entries source)).Sane n ∧
      (c.withStage (c.stage.applyBorderFrame entries source)).view n = c.view n :=
  h.withStage (quiet_applyBorderFrame h.wf h.coherent) applyBorderFrame_record

def accepting (c : Cell M) (p : HandoffPayload) (fromCellID : M) :
    Cell M :=
  let b := c.stage.markHandoffAccepted p.netID p.epoch
  let c₁ := c.withStage { b with log := .queued p.netID p.epoch :: b.log }
  { c₁ with
    pendingPromotes := c.pendingPromotes ++
      [(p.commitTick, ⟨p.netID, p.epoch, p.transferBlob, p.connID, fromCellID⟩)] }

lemma processHandoff_cases (fromCellID : M) (p : HandoffPayload) (ackSent : Bool) :
    (c.stage.handoffAlreadyAccepted p.netID p.epoch = true ∧
        (c.processHandoff fromCellID p ackSent).1 = c ∧
        ∀ x ∈ (c.processHandoff fromCellID p ackSent).2,
          x = (fromCellID, .handoffAccepted ⟨p.netID, p.epoch, p.commitTick⟩)) ∨
      c.processHandoff fromCellID p ackSent = (c, []) ∨
      (c.stage.handoffAlreadyAccepted p.netID p.epoch = false ∧
        c.processHandoff fromCellID p ackSent = (c.accepting p fromCellID,
          [(fromCellID, .handoffAccepted ⟨p.netID, p.epoch, p.commitTick⟩)])) := by
  by_cases hold : c.stage.handoffAlreadyAccepted p.netID p.epoch = true
  · refine .inl ⟨hold, by simp [processHandoff, hold], ?_⟩
    cases ackSent <;> simp [processHandoff, hold]
  have hold' : c.stage.handoffAlreadyAccepted p.netID p.epoch = false := by simpa using hold
  cases ackSent with
  | false => exact .inr (.inl (by simp [processHandoff, hold']))
  | true =>
    refine .inr (.inr ⟨hold', ?_⟩)
    simp [processHandoff, hold', accepting]

lemma promotions_accepting (c : Cell M) (p : HandoffPayload) (fromCellID : M) :
    (c.accepting p fromCellID).promotions.Perm
      (⟨p.netID, p.epoch, p.transferBlob, p.connID, fromCellID⟩ :: c.promotions) := by
  have h : (c.accepting p fromCellID).promotions =
      c.pendingPromotes.map (·.2) ++
        ⟨p.netID, p.epoch, p.transferBlob, p.connID, fromCellID⟩ :: c.phase.duePromotes := by
    simp [promotions, accepting, withStage]
  rw [h]
  exact perm_middle

lemma accepting_stage (c : Cell M) (p : HandoffPayload) (fromCellID : M) :
    (c.accepting p fromCellID).stage.ecs = c.stage.ecs ∧
      (c.accepting p fromCellID).stage.netIDIdx = c.stage.netIDIdx ∧
      (c.accepting p fromCellID).stage.replicaNetIDs = c.stage.replicaNetIDs ∧
      (c.accepting p fromCellID).stage.toRemove = c.stage.toRemove ∧
      (c.accepting p fromCellID).stage.crossingQueue = c.stage.crossingQueue := by
  simp only [accepting, stage, withStage, markHandoffAccepted]
  repeat' split
  all_goals exact ⟨rfl, rfl, rfl, rfl, rfl⟩

variable {fromCellID : M}

lemma Sane.accepting (h : c.Sane n) (hp : p.Sane) : (c.accepting p fromCellID).Sane n := by
  obtain ⟨hecs, hidx, htr, hmark, hqueue⟩ := accepting_stage c p fromCellID
  have hq : Stage.Quiet n c.stage (c.accepting p fromCellID).stage :=
    quiet_of_same h.wf h.coherent hecs hidx htr
  refine h.step hq.tame (hmark.trans h.marked) (fun evt hevt => .inl ?_) (fun q hq => ?_)
    h.inflight
  · rwa [crossings, hqueue] at hevt
  · rcases mem_cons.mp ((promotions_accepting c p fromCellID).subset hq) with rfl | hq
    · exact .inr hp
    · exact .inl hq

lemma accepting_liveEpoch (c : Cell M) (p : HandoffPayload) (fromCellID : M) :
    (c.accepting p fromCellID).stage.liveEpoch n = c.stage.liveEpoch n := by
  obtain ⟨hecs, hidx, -⟩ := accepting_stage c p fromCellID
  refine liveEpoch_congr (by rw [hidx]) fun _ => ?_
  rw [networkIDOf, networkIDOf, hecs]

lemma accepting_view (hnew : c.stage.handoffAlreadyAccepted p.netID p.epoch = false)
    (hn : p.netID = n) :
    (c.accepting p fromCellID).view n =
      { c.view n with
        queue := p.epoch ::ₘ (c.view n).queue, ledger := (c.view n).ledger.accept p.epoch } := by
  subst hn
  refine Handover.Peer.ext (accepting_liveEpoch ..) rfl rfl ?_ (ledger_queued hnew)
  have hperm := (promotions_accepting c p fromCellID).filter (fun q => q.netID = p.netID)
  simpa [view] using Multiset.coe_eq_coe.mpr (hperm.map (·.epoch))

lemma accepting_view_of_ne (hn : p.netID ≠ n) : (c.accepting p fromCellID).view n = c.view n := by
  refine view_congr (accepting_liveEpoch ..) rfl rfl ?_ (ledger_queued_ne hn)
  simpa [hn] using (promotions_accepting c p fromCellID).filter (fun q => q.netID = n)

section Promote

variable {b : Stage M} {p : PendingPromote M}

lemma makeRoom_record (b : Stage M) (m : NetID) : (makeRoom b m).record = b.record := by
  unfold makeRoom
  split
  · exact removeReplicaByNetID_record
  · rfl

lemma promoteOnStage_record (b : Stage M) (p : PendingPromote M) :
    (promoteOnStage b p).record = b.record ∨
      (promoteOnStage b p).record = (b.handoffAccepted, .committed p.netID p.epoch :: b.log,
        b.toRemove, b.crossingQueue) := by
  have h : ((makeRoom b p.netID).spawnLiveFromTransfer p.epoch p.transferBlob).2.record =
      b.record := spawnLiveFromTransfer_record.trans (makeRoom_record ..)
  unfold promoteOnStage
  split
  · rename_i b₁ heq
    rw [heq] at h
    simp only [record, Prod.mk.injEq] at h ⊢
    obtain ⟨hacc, hlog, hmark, hqueue⟩ := h
    exact .inr ⟨hacc, by rw [hlog], hmark, hqueue⟩
  · rename_i b₁ heq
    rw [heq] at h
    exact .inl h

lemma promoteOnStage_keeps (b : Stage M) (p : PendingPromote M) :
    (promoteOnStage b p).ledger n = b.ledger n ∧ (promoteOnStage b p).toRemove = b.toRemove ∧
      (promoteOnStage b p).crossingQueue = b.crossingQueue := by
  rcases promoteOnStage_record b p with h | h
  · refine ⟨ledger_of_record h, ?_⟩
    simp only [record, Prod.mk.injEq] at h
    exact ⟨h.2.2.1, h.2.2.2⟩
  simp only [record, Prod.mk.injEq] at h
  obtain ⟨hacc, hlog, hmark, hqueue⟩ := h
  refine ⟨?_, hmark, hqueue⟩
  simp [ledger, hacc, hlog, acceptedSinceDemote, acceptedEpochs]

lemma quiet_makeRoom {m : NetID} (hwf : b.WF) (hco : b.CoherentAt n) :
    Stage.Quiet n b (makeRoom b m) := by
  unfold makeRoom
  split
  · exact quiet_removeReplicaByNetID hwf hco
  · exact .refl hwf hco

lemma makeRoom_slot (hco : b.CoherentAt n) (hlive : b.isLive n = false) :
    (makeRoom b n).netIDIdx.slots n = none := by
  unfold makeRoom
  split
  · rename_i e hs
    exact removeReplicaByNetID_slot hco hs
  rename_i hnot
  rcases hs : b.netIDIdx.slots n with _ | ⟨e, q⟩
  · rfl
  obtain ⟨row, -, -, hfit⟩ := hco.slot_row hs
  cases q with
  | none => exact hfit.elim
  | live =>
    rw [isLive_iff.mpr ⟨e, hs⟩] at hlive
    cases hlive
  | replica => exact absurd hs (hnot e)

lemma quiet_promoteOnStage (hwf : b.WF) (hco : b.CoherentAt n)
    (hid : p.transferBlob.networkID ≠ n) : Stage.Quiet n b (promoteOnStage b p) := by
  have h₁ := quiet_makeRoom (m := p.netID) hwf hco
  have h₂ : Stage.Quiet n b
      ((makeRoom b p.netID).spawnLiveFromTransfer p.epoch p.transferBlob).2 :=
    h₁.trans (spawnLive_of_ne h₁.wf h₁.coherent hid)
  unfold promoteOnStage
  split
  · rename_i b₁ heq
    rw [heq] at h₂
    exact h₂.trans (quiet_of_same h₂.wf h₂.coherent rfl rfl rfl)
  · rename_i b₁ heq
    rwa [heq] at h₂

lemma promoteOnStage_live (hwf : b.WF) (hco : b.CoherentAt n) (hn : n ≠ 0) (hp : p.netID = n)
    (hid : p.transferBlob.networkID = n) (hlive : b.isLive n = false) :
    Stage.Tame n b (promoteOnStage b p) ∧ (promoteOnStage b p).liveEpoch n = some p.epoch := by
  have h₁ := quiet_makeRoom (m := p.netID) hwf hco
  have hfree : (makeRoom b p.netID).netIDIdx.slots n = none :=
    hp ▸ makeRoom_slot (hp ▸ hco) (hp ▸ hlive)
  obtain ⟨b₂, hspawn, htame, hepoch⟩ :=
    spawnLive_of_free p.epoch p.transferBlob h₁.wf h₁.coherent hn hid hfree
  have h₃ : Stage.Quiet n b₂ { b₂ with log := .committed p.netID p.epoch :: b₂.log } :=
    quiet_of_same htame.wf htame.coherent rfl rfl rfl
  simp only [promoteOnStage, hspawn]
  exact ⟨⟨(h₁.evolves.trans htame.evolves).trans h₃.evolves, h₃.wf, h₃.coherent⟩,
    h₃.live.trans hepoch⟩

lemma Sane.promote {t : UInt64} {rest : List (PendingPromote M)} (h : c.Sane n) (hn : n ≠ 0)
    (hphase : c.phase = .promotes t (p :: rest)) (hlive : p.netID = n → c.stage.isLive n = false) :
    ({ c.promoteOne p with phase := .promotes t rest } : Cell M).Sane n ∧
      (({ c.promoteOne p with phase := .promotes t rest } : Cell M).view n = c.view n ∨
        ∃ q, (c.view n).queue = p.epoch ::ₘ q ∧ (c.view n).holds = none ∧
          ({ c.promoteOne p with phase := .promotes t rest } : Cell M).view n =
            { c.view n with holds := some p.epoch, queue := q }) := by
  generalize hc' : ({ c.promoteOne p with phase := .promotes t rest } : Cell M) = c'
  have hstage : c'.stage = promoteOnStage c.stage p := by rw [← hc']; rfl
  obtain ⟨hled, hmark, hqueue⟩ := promoteOnStage_keeps (n := n) c.stage p
  have hperm : c.promotions.Perm (p :: c'.promotions) := by
    simp only [← hc', promotions, promoteOne, Cell.withStage, hphase, Phase.duePromotes]
    exact perm_middle
  have hdem : c'.demotions = c.demotions := by
    simp [← hc', demotions, promoteOne, Cell.withStage, hphase]
  have hinf : c'.driver.inflight = c.driver.inflight := by rw [← hc']; rfl
  have hpid := h.promotion p (hperm.symm.subset mem_cons_self)
  have hsane (ht : Stage.Tame n c.stage (promoteOnStage c.stage p)) : c'.Sane n := by
    refine h.step (hstage ▸ ht) (hstage ▸ hmark.trans h.marked) (fun evt hevt => .inl ?_)
      (fun q hq => .inl (hperm.symm.subset (mem_cons_of_mem _ hq)))
      fun hl => h.inflight (hinf ▸ hl)
    rw [crossings, hstage, hqueue] at hevt
    simpa [crossings, hphase, ← hc'] using hevt
  by_cases hp : p.netID = n
  · obtain ⟨ht, hepoch⟩ :=
      promoteOnStage_live h.wf h.coherent hn hp (hpid.trans hp) (hlive hp)
    refine ⟨hsane ht, .inr ⟨(c'.view n).queue, ?_, ?_, ?_⟩⟩
    · have := (hperm.filter (fun q => q.netID = n)).map (·.epoch)
      simpa [view, hp] using Multiset.coe_eq_coe.mpr this
    · by_contra hne
      have := (isLive_iff_liveEpoch h.coherent).mpr hne
      simp [hlive hp] at this
    refine Handover.Peer.ext ?_ ?_ ?_ rfl ?_
    · exact (congrArg (·.liveEpoch n) hstage).trans hepoch
    · simp only [view, hinf]
    · simp only [view, hdem]
    · exact (congrArg (·.ledger n) hstage).trans hled
  · have hq := quiet_promoteOnStage (p := p) h.wf h.coherent (hpid ▸ hp)
    refine ⟨hsane hq.tame, .inl (view_congr (hstage ▸ hq.live) (hinf ▸ rfl) (hdem ▸ rfl) ?_
      (hstage ▸ hled))⟩
    simpa [hp] using (hperm.filter (fun q => q.netID = n)).symm

end Promote

variable {t : UInt64}

lemma Sane.beginTick {order : List (PendingPromote M)} (h : c.Sane n) (hphase : c.phase = .idle)
    (horder : order.Perm (c.takeDuePromotes t).1) :
    ({ (c.takeDuePromotes t).2 with phase := .promotes t order } : Cell M).Sane n ∧
      ({ (c.takeDuePromotes t).2 with phase := .promotes t order } : Cell M).view n =
        c.view n := by
  refine h.move rfl rfl (by simp [hphase]) ?_ ?_
  · simpa [promotions, hphase, takeDuePromotes] using filter_due_perm c.pendingPromotes t horder
  · simp [demotions, hphase, takeDuePromotes]

lemma Sane.beginRetries {order : List NetID} (h : c.Sane n) (hphase : c.phase = .promotes t []) :
    ({ c with phase := .retries t order } : Cell M).Sane n ∧
      ({ c with phase := .retries t order } : Cell M).view n = c.view n := by
  refine h.move rfl rfl (by simp [hphase]) ?_ ?_
  · simp [promotions, hphase]
  · simp [demotions, hphase]

section Answers

variable [DecidableEq M]

def arming (c : Cell M) (netID : NetID) (h : InflightHandoff M) :
    Cell M :=
  { c with driver :=
      ({ c.driver with
        inflight := c.driver.inflight.erase netID
        pendingDemotes := c.driver.pendingDemotes ++
          [(h.commitTick, ⟨netID, h.destCellID, h.connID⟩)]
        } : HandoffDriver M).setLastHandoff netID h.destCellID (some h.commitTick) }

lemma onHandoffAccepted_cases (netID : NetID) (epoch : Epoch) (commitTick : UInt64)
    (fromCellID : M) :
    c.driver.onHandoffAccepted netID epoch commitTick fromCellID = c.driver ∨
      ∃ h, c.driver.inflight.lookup netID = some h ∧ h.epoch = epoch ∧
        h.destCellID = fromCellID ∧
        { c with driver := c.driver.onHandoffAccepted netID epoch commitTick fromCellID } =
          c.arming netID h := by
  unfold onHandoffAccepted
  split
  · exact .inl rfl
  rename_i h hlook
  split
  · exact .inl rfl
  · rename_i hmatch
    push Not at hmatch
    exact .inr ⟨h, hlook, hmatch.1, hmatch.2.2, rfl⟩

variable {m : NetID} {h : InflightHandoff M}

omit [DecidableEq M] in
lemma lookup_erase_or {netID : NetID} (hl : (c.driver.inflight.erase netID).lookup m = some h) :
    c.driver.inflight.lookup m = some h := by
  by_cases hm : m = netID
  · subst hm
    simp at hl
  · rwa [lookup_erase_ne hm] at hl

lemma Sane.arming {netID : NetID} (hc : c.Sane n) :
    (c.arming netID h).Sane n :=
  ⟨hc.wf, hc.coherent, hc.marked, hc.crossing, hc.promotion,
    fun hl => hc.inflight (lookup_erase_or hl)⟩

lemma demotions_arming (c : Cell M) (netID : NetID) (h : InflightHandoff M) :
    (c.arming netID h).demotions.Perm (⟨netID, h.destCellID, h.connID⟩ :: c.demotions) := by
  have hd : (c.arming netID h).demotions = c.driver.pendingDemotes.map (·.2) ++
      ⟨netID, h.destCellID, h.connID⟩ :: c.phase.dueDemotes := by
    simp [demotions, Cell.arming, setLastHandoff]
  rw [hd]
  exact perm_middle

lemma arming_view :
    (c.arming n h).view n = { c.view n with offer := none, armed := (c.view n).armed + 1 } := by
  refine Handover.Peer.ext rfl ?_ ?_ rfl rfl
  · simp [view, Cell.arming, setLastHandoff]
  · simpa [view] using (demotions_arming c n h).countP_eq (fun d => d.netID = n)

lemma arming_view_of_ne (hm : m ≠ n) : (c.arming m h).view n = c.view n := by
  refine view_congr rfl ?_ ?_ (.refl _) rfl
  · exact lookup_erase_ne hm.symm
  · simpa [hm] using (demotions_arming c m h).countP_eq (fun d => d.netID = n)

lemma retryOne_cases (hd : HandoffDriver M) (t : UInt64) (m : NetID) (sent : Bool) :
    (hd.retryOne t m sent).1.base = hd.base ∧
      (hd.retryOne t m sent).1.pendingDemotes = hd.pendingDemotes ∧
      ((hd.retryOne t m sent).1.inflight = hd.inflight ∧ (hd.retryOne t m sent).2 = [] ∨
        ∃ h, hd.inflight.lookup m = some h ∧
          ((hd.base.isLive m = false ∨ hd.base.isLive m = true ∧ sent = false) ∧
              (hd.retryOne t m sent).1.inflight = hd.inflight.erase m ∧
              (hd.retryOne t m sent).2 = [] ∨
            (hd.retryOne t m sent).1.inflight = hd.inflight.insert m (h.retried t) ∧
              (hd.retryOne t m sent).2 = [(h.destCellID, .handoff h.payload)])) := by
  unfold retryOne
  cases hl : hd.inflight.lookup m with
  | none => exact ⟨rfl, rfl, .inl ⟨rfl, rfl⟩⟩
  | some h =>
    cases hlive : hd.base.isLive m with
    | false => exact ⟨rfl, rfl, .inr ⟨h, rfl, .inl ⟨.inl rfl, rfl, rfl⟩⟩⟩
    | true =>
      cases sent with
      | false => exact ⟨rfl, rfl, .inr ⟨h, rfl, .inl ⟨.inr ⟨rfl, rfl⟩, rfl, rfl⟩⟩⟩
      | true => exact ⟨rfl, rfl, .inr ⟨h, rfl, .inr ⟨rfl, rfl⟩⟩⟩

lemma Sane.retry {t : UInt64} {rest : List NetID} {sent : Bool} {hd : HandoffDriver M}
    {out : List (M × CellMessage)} (h : c.Sane n) (hphase : c.phase = .retries t (m :: rest))
    (hr : c.driver.retryOne t m sent = (hd, out)) :
    ({ c with driver := hd, phase := .retries t rest } : Cell M).Sane n ∧ SaneOut out ∧
      (({ c with driver := hd, phase := .retries t rest } : Cell M).view n = c.view n ∧
          (Silent n out ∨ ∃ d e p, (c.view n).offer = some (d, e) ∧ out = [(d, .handoff p)] ∧
            p.netID = n ∧ p.epoch = e) ∨
        m = n ∧ out = [] ∧ (∃ h, c.driver.inflight.lookup n = some h) ∧
          ((c.view n).holds = none ∨ sent = false) ∧
          ({ c with driver := hd, phase := .retries t rest } : Cell M).view n =
            { c.view n with offer := none }) := by
  generalize hc' : ({ c with driver := hd, phase := .retries t rest } : Cell M) = c'
  obtain ⟨hbase, hdem, hcases⟩ := retryOne_cases c.driver t m sent
  simp only [hr] at hbase hdem hcases
  have hstage : c'.stage = c.stage := by rw [← hc']; exact hbase
  have hpro : c'.promotions = c.promotions := by simp [← hc', promotions, hphase]
  have hdem' : c'.demotions = c.demotions := by simp [← hc', demotions, hphase, hdem]
  have hcross : c'.crossings = c.crossings := by simp [← hc', crossings, hphase, stage, hbase]
  have hinf' : c'.driver.inflight = hd.inflight := by rw [← hc']
  have hsane (hinf : ∀ {k h}, hd.inflight.lookup k = some h →
      h.payload.Sane ∧ h.payload.netID = k ∧ h.payload.epoch = h.epoch) : c'.Sane n :=
    ⟨hstage ▸ h.wf, hstage ▸ h.coherent, hstage ▸ h.marked, hstage ▸ hcross ▸ h.crossing,
      hpro ▸ h.promotion, fun hl => hinf (hinf' ▸ hl)⟩
  have hview (hoff : hd.inflight.lookup n = c.driver.inflight.lookup n) : c'.view n = c.view n :=
    view_congr (hstage ▸ rfl) (hinf' ▸ hoff) (hdem' ▸ rfl) (hpro ▸ .refl _) (hstage ▸ rfl)
  rcases hcases with ⟨hinf, hout⟩ | ⟨o, hl, hgone | ⟨hinf, hout⟩⟩
  · subst hout
    exact ⟨hsane fun hl => h.inflight (hinf ▸ hl), saneOut_nil, .inl ⟨hview (hinf ▸ rfl),
      .inl silent_nil⟩⟩
  · obtain ⟨hwhy, hinf, rfl⟩ := hgone
    refine ⟨hsane fun hl => h.inflight (lookup_erase_or (hinf ▸ hl)), saneOut_nil, ?_⟩
    by_cases hm : m = n
    · subst hm
      refine .inr ⟨rfl, rfl, ⟨o, hl⟩, ?_, ?_⟩
      · rcases hwhy with hdead | ⟨-, hsent⟩
        · left
          by_contra hne
          have := (isLive_iff_liveEpoch h.coherent).mpr hne
          exact absurd hdead (by simp [stage] at this; simp [this])
        · exact .inr hsent
      · refine Handover.Peer.ext ?_ ?_ ?_ ?_ ?_
        · simp [view, hstage]
        · simp [view, hinf', hinf]
        · simp [view, hdem']
        · simp [view, hpro]
        · simp [view, hstage]
    · exact .inl ⟨hview (hinf ▸ lookup_erase_ne (Ne.symm hm)), .inl silent_nil⟩
  · subst hout
    have hpay := h.inflight hl
    refine ⟨hsane fun {k h'} hl' => ?_, ?_, .inl ⟨?_, ?_⟩⟩
    · rw [hinf] at hl'
      by_cases hk : k = m
      · subst hk
        obtain rfl : o.retried t = h' := by simpa using hl'
        exact hpay
      · exact h.inflight (by rwa [lookup_insert_ne hk] at hl')
    · intro x hx p hp
      obtain rfl := mem_singleton.mp hx
      obtain rfl := CellMessage.handoff.inj hp
      exact hpay.1
    · have hoff : (c'.driver.inflight.lookup n).map (fun h => (h.destCellID, h.epoch)) =
          (c.driver.inflight.lookup n).map fun h => (h.destCellID, h.epoch) := by
        rw [hinf', hinf]
        by_cases hm : n = m
        · subst hm
          simp [hl, InflightHandoff.retried]
        · rw [lookup_insert_ne hm]
      exact Handover.Peer.ext (by simp [view, hstage]) hoff (by simp [view, hdem'])
        (by simp [view, hpro]) (by simp [view, hstage])
    · by_cases hm : m = n
      · subst hm
        exact .inr ⟨_, _, _, by simp [view, hl], rfl, hpay.2.1, hpay.2.2⟩
      · exact .inl (silent_handoff (hpay.2.1 ▸ hm))

end Answers

lemma Sane.beginDemotes {order : List (PendingDemote M)} (h : c.Sane n)
    (hphase : c.phase = .retries t []) (horder : order.Perm (c.driver.takeDueDemotes t).1) :
    ({ c with driver := (c.driver.takeDueDemotes t).2, phase := .demotes t order } :
        Cell M).Sane n ∧
      ({ c with driver := (c.driver.takeDueDemotes t).2, phase := .demotes t order } :
        Cell M).view n = c.view n := by
  refine h.move rfl rfl (by simp [hphase]) ?_ ?_
  · simp [promotions, hphase]
  · simpa [demotions, hphase, takeDueDemotes] using
      filter_due_perm c.driver.pendingDemotes t horder

lemma Sane.demote {d : PendingDemote M} {rest : List (PendingDemote M)} (h : c.Sane n)
    (hphase : c.phase = .demotes t (d :: rest)) :
    ({ c with driver := c.driver.demoteOne d, phase := .demotes t rest } :
        Cell M).Sane n ∧
      (({ c with driver := c.driver.demoteOne d, phase := .demotes t rest } :
          Cell M).view n = c.view n ∨
        ∃ k, (c.view n).armed = k + 1 ∧
          ((c.view n).holds ≠ none ∧
              ({ c with driver := c.driver.demoteOne d, phase := .demotes t rest } :
                Cell M).view n =
                { c.view n with
                  holds := none, armed := k, ledger := (c.view n).ledger.forget } ∨
            (c.view n).holds = none ∧
              ({ c with driver := c.driver.demoteOne d, phase := .demotes t rest } :
                Cell M).view n = { c.view n with armed := k })) := by
  generalize hc' : ({ c with driver := c.driver.demoteOne d, phase := .demotes t rest } :
    Cell M) = c'
  have hstage : c'.stage = (c.stage.demoteLiveToReplica d.netID d.destCellID).2 := by
    rw [← hc']; rfl
  have hinf : c'.driver.inflight = c.driver.inflight := by rw [← hc']; rfl
  have hpro : c'.promotions = c.promotions := by simp [← hc', promotions, hphase]
  have hperm : c.demotions.Perm (d :: c'.demotions) := by
    simp only [← hc', demotions, demoteOne, hphase, Phase.dueDemotes]
    exact perm_middle
  have hcount : c.demotions.countP (·.netID = n) =
      c'.demotions.countP (·.netID = n) + if d.netID = n then 1 else 0 := by
    simpa [countP_cons] using hperm.countP_eq (fun x => x.netID = n)
  have hsane (ht : Stage.Tame n c.stage c'.stage) (hmark : c'.stage.toRemove = c.stage.toRemove)
      (hqueue : c'.stage.crossingQueue = c.stage.crossingQueue) : c'.Sane n := by
    refine h.step ht (hmark.trans h.marked) (fun evt hevt => .inl ?_)
      (fun p hp => .inl (hpro ▸ hp)) fun hl => h.inflight (hinf ▸ hl)
    rw [crossings, hqueue] at hevt
    simpa [crossings, hphase, ← hc'] using hevt
  by_cases hd : d.netID = n
  · rw [if_pos hd] at hcount
    cases hlive : c.stage.isLive n with
    | true =>
      obtain ⟨ht, hepoch, hrec⟩ := demote_live d.destCellID h.wf h.coherent hlive
      rw [← hd, ← hstage] at hrec
      rw [← hd, ← hstage, hd] at ht hepoch
      have hrec' := hrec
      simp only [record, Prod.mk.injEq] at hrec'
      refine ⟨hsane ht hrec'.2.2.1 hrec'.2.2.2, .inr ⟨_, hcount, .inl ⟨?_, ?_⟩⟩⟩
      · exact (isLive_iff_liveEpoch h.coherent).mp hlive
      · refine Handover.Peer.ext hepoch ?_ rfl ?_ (ledger_of_demote (hd ▸ hrec))
        · simp only [view, hinf]
        · simp only [view, hpro]
    | false =>
      have hsame : c'.stage = c.stage := by rw [hstage, hd, demote_of_not_live hlive]
      have ht : Stage.Tame n c.stage c'.stage := by
        rw [hsame]
        exact ⟨.refl _, h.wf, h.coherent⟩
      refine ⟨hsane ht (hsame ▸ rfl) (hsame ▸ rfl), .inr ⟨_, hcount, .inr ⟨?_, ?_⟩⟩⟩
      · by_contra hne
        have := (isLive_iff_liveEpoch h.coherent).mpr hne
        simp [hlive] at this
      · exact Handover.Peer.ext (by simp [view, hsame]) (by simp [view, hinf]) rfl
          (by simp [view, hpro]) (by simp [view, hsame])
  · rw [if_neg hd] at hcount
    obtain ⟨hq, hrec⟩ := demote_of_ne d.destCellID h.wf h.coherent hd
    rw [← hstage] at hq hrec
    have hrest : c'.stage.ledger n = c.stage.ledger n ∧ c'.stage.toRemove = c.stage.toRemove ∧
        c'.stage.crossingQueue = c.stage.crossingQueue := by
      rcases hrec with hrec | hrec
      · refine ⟨ledger_of_record hrec, ?_⟩
        simp only [record, Prod.mk.injEq] at hrec
        exact ⟨hrec.2.2.1, hrec.2.2.2⟩
      · refine ⟨ledger_of_demote_ne hd hrec, ?_⟩
        simp only [record, Prod.mk.injEq] at hrec
        exact ⟨hrec.2.2.1, hrec.2.2.2⟩
    exact ⟨hsane hq.tame hrest.2.1 hrest.2.2, .inl (view_congr hq.live (hinf ▸ rfl) hcount.symm
      (hpro ▸ .refl _) hrest.1)⟩

lemma Sane.drain {events : List (CrossingEvent M)} (h : c.Sane n)
    (hpro : c.phase.duePromotes = []) (hdem : c.phase.dueDemotes = [])
    (hsub : events ⊆ c.stage.crossingQueue) :
    ({ c.withStage c.stage.drainCrossingQueue.2 with phase := .crossings t events } :
        Cell M).Sane n ∧
      ({ c.withStage c.stage.drainCrossingQueue.2 with phase := .crossings t events } :
        Cell M).view n = c.view n := by
  generalize hc' : ({ c.withStage c.stage.drainCrossingQueue.2 with phase := .crossings t events } :
    Cell M) = c'
  have hq : Stage.Quiet n c.stage c'.stage :=
    quiet_of_same h.wf h.coherent (hc' ▸ rfl) (hc' ▸ rfl) (hc' ▸ rfl)
  have hpro' : c'.promotions = c.promotions := by
    rw [promotions, promotions, hpro, ← hc']
    rfl
  have hdem' : c'.demotions = c.demotions := by
    rw [demotions, demotions, hdem, ← hc']
    rfl
  have hcross : c'.crossings = events := by
    rw [← hc']
    rfl
  refine ⟨h.step hq.tame ((hc' ▸ rfl : c'.stage.toRemove = _).trans h.marked)
    (fun evt hevt => .inl (mem_append_left _ (hsub (hcross ▸ hevt))))
    (fun p hp => .inl (hpro' ▸ hp)) fun hl => h.inflight ?_,
    view_congr hq.live (hc' ▸ rfl) (hdem' ▸ rfl) (hpro' ▸ .refl _) (hc' ▸ rfl)⟩
  rwa [← hc'] at hl

lemma Sane.endTick (h : c.Sane n) (hphase : c.phase = .crossings t []) :
    ({ c.withStage c.stage.expireReplicas.flushRemovals with phase := .idle } :
        Cell M).Sane n ∧
      ({ c.withStage c.stage.expireReplicas.flushRemovals with phase := .idle } :
        Cell M).view n = c.view n := by
  have hq := quiet_expire_flush h.wf h.coherent h.marked
  have hrec : c.stage.expireReplicas.flushRemovals.record = c.stage.record := by
    rw [expire_flush_record, record, h.marked]
  obtain ⟨hsane, hview⟩ := h.withStage hq hrec
  generalize hc₁ : c.withStage c.stage.expireReplicas.flushRemovals = c₁ at hsane hview
  have hphase₁ : c₁.phase = .crossings t [] := by rw [← hc₁]; exact hphase
  rw [← hview]
  refine hsane.move rfl rfl (by simp [hphase₁]) ?_ ?_
  · simp [promotions, hphase₁]
  · simp [demotions, hphase₁]

section Cross

variable {b : Stage M} {evt : CrossingEvent M}

lemma handleCrossing_cases (hd : HandoffDriver M) (evt : CrossingEvent M) (t : UInt64)
    (sent : Bool) :
    hd.handleCrossing evt t sent = (hd, []) ∨
      hd.base.ecs.alive evt.entity = true ∧ hd.base.isLive evt.netID = true ∧
        hd.hasHandoffInFlight evt.netID = false ∧
        ∃ old h, old = ((hd.base.networkIDOf evt.entity).map (·.epoch)).getD 0 ∧
          h.destCellID = evt.destCellID ∧ h.epoch = old + 1 ∧
          h.payload.netID = evt.netID ∧ h.payload.epoch = old + 1 ∧
          h.payload.transferBlob =
            (hd.base.setEpoch evt.entity (old + 1)).serializeEntityCore evt.entity ∧
          hd.handleCrossing evt t sent =
            if sent then
              ({ hd with
                  base := hd.base.setEpoch evt.entity (old + 1)
                  inflight := hd.inflight.insert evt.netID h },
                [(evt.destCellID, .handoff h.payload)])
            else
              ({ hd with
                  base := (hd.base.setEpoch evt.entity (old + 1)).setEpoch evt.entity old
                  inflight := (hd.inflight.insert evt.netID h).erase evt.netID }, []) := by
  unfold handleCrossing
  cases halive : hd.base.ecs.alive evt.entity with
  | false => exact .inl rfl
  | true =>
  cases hlive : hd.base.isLive evt.netID with
  | false => exact .inl rfl
  | true =>
  cases hflight : hd.hasHandoffInFlight evt.netID with
  | true => exact .inl rfl
  | false =>
  cases hcool : hd.inCooldown evt t with
  | true => exact .inl rfl
  | false => exact .inr ⟨rfl, rfl, rfl, _, _, rfl, rfl, rfl, rfl, rfl, rfl, rfl⟩

lemma quiet_setEpoch_of_names (epoch : Epoch) (hwf : b.WF) (hco : b.CoherentAt n)
    (hnames : evt.Names b) (hne : evt.netID ≠ n) :
    Stage.Quiet n b (b.setEpoch evt.entity epoch) := by
  refine quiet_setEpoch hwf hco fun hs => hne ?_
  obtain ⟨row, hrow, ⟨epoch, hnid⟩, -⟩ := hco.slot_row hs
  simpa [hnid] using (hnames.2 row hrow).symm

lemma slot_of_names (hco : b.CoherentAt n) (hn : n ≠ 0) (hnames : evt.Names b)
    (hid : evt.netID = n) (hlive : b.isLive n = true) (halive : b.ecs.alive evt.entity = true) :
    b.netIDIdx.slots n = some ⟨evt.entity, .live⟩ := by
  obtain ⟨e, hs⟩ := isLive_iff.mp hlive
  obtain ⟨row, hrow⟩ : ∃ row, b.ecs.rows evt.entity = some row :=
    Option.isSome_iff_exists.mp halive
  obtain ⟨epoch, hnid⟩ : ∃ epoch, row.networkID = some ⟨n, epoch⟩ := by
    have hrowid := hnames.2 row hrow
    rw [hid] at hrowid
    rcases hnid : row.networkID with _ | ⟨m, epoch⟩
    · simp [hnid] at hrowid
      exact absurd hrowid.symm hn
    · obtain rfl : m = n := by simpa [hnid] using hrowid
      exact ⟨epoch, rfl⟩
  obtain ⟨p, hs'⟩ := hco.row_slot hrow hnid
  obtain ⟨rfl, rfl⟩ : e = evt.entity ∧ EntityPresence.live = p := by simpa [hs] using hs'
  exact hs

lemma serialize_of_names (hnames : evt.Names b) (halive : b.ecs.alive evt.entity = true) :
    (b.serializeEntityCore evt.entity).networkID = evt.netID := by
  obtain ⟨row, hrow⟩ : ∃ row, b.ecs.rows evt.entity = some row :=
    Option.isSome_iff_exists.mp halive
  rw [← hnames.2 row hrow]
  unfold serializeEntityCore
  rcases hnid : row.networkID with _ | nid
  · simp [networkIDOf, hrow, hnid]
  · simp [networkIDOf, hrow, hnid]

lemma alive_setEpoch (e e' : Entity) (epoch : Epoch) :
    (b.setEpoch e epoch).ecs.alive e' = b.ecs.alive e' := by
  unfold setEpoch
  split
  · rename_i row hrow
    by_cases he : e' = e
    · simp [World.alive, World.setRow, he, hrow]
    · simp [World.alive, World.setRow, he]
  · rfl

lemma raise_epoch {old : Epoch} (hwf : b.WF) (hco : b.CoherentAt n) (hn : n ≠ 0)
    (hnames : evt.Names b) (halive : b.ecs.alive evt.entity = true)
    (hlive : b.isLive evt.netID = true)
    (hold : old = ((b.networkIDOf evt.entity).map (·.epoch)).getD 0) :
    Stage.Tame n b (b.setEpoch evt.entity (old + 1)) ∧
      Stage.Tame n b ((b.setEpoch evt.entity (old + 1)).setEpoch evt.entity old) ∧
      ((b.setEpoch evt.entity (old + 1)).setEpoch evt.entity old).liveEpoch n = b.liveEpoch n ∧
      (evt.netID ≠ n → (b.setEpoch evt.entity (old + 1)).liveEpoch n = b.liveEpoch n) ∧
      (evt.netID = n → b.liveEpoch n = some old ∧
        (b.setEpoch evt.entity (old + 1)).liveEpoch n = some (old + 1)) := by
  by_cases hid : evt.netID = n
  · have hs := slot_of_names hco hn hnames hid (hid ▸ hlive) halive
    obtain ⟨epoch, hnid, hepoch⟩ := liveEpoch_of_slot hco hs
    obtain rfl : old = epoch := by simp [hold, hnid]
    obtain ⟨ht₁, hl₁, hidx₁⟩ := setEpoch_live (old + 1) hwf hco hs
    obtain ⟨ht₂, hl₂, -⟩ := setEpoch_live old ht₁.wf ht₁.coherent (hidx₁ ▸ hs)
    exact ⟨ht₁, ⟨ht₁.evolves.trans ht₂.evolves, ht₂.wf, ht₂.coherent⟩, hl₂.trans hepoch.symm,
      fun hne => absurd hid hne, fun _ => ⟨hepoch, hl₁⟩⟩
  · have hq₁ := quiet_setEpoch_of_names (old + 1) hwf hco hnames hid
    have hq₂ := quiet_setEpoch_of_names old hq₁.wf hq₁.coherent
      (hq₁.evolves.names hnames) hid
    exact ⟨hq₁.tame, (hq₁.trans hq₂).tame, (hq₁.trans hq₂).live, fun _ => hq₁.live,
      fun heq => absurd heq hid⟩

variable {hd : HandoffDriver M}

lemma not_inFlight {m : NetID} (h : hd.hasHandoffInFlight m = false) :
    hd.inflight.lookup m = none ∧ (hd.pendingDemotes.map (·.2)).countP (·.netID = m) = 0 := by
  simp only [hasHandoffInFlight, Bool.or_eq_false_iff, Option.isSome_eq_false_iff,
    Option.isNone_iff_eq_none] at h
  refine ⟨h.1, ?_⟩
  simpa [countP_eq_zero] using h.2

lemma Sane.cross {t : UInt64} {rest : List (CrossingEvent M)} {sent : Bool}
    {out : List (M × CellMessage)} (h : c.Sane n) (hn : n ≠ 0)
    (hphase : c.phase = .crossings t (evt :: rest))
    (hr : c.driver.handleCrossing evt t sent = (hd, out)) :
    ({ c with driver := hd, phase := .crossings t rest } : Cell M).Sane n ∧
      SaneOut out ∧
      (({ c with driver := hd, phase := .crossings t rest } : Cell M).view n = c.view n ∧
          Silent n out ∨
        evt.netID = n ∧ ∃ e d p, (c.view n).holds = some e ∧ (c.view n).offer = none ∧
          (c.view n).armed = 0 ∧ out = [(d, .handoff p)] ∧ p.netID = n ∧ p.epoch = e + 1 ∧
          ({ c with driver := hd, phase := .crossings t rest } : Cell M).view n =
            { c.view n with holds := some (e + 1), offer := some (d, e + 1) }) := by
  have hnames : evt.Names c.stage := h.crossing evt (by simp [crossings, hphase])
  generalize hc' : ({ c with driver := hd, phase := .crossings t rest } : Cell M) = c'
  have hpro : c'.promotions = c.promotions := by simp [← hc', promotions, hphase]
  -- the changes that a crossing makes, and what they have to keep
  have hsane (ht : Stage.Tame n c.stage hd.base) (hrec : hd.base.record = c.stage.record)
      (hinf : ∀ {m h}, hd.inflight.lookup m = some h →
        h.payload.Sane ∧ h.payload.netID = m ∧ h.payload.epoch = h.epoch) : c'.Sane n := by
    simp only [record, Prod.mk.injEq] at hrec
    obtain ⟨-, -, hmark, hqueue⟩ := hrec
    subst hc'
    refine h.step ht (hmark.trans h.marked) (fun evt' hevt => .inl ?_)
      (fun p hp => .inl (hpro ▸ hp)) hinf
    simp only [crossings, stage, hqueue, hphase, Phase.dueCrossings, mem_append,
      mem_cons] at hevt ⊢
    tauto
  rcases handleCrossing_cases c.driver evt t sent with heq | hcross
  · obtain ⟨rfl, rfl⟩ : c.driver = hd ∧ [] = out := by simpa [heq] using hr
    refine ⟨hsane ⟨.refl _, h.wf, h.coherent⟩ rfl h.inflight, saneOut_nil, .inl ⟨?_,
      silent_nil⟩⟩
    subst hc'
    exact view_congr rfl rfl (by simp [demotions, hphase]) (by simp [promotions, hphase]) rfl
  obtain ⟨halive, hlive, hflight, old, o, hold, hdest, hepoch, hpid, hpep, hblob, heq⟩ := hcross
  obtain ⟨htame₁, htame₂, hback, hother, hself⟩ :=
    raise_epoch h.wf h.coherent hn hnames halive hlive hold
  obtain ⟨hnone, hcalm⟩ := not_inFlight hflight
  have hdem (hpd : hd.pendingDemotes = c.driver.pendingDemotes) : c'.demotions = c.demotions := by
    simp [← hc', demotions, hpd, hphase]
  cases sent with
  | false =>
    obtain ⟨rfl, rfl⟩ : _ = hd ∧ [] = out := by simpa [heq] using hr
    have hlook : ∀ m, ((c.driver.inflight.insert evt.netID o).erase evt.netID).lookup m =
        c.driver.inflight.lookup m := by
      intro m
      by_cases hm : m = evt.netID
      · rw [hm, lookup_erase, hnone]
      · rw [lookup_erase_ne hm, lookup_insert_ne hm]
    refine ⟨hsane htame₂ (by simp [stage]) fun hl => h.inflight (hlook _ ▸ hl), saneOut_nil,
      .inl ⟨?_, silent_nil⟩⟩
    subst hc'
    exact view_congr hback (hlook n) (hdem rfl ▸ rfl) (hpro ▸ .refl _)
      (ledger_of_record (by simp [stage]))
  | true =>
    obtain ⟨rfl, rfl⟩ : _ = hd ∧ [(evt.destCellID, .handoff o.payload)] = out := by
      simpa [heq] using hr
    have hpay : o.payload.Sane := by
      rw [HandoffPayload.Sane, hblob, hpid]
      exact serialize_of_names (htame₁.evolves.names hnames) ((alive_setEpoch ..).trans halive)
    refine ⟨hsane htame₁ (by simp [stage]) fun {m k} hl => ?_, ?_, ?_⟩
    · by_cases hm : m = evt.netID
      · subst hm
        obtain rfl : o = k := by simpa using hl
        exact ⟨hpay, hpid, hpep.trans hepoch.symm⟩
      · exact h.inflight (by rwa [lookup_insert_ne hm] at hl)
    · simpa [SaneOut] using hpay
    · by_cases hid : evt.netID = n
      · obtain ⟨hhold, hraise⟩ := hself hid
        rw [hid] at hnone hcalm
        refine .inr ⟨hid, old, evt.destCellID, o.payload, hhold, ?_, ?_, rfl,
          hpid.trans hid, hpep, ?_⟩
        · simp [view, hnone]
        · simp only [view, demotions, hphase, Phase.dueDemotes, append_nil]
          exact hcalm
        subst hc'
        refine Handover.Peer.ext hraise ?_ ?_ ?_ (ledger_of_record (by simp [stage]))
        · simp [view, hid, hdest, hepoch]
        · simp only [view, hdem rfl]
        · simp only [view, hpro]
      · refine .inl ⟨?_, silent_handoff (hpid ▸ hid)⟩
        subst hc'
        exact view_congr (hother hid) (lookup_insert_ne (Ne.symm hid)) (hdem rfl ▸ rfl)
          (hpro ▸ .refl _) (ledger_of_record (by simp [stage]))

end Cross

end Cell

end Mmokit
