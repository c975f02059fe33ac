/-
A split or a migration keeps every entity, if it does not meet a handoff.

As long as `n` was not serialised, the boundary handoff has one head for it (`Handover.Settled`).
-/
import Mmokit.Universe.RelocationSteps
import Mmokit.Universe.HandoffSafety
import Mmokit.Library.HandoverRelocation

namespace Mmokit

open Function List Stage Cluster Handover.Config

open Handover (Settled Peer)

variable {M : Type*} {n : NetID} {b : Epoch}

/-- Well formed: the destinations are different cells, and none of them is the source. -/
structure Relocation.WF (r : Relocation M) : Prop where
  dest_inj : ∀ {cmd cmd'}, cmd ∈ r.commands → cmd' ∈ r.commands →
    cmd.destCellID = cmd'.destCellID → cmd = cmd'
  dest_ne : ∀ {cmd}, cmd ∈ r.commands → cmd.destCellID ≠ r.srcCellID

/-- The cell has neither offered `n` to another cell nor agreed to demote it. -/
structure Cell.Keeps (n : NetID) (c : Cell M) : Prop where
  inflight : c.driver.inflight.lookup n = none
  demotes : ∀ d ∈ c.demotions, d.netID ≠ n

lemma Cell.Keeps.view {c : Cell M} (h : c.Keeps n) :
    (c.view n).offer = none ∧ (c.view n).armed = 0 := by
  constructor
  · simp [Cell.view, h.inflight]
  · simpa [Cell.view] using h.demotes

def blankPeer : Peer M := ⟨none, none, 0, 0, .empty⟩

variable {c : M}

lemma Cluster.step_cells [DecidableEq M] {s t : Cluster M} {ev : ClusterEvent M}
    (h : s.step ev = some t) (hc : ev.cell? ≠ some c) : t.cells c = s.cells c := by
  have hset {d : M} (hd : some d ≠ some c) (cell : Cell M)
      (net : List (Packet M)) (out : List (M × CellMessage)) :
      (s.setCell d cell net out).cells c = s.cells c :=
    update_of_ne (fun hcd => hd (congrArg some hcd.symm)) _ _
  cases ev with
  | loop d l =>
    obtain ⟨r, -, rfl⟩ := Option.map_eq_some_iff.mp h
    exact hset hc _ _ _
  | queueCrossing | borderFrame | deliver =>
    rw [step] at h
    split at h
    · cases h
      exact hset hc _ _ _
    · cases h
  | lose | duplicate =>
    rw [step] at h
    split at h
    · cases h
      rfl
    · cases h

lemma Cluster.view_setCell_local [DecidableEq M] (s : Cluster M) (c : M) (cell : Cell M) :
    (s.setCell c cell s.net []).view n =
      (s.view n).set c (cell.view n) (s.view n).net := view_setCell

lemma Cluster.view_setCell_same [DecidableEq M] {s : Cluster M} {cell : Cell M}
    (h : cell.view n = (s.cells c).view n) : (s.setCell c cell s.net []).view n = s.view n := by
  rw [view_setCell_local, h]
  exact set_same (s.view n) c _

namespace RelocationState

/-- The cell has `n`: it is the authority, or it has accepted a handoff that waits for its tick. -/
def Has (s : RelocationState M) (n : NetID) (c : M) : Prop :=
  (s.cluster.cells c).stage.isLive n = true ∨ ∃ p ∈ (s.cluster.cells c).promotions, p.netID = n

def WakesSource (s : RelocationState M) (r : Relocation M) (n : NetID) :
    ClusterEvent M → Prop
  | .loop c (.cross _) =>
    c = r.srcCellID ∧ ∃ evt ∈ (s.cluster.cells c).phase.dueCrossings.head?, evt.netID = n
  | .deliver pkt _ => pkt.destCellID = r.srcCellID ∧ pkt.msg.offered n ≠ none
  | _ => False

/-- What is asked of the steps, for the netID `n` and the command `home` that takes it along.

* The handoffs are settling, and once `n` was serialised the source cell does not start a handoff of
  `n` and is not offered one.
* When entities are serialised, a promotion of `n` that is due finds `n` not live, and `n` stands
  where `home` takes it along. When `home` itself is executed, `n` is not on its way from the
  source cell to another one, and no promotion of `n` waits there for a later tick.
* The epochs of `n` stay in the window that starts at `b`.
* When the source cell is released, no other cell is handing `n` over. -/
def Careful (r : Relocation M) (n : NetID) (b : Epoch)
    (home : RelocationCommand M) (s : RelocationState M) :
    RelocationEvent M → Prop
  | .handoff ev => s.cluster.SettlingAt n b ev ∧ (s.shipped home ≠ none → ¬ s.WakesSource r n ev)
  | .execute cmd tick order half =>
    let src := s.cluster.cells r.srcCellID
    (∀ p ∈ order, p.netID = n → src.stage.isLive n = false) ∧
      (∀ slot ∈ (src.flushDuePromotesForCommit tick order).stage.lookupNetID n,
        slot.presence = .live → (cmd.selects (half slot.entity) = true ↔ cmd = home)) ∧
      (cmd = home → src.Keeps n ∧ ∀ x ∈ src.pendingPromotes, x.2.netID = n → x.1 ≤ tick)
  | .receive cmd _ => ∀ frames ∈ s.shipped cmd,
      ∀ f ∈ frames, f.networkID = n → Serial.offset b f.epoch + 1 < 0x80000000
  | .release => ∀ c, s.running c = true → c ≠ r.srcCellID → (s.cluster.cells c).Keeps n

section Decide

variable (r : Relocation M) (n : NetID) (b : Epoch) (s : RelocationState M)

instance (c : M) : Decidable (s.Has n c) :=
  inferInstanceAs (Decidable (_ ∨ ∃ p ∈ _, _))

variable [DecidableEq M]

instance (c : Cell M) : Decidable (c.Keeps n) :=
  decidable_of_iff (c.driver.inflight.lookup n = none ∧ ∀ d ∈ c.demotions, d.netID ≠ n)
    ⟨fun h => ⟨h.1, h.2⟩, fun h => ⟨h.inflight, h.demotes⟩⟩

instance WakesSource.decide (ev) : Decidable (s.WakesSource r n ev) := by
  induction ev using ClusterEvent.casesOn with
  | loop c l => induction l using LoopStep.casesOn <;> dsimp only [WakesSource] <;> infer_instance
  | _ => dsimp only [WakesSource]; infer_instance

instance Careful.decide [Fintype M] (home : RelocationCommand M) :
    ∀ ev, Decidable (s.Careful r n b home ev)
  | .handoff ev => inferInstanceAs (Decidable (
      s.cluster.SettlingAt n b ev ∧ (s.shipped home ≠ none → ¬ s.WakesSource r n ev)))
  | .execute cmd tick order half =>
    have : Decidable (∀ slot ∈ ((s.cluster.cells r.srcCellID).flushDuePromotesForCommit tick
        order).stage.lookupNetID n, slot.presence = .live →
          (cmd.selects (half slot.entity) = true ↔ cmd = home)) :=
      decideMem _ _ fun _ => inferInstance
    inferInstanceAs (Decidable (_ ∧ _ ∧ _))
  | .receive _ _ => decideMem _ _ fun _ => decidableBAll _ _
  | .release => inferInstanceAs (Decidable (
      ∀ c, s.running c = true → c ≠ r.srcCellID → (s.cluster.cells c).Keeps n))

end Decide

/-- Nothing was relocated yet, and no handoff has started: one of the running cells is the authority
over `n`. -/
structure Begins (r : Relocation M) (n : NetID) (owner : M) (b : Epoch)
    (s : RelocationState M) : Prop where
  initial : s.cluster.Initial n owner b
  owner_running : s.running owner = true
  dest_running : ∀ {cmd}, cmd ∈ r.commands → s.running cmd.destCellID = false
  shipped : ∀ cmd, s.shipped cmd = none
  ready : s.ready = []

variable {r : Relocation M} {home : RelocationCommand M}
  {s t : RelocationState M}

variable {owner c : M}

lemma Begins.absent (h : s.Begins r n owner b) (hc : s.running c = false) :
    (s.cluster.cells c).view n = blankPeer := by
  have hne : c ≠ owner := by
    rintro rfl
    simp [h.owner_running] at hc
  have hf := h.initial.fresh
  exact Peer.ext (hf.holds_other c hne) (hf.offer c) (hf.armed c) (hf.queue c) (hf.ledger c)

variable {ev : ClusterEvent M}

lemma not_wakes {act : Handover.Act M} (h : ¬ s.WakesSource r n ev)
    (hex : s.cluster.Explains n ev act) : ¬ act.Wakes r.srcCellID := by
  cases act with
  | cross c =>
    rintro rfl
    obtain ⟨⟨sent, rfl⟩, evt⟩ := hex
    exact h ⟨rfl, evt⟩
  | accept a d e =>
    rintro rfl
    obtain ⟨pkt, ackSent, rfl, hdest, he⟩ := hex
    exact h ⟨hdest, by simp [Option.mem_def.mp he]⟩
  | _ => exact id

/-- What was serialised of the authority over `n` that the source cell still is. -/
structure Copies (n : NetID) (src : Cell M) (frames : List TransferFrame) : Prop where
  epoch : ∀ f ∈ frames, f.networkID = n → src.stage.liveEpoch n = some f.epoch
  exists_of_live : src.stage.liveEpoch n ≠ none → ∃ f ∈ frames, f.networkID = n

variable {tick : UInt64}

lemma flush_dormant {c : Cell M} (order : List (PendingPromote M)) (hidle : c.phase = .idle)
    (hkeep : c.Keeps n) (hdue : ∀ x ∈ c.pendingPromotes, x.2.netID = n → x.1 ≤ tick) :
    ((c.flushDuePromotesForCommit tick order).view n).Dormant := by
  obtain ⟨b', hflush, -⟩ := Cell.flush_eq tick order hidle
  have hkeep' : (c.flushDuePromotesForCommit tick order).Keeps n := by
    refine ⟨?_, ?_⟩
    · rw [hflush]
      exact hkeep.inflight
    · rw [hflush]
      simpa [Cell.demotions, Cell.withStage, Cell.takeDuePromotes, hidle] using hkeep.demotes
  refine ⟨hkeep'.view.1, hkeep'.view.2, ?_⟩
  rw [hflush]
  simp only [Cell.view, Cell.promotions, Cell.withStage, Cell.takeDuePromotes, Phase.duePromotes,
    append_nil, Multiset.coe_eq_zero, map_eq_nil_iff, filter_eq_nil_iff,
    mem_map, mem_filter, decide_eq_true_eq]
  rintro _ ⟨x, ⟨hx, hlate⟩, rfl⟩ hid
  exact hlate (hdue x hx hid)

variable {cmd : RelocationCommand M} {half : Entity → Bool × Bool}

lemma serialized {src : Cell M} (hn : n ≠ 0) (h : src.Sane n)
    (hsel : ∀ slot ∈ src.stage.lookupNetID n, slot.presence = .live →
      (cmd.selects (half slot.entity) = true ↔ cmd = home)) :
    let frames := src.stage.serializeEntities fun e => cmd.selects (half e)
    (cmd ≠ home → ∀ f ∈ frames, f.networkID ≠ n) ∧ (cmd = home → Copies n src frames) := by
  constructor
  · intro hne f hf hid
    obtain ⟨-, e, hs, hkeep⟩ := mem_serializeEntities hn h.coherent hf hid
    exact hne ((hsel ⟨e, .live⟩ hs rfl).mp hkeep)
  intro heq
  refine ⟨fun f hf hid => (mem_serializeEntities hn h.coherent hf hid).1, fun hlive => ?_⟩
  obtain ⟨epoch, hepoch⟩ := Option.ne_none_iff_exists'.mp hlive
  exact exists_serializeEntities h.wf h.coherent hepoch fun e hs =>
    (hsel ⟨e, .live⟩ hs rfl).mpr heq

variable [DecidableEq M]

/-- Where the entity is in the relocation. -/
inductive Progress (r : Relocation M) (n : NetID) (b : Epoch)
    (home : RelocationCommand M) (s : RelocationState M) : Prop
  /-- The entities around `n` were not serialised yet. -/
  | before (hship : s.shipped home = none) (hset : Settled b (s.cluster.view n))
  /-- They were serialised, and are on their way. -/
  | underWay {frames : List TransferFrame} (hship : s.shipped home = some frames)
    (hnot : home ∉ s.ready) (hset : Settled b (s.cluster.view n))
    (hdorm : ((s.cluster.view n).peer r.srcCellID).Dormant)
    (hcopy : Copies n (s.cluster.cells r.srcCellID) frames)
  /-- They have arrived, and the copy on the source cell does not count any more. -/
  | landed (hship : s.shipped home ≠ none) (hready : home ∈ s.ready)
    (hdorm : ((s.cluster.view n).peer r.srcCellID).Dormant)
    (hset : Settled b ((s.cluster.view n).retire r.srcCellID))

structure Inv (r : Relocation M) (n : NetID) (b : Epoch)
    (home : RelocationCommand M) (s : RelocationState M) : Prop where
  sane : s.cluster.Sane n
  absent : ∀ {c}, s.running c = false → c ≠ r.srcCellID →
    (s.cluster.cells c).view n = blankPeer
  waiting : ∀ {cmd}, cmd ∈ r.commands → cmd ∉ s.ready → s.running cmd.destCellID = false
  arrived : ∀ {cmd}, cmd ∈ s.ready → s.running cmd.destCellID = true
  command : ∀ {cmd}, s.shipped cmd ≠ none → cmd ∈ r.commands
  sent : ∀ {cmd}, cmd ∈ s.ready → s.shipped cmd ≠ none
  other : ∀ {cmd frames}, s.shipped cmd = some frames → cmd ≠ home →
    ∀ f ∈ frames, f.networkID ≠ n
  progress : Progress r n b home s

lemma Begins.inv (h : s.Begins r n owner b) : Inv r n b home s where
  sane := h.initial.sane
  absent hc _ := h.absent hc
  waiting hcmd _ := h.dest_running hcmd
  arrived hcmd := by simp [h.ready] at hcmd
  command hcmd := absurd (h.shipped _) hcmd
  sent hcmd := by simp [h.ready] at hcmd
  other hcmd := by simp [h.shipped] at hcmd
  progress := .before (h.shipped home) h.initial.fresh.settled

lemma Inv.handoff {u : Cluster M} (hn : n ≠ 0) (h : Inv r n b home s)
    (hev : s.cluster.SettlingAt n b ev) (hwake : s.shipped home ≠ none → ¬ s.WakesSource r n ev)
    (hrun : ev.cell?.all s.running = true) (hstep : s.cluster.step ev = some u) :
    Inv r n b home { s with cluster := u } := by
  obtain ⟨hsane, act, hex, hact⟩ := simulation hn h.sane hev.orderlyAt hstep
  have hset := hev.settling hex
  refine { h with sane := hsane, absent := fun {c} hc hne => ?_, progress := ?_ }
  · -- nothing happens on a cell that does not run
    have hc : s.running c = false := hc
    have hcell : ev.cell? ≠ some c := by
      intro hev
      simp [hev, hc] at hrun
    have hsame : u.cells c = s.cluster.cells c := step_cells hstep hcell
    exact hsame ▸ h.absent hc hne
  · rcases h.progress
      with ⟨hship, hs⟩ | ⟨hship, hnot, hs, hdorm, hcopy⟩ | ⟨hship, hready, hdorm, hs⟩
    · exact .before hship (hs.step hset hact)
    · have hw := not_wakes (hwake (by simp [hship])) hex
      have hpeer := hact.peer_dormant hdorm hw
      have hlive : (u.cells r.srcCellID).stage.liveEpoch n =
          (s.cluster.cells r.srcCellID).stage.liveEpoch n := congrArg (·.holds) hpeer
      refine .underWay hship hnot (hs.step hset hact) (hpeer ▸ hdorm) ⟨?_, ?_⟩
      · exact hlive ▸ hcopy.epoch
      · exact hlive ▸ hcopy.exists_of_live
    · have hw := not_wakes (hwake hship) hex
      exact .landed hship hready (hact.peer_dormant hdorm hw ▸ hdorm)
        (hs.step (hset.retire hw) (hact.retire hdorm hw))

lemma settled_of_takes {cell : Cell M} (h : Settled b (s.cluster.view n))
    (ht : Cell.Takes ((s.cluster.cells c).view n) (cell.view n)) :
    Settled b ((s.cluster.setCell c cell s.cluster.net []).view n) := by
  rcases ht with hsame | ⟨e, q, hq, hold, hview⟩
  · rwa [view_setCell_same hsame]
  · rw [view_setCell_local, hview]
    have hact : Handover.Settling b (s.cluster.view n) (.take c) := trivial
    exact h.step hact (.take hq hold)

lemma Inv.execute {order : List (PendingPromote M)} (hn : n ≠ 0) (h : Inv r n b home s)
    (hcare : s.Careful r n b home (.execute cmd tick order half)) (hcmd : cmd ∈ r.commands)
    (hnew : s.shipped cmd = none) (hidle : (s.cluster.cells r.srcCellID).phase = .idle)
    (horder : order.Perm ((s.cluster.cells r.srcCellID).takeDuePromotes tick).1) :
    Inv r n b home { s with
      cluster := s.cluster.setCell r.srcCellID
        ((s.cluster.cells r.srcCellID).flushDuePromotesForCommit tick order) s.cluster.net []
      shipped := update s.shipped cmd
        (some (((s.cluster.cells r.srcCellID).flushDuePromotesForCommit tick
          order).stage.serializeEntities
          fun e => cmd.selects (half e))) } := by
  obtain ⟨hfree, hsel, hhome⟩ := hcare
  have hcard : ((s.cluster.cells r.srcCellID).view n).queue.card ≤ 1 := by
    rcases h.progress with ⟨-, hs⟩ | ⟨-, -, hs, -, -⟩ | ⟨-, -, hdorm, -⟩
    · exact hs.card_queue_le r.srcCellID
    · exact hs.card_queue_le r.srcCellID
    · rw [show ((s.cluster.cells r.srcCellID).view n).queue = 0 from hdorm.queue]
      exact Nat.zero_le 1
  obtain ⟨hsane, htakes⟩ := (h.sane.cell r.srcCellID).flush hn hidle horder hcard hfree
  have hdormant := fun hc => flush_dormant order hidle (hhome hc).1 (hhome hc).2
  generalize (s.cluster.cells r.srcCellID).flushDuePromotesForCommit tick order = src
    at hsane htakes hsel hdormant
  obtain ⟨hother, hcopy⟩ := serialized hn hsane hsel
  generalize src.stage.serializeEntities (fun e => cmd.selects (half e)) = frames at hother hcopy
  have hupd {cmd' : RelocationCommand M} (hne : cmd' ≠ cmd) :
      update s.shipped cmd (some frames) cmd' = s.shipped cmd' :=
    update_of_ne hne ..
  refine ⟨h.sane.setCell hsane saneOut_nil (List.Subset.refl _), fun {c} hc hne => ?_, h.waiting,
    h.arrived, fun {cmd'} hs => ?_, fun {cmd'} hs => ?_, fun {cmd' frames'} hs hne => ?_, ?_⟩
  · have hsame : (s.cluster.setCell r.srcCellID src s.cluster.net []).cells c = s.cluster.cells c :=
      update_of_ne hne ..
    exact hsame ▸ h.absent hc hne
  · by_cases hc : cmd' = cmd
    · exact hc ▸ hcmd
    · exact h.command (hupd hc ▸ hs)
  · have hc : cmd' ≠ cmd := by
      rintro rfl
      exact h.sent hs hnew
    exact fun hnone => h.sent hs ((hupd hc).symm.trans hnone)
  · by_cases hc : cmd' = cmd
    · subst hc
      obtain rfl : frames = frames' := by simpa using hs
      exact hother hne
    · exact h.other ((hupd hc).symm.trans hs) hne
  · have hcell : (s.cluster.setCell r.srcCellID src s.cluster.net []).cells r.srcCellID = src :=
      update_self ..
    rcases h.progress
      with ⟨hship, hs⟩ | ⟨hship, hnot, hs, hdorm, hcopy'⟩ | ⟨hship, hready, hdorm, hs⟩
    · have hs' := settled_of_takes hs htakes
      by_cases hc : cmd = home
      · subst hc
        refine .underWay (update_self ..) (fun hr => h.sent hr hship) hs' ?_ ?_
        · simpa only [view, hcell] using hdormant rfl
        · simpa only [hcell] using hcopy rfl
      · exact .before ((hupd (Ne.symm hc)).trans hship) hs'
    · have hc : home ≠ cmd := by
        rintro rfl
        simp [hship] at hnew
      have hview := htakes.eq hdorm.queue
      have hlive : src.stage.liveEpoch n = (s.cluster.cells r.srcCellID).stage.liveEpoch n :=
        congrArg (·.holds) hview
      refine .underWay ((hupd hc).trans hship) hnot ?_ ?_ ⟨?_, ?_⟩
      · rwa [view_setCell_same hview]
      · rwa [view_setCell_same hview]
      · simpa only [hcell, hlive] using hcopy'.epoch
      · simpa only [hcell, hlive] using hcopy'.exists_of_live
    · have hc : home ≠ cmd := by
        rintro rfl
        exact hship hnew
      have hview := htakes.eq hdorm.queue
      refine .landed (fun hnone => hship ((hupd hc).symm.trans hnone)) hready ?_ ?_
      · rwa [view_setCell_same hview]
      · rwa [view_setCell_same hview]

variable {b' : Stage M} {strict : Bool} {frames : List TransferFrame}

omit [DecidableEq M] in
lemma populated (ht : Stage.Tame n (new strict) b')
    (hpop : (new strict).populate [] frames = .ok b') :
    (Cell.around b').Sane n ∧
      (Cell.around b').view n = { blankPeer with holds := b'.liveEpoch n } := by
  have hrec := populate_record hpop
  have hledger := ledger_of_record (n := n) hrec
  simp only [record, Prod.mk.injEq] at hrec
  obtain ⟨-, -, hmark, hqueue⟩ := hrec
  constructor
  · refine ⟨ht.wf, ht.coherent, hmark, ?_, ?_, ?_⟩
    · simp [Cell.around, Cell.crossings, Cell.stage, hqueue, new]
    · simp [Cell.around, Cell.promotions]
    · simp [Cell.around]
  · refine Peer.ext rfl ?_ ?_ ?_ ?_
    · simp [Cell.view, Cell.around, blankPeer]
    · simp [Cell.view, Cell.around, Cell.demotions, blankPeer]
    · simp [Cell.view, Cell.around, Cell.promotions, blankPeer]
    · exact hledger.trans (by simp [ledger, new, acceptedSinceDemote, acceptedEpochs,
        blankPeer, Ledger.empty])

omit [DecidableEq M] in
lemma new_liveEpoch (strict : Bool) : (new strict : Stage M).liveEpoch n = none := rfl

omit [DecidableEq M] in
lemma populated_without (hpop : (new strict).populate [] frames = .ok b')
    (hnone : ∀ f ∈ frames, f.networkID ≠ n) :
    (Cell.around b').Sane n ∧ (Cell.around b').view n = blankPeer := by
  have hquiet := quiet_populate (n := n) (fun f hf hid => absurd hid (hnone f hf))
    (new_wf strict) (new_coherent strict) hpop
  obtain ⟨hsane, hview⟩ := populated hquiet.tame hpop
  refine ⟨hsane, ?_⟩
  rw [hview, hquiet.live]
  rfl

variable {e : Epoch}

omit [DecidableEq M] in
lemma populated_with (hn : n ≠ 0) (hpop : (new strict).populate [] frames = .ok b')
    (hsome : ∃ f ∈ frames, f.networkID = n) (hall : ∀ f ∈ frames, f.networkID = n → f.epoch = e) :
    (Cell.around b').Sane n ∧
      (Cell.around b').view n = { blankPeer with holds := some (e + 1) } := by
  obtain ⟨ht, hlive⟩ := populate_live hn hsome hall (not_mem_nil)
    (new_wf strict) (new_coherent strict) rfl hpop
  obtain ⟨hsane, hview⟩ := populated ht hpop
  exact ⟨hsane, hlive ▸ hview⟩

lemma Inv.acknowledge (h : Inv r n b home s) (hready : cmd ∈ s.ready) :
    Inv r n b home { s with ready := cmd :: s.ready } := by
  have hmem {cmd' : RelocationCommand M} : cmd' ∈ cmd :: s.ready ↔ cmd' ∈ s.ready := by
    simp only [mem_cons, or_iff_right_iff_imp]
    rintro rfl
    exact hready
  refine ⟨h.sane, h.absent, fun hcmd hnot => h.waiting hcmd (mt hmem.mpr hnot),
    fun hc => h.arrived (hmem.mp hc), h.command, fun hc => h.sent (hmem.mp hc), h.other, ?_⟩
  rcases h.progress with ⟨hship, hs⟩ | ⟨hship, hnot, hs, hdorm, hcopy⟩ | ⟨hship, hready, hdorm, hs⟩
  · exact .before hship hs
  · exact .underWay hship (mt hmem.mp hnot) hs hdorm hcopy
  · exact .landed hship (hmem.mpr hready) hdorm hs

def populateDest (s : RelocationState M) (cmd : RelocationCommand M)
    (b' : Stage M) : RelocationState M :=
  { s with
    cluster := s.cluster.setCell cmd.destCellID (.around b') s.cluster.net []
    running := update s.running cmd.destCellID true
    ready := cmd :: s.ready }

lemma Inv.populateDest (hwf : r.WF) (h : Inv r n b home s) (hcmd : cmd ∈ r.commands)
    (hship : s.shipped cmd ≠ none) (hsane : (Cell.around b').Sane n)
    (hprogress : Progress r n b home (s.populateDest cmd b')) :
    Inv r n b home (s.populateDest cmd b') := by
  refine ⟨h.sane.setCell hsane saneOut_nil (List.Subset.refl _), fun {c} hc hne => ?_,
    fun {cmd'} hcmd' hnot => ?_, fun {cmd'} hc => ?_, h.command, fun {cmd'} hc => ?_, h.other,
    hprogress⟩
  · have hcd : c ≠ cmd.destCellID := by
      rintro rfl
      simp [RelocationState.populateDest] at hc
    have hsame : (s.populateDest cmd b').cluster.cells c = s.cluster.cells c :=
      update_of_ne hcd ..
    rw [hsame]
    exact h.absent (by simpa [RelocationState.populateDest, hcd] using hc) hne
  · obtain ⟨hne, hnot⟩ := not_or.mp (mt mem_cons.mpr hnot)
    have hcd : cmd'.destCellID ≠ cmd.destCellID := fun heq => hne (hwf.dest_inj hcmd' hcmd heq)
    simpa [RelocationState.populateDest, hcd] using h.waiting hcmd' hnot
  · by_cases hcd : cmd'.destCellID = cmd.destCellID
    · simp [RelocationState.populateDest, hcd]
    · rcases mem_cons.mp hc with rfl | hc
      · exact absurd rfl hcd
      · simpa [RelocationState.populateDest, hcd] using h.arrived hc
  · rcases mem_cons.mp hc with rfl | hc
    · exact hship
    · exact h.sent hc

lemma Progress.populate_without (h : Inv r n b home s) (hdest : cmd.destCellID ≠ r.srcCellID)
    (hship : s.shipped cmd = some frames) (hstop : s.running cmd.destCellID = false)
    (hnone : ∀ f ∈ frames, f.networkID ≠ n) (hview : (Cell.around b').view n = blankPeer) :
    Progress r n b home (s.populateDest cmd b') := by
  have hsame : (s.populateDest cmd b').cluster.view n = s.cluster.view n :=
    view_setCell_same (hview.trans (h.absent hstop hdest).symm)
  have hcell : (s.populateDest cmd b').cluster.cells r.srcCellID = s.cluster.cells r.srcCellID :=
    update_of_ne hdest.symm ..
  rcases h.progress with ⟨hs₀, hs⟩ | ⟨hs₀, hnot, hs, hdorm, hcopy⟩ | ⟨hs₀, hready, hdorm, hs⟩
  · exact .before hs₀ (hsame ▸ hs)
  · by_cases hc : home = cmd
    · -- the source cell does not have `n` either
      subst hc
      obtain rfl : frames = _ := Option.some.inj (hship.symm.trans hs₀)
      have hlive : ((s.cluster.view n).peer r.srcCellID).holds = none := by
        by_contra hne
        obtain ⟨f, hf, hid⟩ := hcopy.exists_of_live hne
        exact hnone f hf hid
      refine .landed (by simp [RelocationState.populateDest, hship]) mem_cons_self
        (hsame ▸ hdorm) ?_
      rw [hsame, retire_of_none hlive]
      exact hs
    · exact .underWay hs₀ (by simp [RelocationState.populateDest, hc, hnot]) (hsame ▸ hs)
        (hsame ▸ hdorm)
        (hcell ▸ hcopy)
  · exact .landed hs₀ (mem_cons_of_mem _ hready) (hsame ▸ hdorm) (hsame ▸ hs)

lemma Progress.populate_with (h : Inv r n b home s) (hdest : home.destCellID ≠ r.srcCellID)
    (hship : s.shipped home = some frames) (hnot : home ∉ s.ready)
    (hstop : s.running home.destCellID = false)
    (hlive : (s.cluster.cells r.srcCellID).stage.liveEpoch n = some e)
    (hwin : Serial.offset b e + 1 < 0x80000000)
    (hview : (Cell.around b').view n = { blankPeer with holds := some (e + 1) }) :
    Progress r n b home (s.populateDest home b') := by
  have hblank : (s.cluster.view n).peer home.destCellID = blankPeer := h.absent hstop hdest
  have hset : (s.populateDest home b').cluster.view n = (s.cluster.view n).set home.destCellID
      { (s.cluster.view n).peer home.destCellID with holds := some (e + 1) }
        (s.cluster.view n).net := by
    rw [hblank, ← hview]
    exact view_setCell_local ..
  have hpeer : ((s.populateDest home b').cluster.view n).peer r.srcCellID =
      (s.cluster.view n).peer r.srcCellID := by
    rw [hset, set_peer_of_ne hdest.symm]
  rcases h.progress with ⟨hs₀, -⟩ | ⟨-, -, hs, hdorm, -⟩ | ⟨-, hready, -, -⟩
  · simp [hship] at hs₀
  · refine .landed (by simp [RelocationState.populateDest, hship]) mem_cons_self (hpeer ▸ hdorm) ?_
    rw [hset, retire_set_of_ne hdest]
    exact hs.relocate hdest hlive hdorm (hblank ▸ ⟨rfl, rfl, rfl⟩) hwin
  · exact absurd hready hnot

lemma Inv.receive (hn : n ≠ 0) (hwf : r.WF) (h : Inv r n b home s)
    (hwin : ∀ f ∈ frames, f.networkID = n → Serial.offset b f.epoch + 1 < 0x80000000)
    (hship : s.shipped cmd = some frames) (hstep : s.receive cmd strict frames = some t) :
    Inv r n b home t := by
  have hcmd : cmd ∈ r.commands := h.command (by simp [hship])
  have hdest := hwf.dest_ne hcmd
  rw [RelocationState.receive] at hstep
  split at hstep
  · rename_i hrunning
    cases hstep
    refine h.acknowledge ?_
    by_contra hnot
    simp [h.waiting hcmd hnot] at hrunning
  · rename_i hstop
    have hstop : s.running cmd.destCellID = false := by simpa using hstop
    have hnot : cmd ∉ s.ready := fun hr => by simp [h.arrived hr] at hstop
    split at hstep
    · rename_i b' hpop
      cases hstep
      by_cases hsome : ∃ f ∈ frames, f.networkID = n
      · -- what brings `n` was sent for `home`, and is a copy of the source cell's authority
        obtain ⟨f, hf, hid⟩ := hsome
        obtain rfl : cmd = home := by
          by_contra hne
          exact h.other hship hne f hf hid
        have hcopy : Copies n (s.cluster.cells r.srcCellID) frames := by
          rcases h.progress with ⟨hs₀, -⟩ | ⟨hs₀, -, -, -, hcopy⟩ | ⟨-, hready, -, -⟩
          · simp [hship] at hs₀
          · obtain rfl := Option.some.inj (hship.symm.trans hs₀)
            exact hcopy
          · exact absurd hready hnot
        have hlive := hcopy.epoch f hf hid
        obtain ⟨hsane, hview⟩ := populated_with hn hpop ⟨f, hf, hid⟩ fun f' hf' hid' =>
          Option.some.inj ((hcopy.epoch f' hf' hid').symm.trans hlive)
        exact h.populateDest hwf hcmd (by simp [hship]) hsane
          (.populate_with h hdest hship hnot hstop hlive (hwin f hf hid) hview)
      · have hnone : ∀ f ∈ frames, f.networkID ≠ n := fun f hf hid => hsome ⟨f, hf, hid⟩
        obtain ⟨hsane, hview⟩ := populated_without hpop hnone
        exact h.populateDest hwf hcmd (by simp [hship]) hsane
          (.populate_without h hdest hship hstop hnone hview)
    · cases hstep

theorem Inv.step {ev : RelocationEvent M} (hn : n ≠ 0) (hwf : r.WF) (h : Inv r n b home s)
    (hev : s.Careful r n b home ev) (hstep : step r s ev = some t) : Inv r n b home t := by
  cases ev with
  | handoff ev =>
    rw [RelocationState.step] at hstep
    split at hstep
    · rename_i hrun
      obtain ⟨u, hu, rfl⟩ := Option.map_eq_some_iff.mp hstep
      exact h.handoff hn hev.1 hev.2 hrun hu
    · cases hstep
  | execute cmd tick order half =>
    simp only [RelocationState.step] at hstep
    split at hstep
    · rename_i hok
      obtain ⟨hcmd, hnew, -, hidle, horder⟩ := hok
      cases hstep
      exact h.execute hn hev hcmd hnew hidle (isPerm_iff.mp horder)
    · cases hstep
  | receive cmd strict =>
    rw [RelocationState.step] at hstep
    split at hstep
    · rename_i frames hship
      exact h.receive hn hwf (hev frames hship) hship hstep
    · cases hstep
  | release =>
    rw [RelocationState.step] at hstep
    split at hstep
    · cases hstep
      have hrun {c : M} (hne : c ≠ r.srcCellID) :
          update s.running r.srcCellID false c = s.running c := update_of_ne hne ..
      refine ⟨h.sane, fun hc hne => h.absent ((hrun hne).symm.trans hc) hne, fun hcmd hnot => ?_,
        fun hc => ?_, h.command, h.sent, h.other, ?_⟩
      · exact (hrun (hwf.dest_ne hcmd)).trans (h.waiting hcmd hnot)
      · exact (hrun (hwf.dest_ne (h.command (h.sent hc)))).trans (h.arrived hc)
      rcases h.progress with ⟨h₁, h₂⟩ | ⟨h₁, h₂, h₃, h₄, h₅⟩ | ⟨h₁, h₂, h₃, h₄⟩
      · exact .before h₁ h₂
      · exact .underWay h₁ h₂ h₃ h₄ h₅
      · exact .landed h₁ h₂ h₃ h₄
    · cases hstep

omit [DecidableEq M] in
lemma has_iff (h : s.cluster.Sane n) (c : M) :
    s.Has n c ↔ ((s.cluster.view n).peer c).holds ≠ none ∨
      ((s.cluster.view n).peer c).queue ≠ 0 := by
  have hqueue : ((s.cluster.view n).peer c).queue ≠ 0 ↔
      ∃ p ∈ (s.cluster.cells c).promotions, p.netID = n := by
    simp [view, Cell.view, filter_eq_nil_iff]
  rw [Has, hqueue, isLive_iff_liveEpoch (h.cell c).coherent]
  rfl

lemma Inv.has_iff_place (h : Inv r n b home s)
    (hdorm : ((s.cluster.view n).peer r.srcCellID).Dormant) (c : M) :
    (((s.cluster.view n).retire r.srcCellID).peer c).holds ≠ none ∨
        (((s.cluster.view n).retire r.srcCellID).peer c).queue ≠ 0 ↔
      (c ≠ r.srcCellID ∧ s.running c = true) ∧ s.Has n c := by
  by_cases hc : c = r.srcCellID
  · subst hc
    simp [hdorm.queue]
  rw [retire_peer_of_ne hc, has_iff h.sane]
  refine ⟨fun hplace => ⟨⟨hc, ?_⟩, hplace⟩, fun hplace => hplace.2⟩
  -- a cell that does not run has nothing
  by_contra hstop
  have hblank : (s.cluster.view n).peer c = blankPeer := h.absent (by simpa using hstop) hc
  simp [hblank, blankPeer] at hplace

/-- **A split or a migration keeps every entity, if it does not meet a handoff**: when the source
cell is released, exactly one of the other cells has `n`. -/
theorem relocation_conserves {owner : M} {u : RelocationState M} (hwf : r.WF)
    (hhome : home ∈ r.commands) (h₀ : s.Begins r n owner b)
    (h : Run (Steps (step r)) (Careful r n b home) s t) (hcare : t.Careful r n b home .release)
    (hrelease : step r t .release = some u) : ∃! c, u.running c = true ∧ u.Has n c := by
  have hn := h₀.initial.netID_ne
  have ht : Inv r n b home t := Run.invariant (I := Inv r n b home) h₀.inv
    (fun hi hk hs => hi.step hn hwf hk hs) h
  rw [RelocationState.step] at hrelease
  split at hrelease
  · rename_i hall
    cases hrelease
    rcases ht.progress with ⟨hs₀, -⟩ | ⟨-, hnot, -, -, -⟩ | ⟨-, -, hdorm, hset⟩
    · exact absurd hs₀ (ht.sent (hall.1 home hhome))
    · exact absurd (hall.1 home hhome) hnot
    have hcalm (c : M) : ((t.cluster.view n).peer c).offer = none ∧
        ((t.cluster.view n).peer c).armed = 0 := by
      by_cases hc : c = r.srcCellID
      · exact hc ▸ ⟨hdorm.offer, hdorm.armed⟩
      by_cases hrun : t.running c = true
      · exact (hcare c hrun hc).view
      · have hblank : (t.cluster.view n).peer c = blankPeer := ht.absent (by simpa using hrun) hc
        simp [hblank, blankPeer]
    have hplace := hset.unique_place
      (fun c => (retire_congr Peer.offer fun _ => rfl).trans (hcalm c).1)
      (fun c => (retire_congr Peer.armed fun _ => rfl).trans (hcalm c).2)
    have hrun (c : M) : update t.running r.srcCellID false c = true ↔
        c ≠ r.srcCellID ∧ t.running c = true := by
      by_cases hc : c = r.srcCellID <;> simp [hc]
    simp only [ht.has_iff_place hdorm, ← hrun] at hplace
    exact hplace
  · cases hrelease

/-! ### A migration of three cells -/

inductive ThreeCells
  | neighbor
  | source
  | dest
deriving DecidableEq

open ThreeCells

instance : Fintype ThreeCells where
  elems := {neighbor, source, dest}
  complete c := by cases c <;> decide

def threeCells : RelocationState ThreeCells where
  cluster :=
    { cells := fun c =>
        if c = neighbor then .around ((new true).spawnLiveFromTransfer 0 ⟨7, 0⟩).2
        else .around (new true)
      net := [] }
  running c := c != dest
  shipped _ := none
  ready := []

def migration : Relocation ThreeCells := .migrate source dest

lemma migration_wf : migration.WF := by
  refine ⟨?_, ?_⟩
  · simp [migration, Relocation.commands]
  · simp [migration, Relocation.commands, Relocation.srcCellID]

lemma around_atRest {b' : Stage ThreeCells} (h : b'.record = (new true).record) :
    (Cell.around b').AtRest := by
  simp only [record, Prod.mk.injEq] at h
  obtain ⟨hacc, hlog, hmark, hqueue⟩ := h
  exact ⟨rfl, rfl, rfl, rfl, hqueue, hmark, hacc, hlog⟩

lemma threeCells_begins : threeCells.Begins migration 7 neighbor 0 := by
  have hwf : (new true : Stage ThreeCells).WF := new_wf true
  obtain ⟨b', hspawn, htame, hlive⟩ := spawnLive_of_free (n := 7) 0 ⟨7, 0⟩ hwf
    (new_coherent true) (by decide) rfl rfl
  have hrec : b'.record = (new true).record := by
    have h : ((new true : Stage ThreeCells).spawnLiveFromTransfer 0 ⟨7, 0⟩).2.record =
      (new true).record := spawnLiveFromTransfer_record
    rwa [hspawn] at h
  have hcell : threeCells.cluster.cells neighbor = .around b' := by simp [threeCells, hspawn]
  have hother {c : ThreeCells} (hc : c ≠ neighbor) : threeCells.cluster.cells c =
    .around (new true) := by
    simp [threeCells, hc]
  refine ⟨⟨by decide, fun c => ?_, fun c => ?_, fun c => ?_, rfl, hcell ▸ hlive, fun c hc => ?_⟩,
    rfl, ?_, fun _ => rfl, rfl⟩
  · by_cases hc : c = neighbor
    · exact hc ▸ hcell ▸ htame.wf
    · exact hother hc ▸ new_wf true
  · by_cases hc : c = neighbor
    · exact hc ▸ hcell ▸ htame.coherent
    · exact hother hc ▸ new_coherent true
  · by_cases hc : c = neighbor
    · exact hc ▸ hcell ▸ around_atRest hrec
    · exact hother hc ▸ around_atRest rfl
  · exact hother hc ▸ rfl
  · simp [migration, Relocation.commands, threeCells]

def tickOf (c : ThreeCells) (tick : UInt64) (demotes : List (PendingDemote ThreeCells))
    (crossings : List Bool) : List (RelocationEvent ThreeCells) :=
  (flatten [[.loop c (.beginTick tick []), .loop c (.beginRetries []),
    .loop c (.beginDemotes demotes)], demotes.map fun _ =>
      .loop c .demote, [.loop c .beginCrossings],
    crossings.map fun sent => .loop c (.cross sent), [.loop c .endTick]]).map .handoff

def acceptForLater : List (RelocationEvent ThreeCells) :=
  .handoff (.queueCrossing neighbor ⟨0, 7, 0, source, false⟩) :: (tickOf neighbor 10 [] [true] ++
    [.handoff (.deliver ⟨neighbor, source, .handoff ⟨7, 1, 12, ⟨7, 1⟩, 0⟩⟩ true)])

def demoteAtTwelve : List (RelocationEvent ThreeCells) :=
  .handoff (.deliver ⟨source, neighbor, .handoffAccepted ⟨7, 1, 12⟩⟩ true) ::
    tickOf neighbor 12 [⟨7, source, 0⟩] []

def migrateAt (tick : UInt64) (order : List (PendingPromote ThreeCells)) :
    List (RelocationEvent ThreeCells) :=
  [.execute ⟨dest, none⟩ tick order fun _ => (false, false), .receive ⟨dest, none⟩ true]

theorem relocation_conserves_due :
    ∃ t u, Run (Steps (step migration)) (Careful migration 7 0 ⟨dest, none⟩) threeCells t ∧
      step migration t .release = some u ∧ ∃! c, u.running c = true ∧ u.Has 7 c := by
  obtain ⟨t, hrun, hcare, hsome⟩ := exists_run (s := threeCells) (step migration)
    (Careful migration 7 0 ⟨dest, none⟩)
    (fun t => t.Careful migration 7 0 ⟨dest, none⟩ .release ∧
      (step migration t .release).isSome = true)
    (acceptForLater ++ demoteAtTwelve ++ migrateAt 12 [⟨7, 1, ⟨7, 1⟩, 0, neighbor⟩])
      (by decide +kernel)
  obtain ⟨u, hu⟩ := Option.isSome_iff_exists.mp hsome
  exact ⟨t, u, hrun, hu,
    relocation_conserves migration_wf (by decide) threeCells_begins hrun hcare hu⟩

/-- The handoffs of `n` are settling; nothing is asked of the relocation. -/
def HandoffsSettle (n : NetID) (b : Epoch) (s : RelocationState M) :
    RelocationEvent M → Prop
  | .handoff ev => s.cluster.SettlingAt n b ev
  | _ => True

instance (n : NetID) (b : Epoch) (s : RelocationState M) (ev) :
    Decidable (s.HandoffsSettle n b ev) := by
  cases ev <;> dsimp only [HandoffsSettle] <;> infer_instance

/-- **A handoff that the source cell has accepted for a later tick is lost with it.** The
source cell is migrated at the tick `10`, and the promotion waits for the tick `12`; the neighbour
demotes, and the source cell is released. -/
theorem relocation_loses_promote : threeCells.Begins migration 7 neighbor 0 ∧
    ∃ s, Run (Steps (step migration)) (HandoffsSettle 7 0) threeCells s ∧ s.Has 7 source ∧
      ∃ t, Run (Steps (step migration)) (HandoffsSettle 7 0) s t ∧ t.running source = false ∧
        ∀ c, t.running c = true → ¬ t.Has 7 c := by
  refine ⟨threeCells_begins, ?_⟩
  obtain ⟨s, hrun, hhas, hlater⟩ := exists_run (s := threeCells) (step migration)
    (HandoffsSettle 7 0) (fun s => s.Has 7 source ∧
      ((execute (step migration) (HandoffsSettle 7 0) s
        (migrateAt 10 [] ++ demoteAtTwelve ++ [.release])).any fun t =>
          t.running source = false ∧ ∀ c, t.running c = true → ¬ t.Has 7 c) = true)
    acceptForLater (by decide +kernel)
  exact ⟨s, hrun, hhas, exists_run _ _ _ _ hlater⟩

end RelocationState

end Mmokit
