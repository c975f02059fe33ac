/-
Every step of a cluster is a step of the handover protocol.
-/
import Mmokit.Universe.CellRefinement

namespace Mmokit

open List List.Subset Cell

namespace Cluster

variable {M : Type*} {n : NetID} {s t : Cluster M} {c : M}
  {ev : ClusterEvent M} {cell : Cell M}
  {net : List (Packet M)} {out : List (M × CellMessage)}

/-! ### The network -/

lemma netView_mono {net' : List (Packet M)} (h : net' ⊆ net) : netView n net' ⊆ netView n net := by
  rintro p ⟨pkt, hpkt, hp⟩
  exact ⟨pkt, h hpkt, hp⟩

lemma netView_silent (hout : Cell.Silent n out) (hnet : net ⊆ s.net) :
    netView n (out.map (fun x => ⟨c, x.1, x.2⟩) ++ net) ⊆ netView n s.net := by
  rintro p ⟨pkt, hpkt, hp⟩
  rcases mem_append.mp hpkt with hpkt | hpkt
  · obtain ⟨x, hx, rfl⟩ := mem_map.mp hpkt
    rw [hout x hx c] at hp
    cases hp
  · exact ⟨pkt, hnet hpkt, hp⟩

lemma netView_single (d : M) (msg : CellMessage) {p : Handover.Packet M}
    (hp : (⟨c, d, msg⟩ : Packet M).view n = some p) (hout : ∀ x ∈ out, x = (d, msg))
    (hnet : net ⊆ s.net) :
    netView n (out.map (fun x => ⟨c, x.1, x.2⟩) ++ net) ⊆ insert p (netView n s.net) := by
  rintro q ⟨pkt, hpkt, hq⟩
  rcases mem_append.mp hpkt with hpkt | hpkt
  · obtain ⟨x, hx, rfl⟩ := mem_map.mp hpkt
    obtain rfl := hout x hx
    rw [hp] at hq
    exact .inl (Option.some.inj hq).symm
  · exact .inr ⟨pkt, hnet hpkt, hq⟩

/-! ### Changing one cell -/

section Events

variable [DecidableEq M]

lemma view_setCell : (s.setCell c cell net out).view n =
    (s.view n).set c (cell.view n) (netView n (out.map (fun x => ⟨c, x.1, x.2⟩) ++ net)) := by
  refine Handover.Config.ext (funext fun c' => ?_) rfl
  by_cases hc : c' = c
  · subst hc
    simp [view, setCell]
  · simp [view, setCell, hc]

lemma Sane.setCell (hs : s.Sane n) (hcell : cell.Sane n) (hout : SaneOut out)
    (hnet : net ⊆ s.net) : (s.setCell c cell net out).Sane n where
  cell c' := by
    by_cases hc : c' = c
    · subst hc
      simpa [Cluster.setCell] using hcell
    · simpa [Cluster.setCell, hc] using hs.cell c'
  net pkt hpkt p hp := by
    rcases mem_append.mp hpkt with hpkt | hpkt
    · obtain ⟨x, hx, rfl⟩ := mem_map.mp hpkt
      exact hout x hx p hp
    · exact hs.net pkt (hnet hpkt) p hp

def Explains (s : Cluster M) (n : NetID) (ev : ClusterEvent M) :
    Handover.Act M → Prop
  | .cross c => (∃ sent, ev = .loop c (.cross sent)) ∧
      ∃ evt ∈ (s.cells c).phase.dueCrossings.head?, evt.netID = n
  | .abandon c => ev = .loop c (.retry false) ∧ n ∈ (s.cells c).phase.dueRetries.head?
  | .accept _ d e => ∃ pkt ackSent, ev = .deliver pkt ackSent ∧ pkt.destCellID = d ∧
      e ∈ pkt.msg.offered n
  | .absorb _ => False
  | _ => True

/-- The event takes `s` to a sane cluster, by a step of the protocol that it explains. -/
def Simulates (n : NetID) (s : Cluster M) (ev : ClusterEvent M)
    (t : Cluster M) : Prop :=
  t.Sane n ∧ ∃ act, s.Explains n ev act ∧ Handover.Step (s.view n) act (t.view n)

lemma set_same (s : Handover.Config M) (c : M) (net : Set (Handover.Packet M)) :
    s.set c (s.peer c) net = ⟨s.peer, net⟩ := by
  simp [Handover.Config.set]

lemma simulates_quiet (hs : s.Sane n) (hcell : cell.Sane n ∧ cell.view n = (s.cells c).view n)
    (hout : SaneOut out) (hsilent : Cell.Silent n out) (hnet : net ⊆ s.net) :
    Simulates n s ev (s.setCell c cell net out) := by
  refine ⟨hs.setCell hcell.1 hout hnet, .lose, trivial, ?_⟩
  rw [view_setCell, hcell.2]
  exact set_same (s.view n) c _ ▸ .lose (netView_silent hsilent hnet)

lemma simulates_local (act : Handover.Act M) (hs : s.Sane n) (hcell : cell.Sane n)
    (hex : s.Explains n ev act)
    (hstep : Handover.Step (s.view n) act ((s.view n).set c (cell.view n) (s.view n).net)) :
    Simulates n s ev (s.setCell c cell s.net []) := by
  refine ⟨hs.setCell hcell saneOut_nil (refl _), act, hex, ?_⟩
  rw [view_setCell]
  exact hstep

/-! ### The loop of a cell -/

variable {tick : UInt64}

lemma simulates_promote (hn : n ≠ 0) (hs : s.Sane n) {p : PendingPromote M}
    {rest : List (PendingPromote M)} (hphase : (s.cells c).phase = .promotes tick (p :: rest))
    (hlive : p.netID = n → (s.cells c).stage.isLive n = false) :
    Simulates n s (.loop c .promote)
      (s.setCell c { (s.cells c).promoteOne p with phase := .promotes tick rest } s.net []) := by
  obtain ⟨hcell, hsame | ⟨q, hqueue, hhold, htake⟩⟩ := (hs.cell c).promote hn hphase hlive
  · exact simulates_quiet hs ⟨hcell, hsame⟩ saneOut_nil silent_nil (refl _)
  · refine simulates_local (.take c) hs hcell trivial ?_
    rw [htake]
    exact .take hqueue hhold

variable {sent : Bool} {hd : HandoffDriver M}

lemma simulates_retry (hs : s.Sane n) {m : NetID} {rest : List NetID}
    (hphase : (s.cells c).phase = .retries tick (m :: rest))
    (hr : (s.cells c).driver.retryOne tick m sent = (hd, out)) :
    Simulates n s (.loop c (.retry sent))
      (s.setCell c { s.cells c with driver := hd, phase := .retries tick rest } s.net out) := by
  obtain ⟨hcell, hout, ⟨hview, hmsg⟩ | ⟨rfl, hnil, ⟨h, hl⟩, hwhy, hdrop⟩⟩ :=
    (hs.cell c).retry hphase hr
  · rcases hmsg with hsilent | ⟨d, e, p, hoffer, heq, hpid, hpep⟩
    · exact simulates_quiet hs ⟨hcell, hview⟩ hout hsilent (refl _)
    -- the offer goes out once more
    refine ⟨hs.setCell hcell hout (refl _), .resend c, trivial, ?_⟩
    rw [view_setCell, hview]
    refine set_same (s.view n) c _ ▸ .resend hoffer
      (netView_single d (.handoff p) ?_ ?_ (refl _))
    · simp [Packet.view, hpid, hpep]
    · simp [heq]
  · rw [hnil]
    rcases hwhy with hhold | hsent
    · refine simulates_local (.expire c) hs hcell trivial ?_
      rw [hdrop]
      exact .expire hhold
    · refine simulates_local (.abandon c) hs hcell ⟨by rw [hsent], by simp [hphase]⟩ ?_
      rw [hdrop]
      exact .abandon (d := h.destCellID) (e := h.epoch) (by simp [view, Cell.view, hl])

lemma simulates_demote (hs : s.Sane n) {d : PendingDemote M} {rest : List (PendingDemote M)}
    (hphase : (s.cells c).phase = .demotes tick (d :: rest)) :
    Simulates n s (.loop c .demote)
      (s.setCell c { s.cells c with
          driver := (s.cells c).driver.demoteOne d, phase := .demotes tick rest } s.net []) := by
  obtain ⟨hcell, hsame | ⟨k, hk, ⟨hhold, hrel⟩ | ⟨hhold, hrel⟩⟩⟩ := (hs.cell c).demote hphase
  · exact simulates_quiet hs ⟨hcell, hsame⟩ saneOut_nil silent_nil (refl _)
  · refine simulates_local (.release c) hs hcell trivial ?_
    rw [hrel]
    exact .release hk hhold
  · refine simulates_local (.release c) hs hcell trivial ?_
    rw [hrel]
    exact .disarm hk hhold

lemma simulates_cross (hn : n ≠ 0) (hs : s.Sane n) {evt : CrossingEvent M}
    {rest : List (CrossingEvent M)} (hphase : (s.cells c).phase = .crossings tick (evt :: rest))
    (hr : (s.cells c).driver.handleCrossing evt tick sent = (hd, out)) :
    Simulates n s (.loop c (.cross sent))
      (s.setCell c { s.cells c with driver := hd, phase := .crossings tick rest } s.net out) := by
  obtain ⟨hcell, hout, ⟨hview, hsilent⟩ | ⟨hevt, e, d, p, hhold, hidle, hcalm, heq, hpid,
      hpep, hcross⟩⟩ :=
    (hs.cell c).cross hn hphase hr
  · exact simulates_quiet hs ⟨hcell, hview⟩ hout hsilent (refl _)
  refine ⟨hs.setCell hcell hout (refl _), .cross c,
    ⟨⟨sent, rfl⟩, evt, by simp [hphase], hevt⟩, ?_⟩
  rw [view_setCell, hcross]
  refine .cross hhold hidle hcalm (netView_single d (.handoff p) ?_ ?_
    (refl _))
  · simp [Packet.view, hpid, hpep]
  · simp [heq]

variable {b : Epoch}

lemma simulates_loop (hn : n ≠ 0) (hs : s.Sane n) {l : LoopStep M}
    {r : Cell M × List (M × CellMessage)} (hord : s.OrderlyAt n b (.loop c l))
    (h : (s.cells c).loop l = some r) : Simulates n s (.loop c l) (s.setCell c r.1 s.net r.2) := by
  have hquiet {cell : Cell M}
      (hcell : cell.Sane n ∧ cell.view n = (s.cells c).view n) :
      Simulates n s (.loop c l) (s.setCell c cell s.net []) :=
    simulates_quiet hs hcell saneOut_nil silent_nil (refl _)
  cases l with
  | beginTick tick order =>
    simp only [loop] at h
    split at h
    · rename_i hphase
      split at h
      · rename_i horder
        cases h
        exact hquiet ((hs.cell c).beginTick hphase (isPerm_iff.mp horder))
      · cases h
    · cases h
  | promote =>
    simp only [loop] at h
    split at h
    · rename_i tick p rest hphase
      cases h
      exact simulates_promote hn hs hphase (hord p (by simp [hphase]))
    · cases h
  | beginRetries order =>
    simp only [loop] at h
    split at h
    · rename_i tick hphase
      split at h
      · cases h
        exact hquiet ((hs.cell c).drain (by simp [hphase]) (by simp [hphase]) (nil_subset _))
      split at h
      · cases h
        exact hquiet ((hs.cell c).beginRetries hphase)
      · cases h
    · cases h
  | retry sent =>
    simp only [loop] at h
    split at h
    · rename_i tick m rest hphase
      cases h
      exact simulates_retry hs hphase rfl
    · cases h
  | beginDemotes order =>
    simp only [loop] at h
    split at h
    · rename_i tick hphase
      split at h
      · rename_i horder
        cases h
        exact hquiet ((hs.cell c).beginDemotes hphase (isPerm_iff.mp horder))
      · cases h
    · cases h
  | demote =>
    simp only [loop] at h
    split at h
    · rename_i tick d rest hphase
      cases h
      exact simulates_demote hs hphase
    · cases h
  | beginCrossings =>
    simp only [loop] at h
    split at h
    · rename_i tick hphase
      cases h
      exact hquiet ((hs.cell c).drain (by simp [hphase]) (by simp [hphase])
        (refl _))
    · cases h
  | cross sent =>
    simp only [loop] at h
    split at h
    · rename_i tick evt rest hphase
      cases h
      exact simulates_cross hn hs hphase rfl
    · cases h
  | endTick =>
    simp only [loop] at h
    split at h
    · rename_i tick hphase
      cases h
      exact hquiet ((hs.cell c).endTick hphase)
    · cases h

variable {pkt : Packet M} {ackSent : Bool}

lemma simulates_handoff (hs : s.Sane n) {p : HandoffPayload} (hin : pkt ∈ s.net)
    (hmsg : pkt.msg = .handoff p) :
    Simulates n s (.deliver pkt ackSent)
      (s.setCell pkt.destCellID
        ((s.cells pkt.destCellID).processHandoff pkt.fromCellID p ackSent).1 (s.net.erase pkt)
        ((s.cells pkt.destCellID).processHandoff pkt.fromCellID p ackSent).2) := by
  have hsub : s.net.erase pkt ⊆ s.net := erase_subset
  have hp : p.Sane := hs.net pkt hin p hmsg
  have hcell := hs.cell pkt.destCellID
  generalize hc : s.cells pkt.destCellID = cell at hcell
  -- an answer that is not about `n` is not seen
  have hackOut (out : List (M × CellMessage)) (hout : ∀ x ∈ out,
      x = (pkt.fromCellID, .handoffAccepted ⟨p.netID, p.epoch, p.commitTick⟩)) :
      SaneOut out ∧ (p.netID ≠ n → Cell.Silent n out) := by
    constructor
    · intro x hx q hq
      rw [hout x hx] at hq
      cases hq
    · intro hne x hx c
      simp [hout x hx, Packet.view, hne]
  have hoffer (hpn : p.netID = n) :
      .offer pkt.fromCellID pkt.destCellID p.epoch ∈ (s.view n).net :=
    ⟨pkt, hin, by simp [Packet.view, hmsg, hpn]⟩
  have hack (hpn : p.netID = n) : (⟨pkt.destCellID, pkt.fromCellID,
      .handoffAccepted ⟨p.netID, p.epoch, p.commitTick⟩⟩ : Packet M).view n =
        some (.accept pkt.destCellID pkt.fromCellID p.epoch) := by
    simp [Packet.view, hpn]
  rcases cell.processHandoff_cases pkt.fromCellID p ackSent with
    ⟨hold, hsame, hout⟩ | heq | ⟨hnew, heq⟩
  · obtain ⟨hsaneOut, hsilent⟩ := hackOut _ hout
    rw [hsame]
    by_cases hpn : p.netID = n
    · refine ⟨hs.setCell hcell hsaneOut hsub, .reack pkt.fromCellID pkt.destCellID p.epoch,
        trivial, ?_⟩
      rw [view_setCell, ← hc]
      refine set_same (s.view n) pkt.destCellID _ ▸ .reack (hoffer hpn) ?_
        (netView_single _ _ (hack hpn) (hc ▸ hout) hsub)
      exact Stage.alreadyAccepted_iff.mp (hpn ▸ hc ▸ hold)
    · exact simulates_quiet hs ⟨hcell, hc ▸ rfl⟩ hsaneOut (hsilent hpn) hsub
  · rw [heq]
    exact simulates_quiet hs ⟨hcell, hc ▸ rfl⟩ saneOut_nil silent_nil hsub
  · obtain ⟨hsaneOut, hsilent⟩ := hackOut [_] fun x hx => mem_singleton.mp hx
    rw [heq]
    by_cases hpn : p.netID = n
    · refine ⟨hs.setCell (hcell.accepting hp) hsaneOut hsub,
        .accept pkt.fromCellID pkt.destCellID p.epoch,
        ⟨pkt, ackSent, rfl, rfl, by simp [CellMessage.offered, hmsg, hpn]⟩, ?_⟩
      rw [view_setCell, accepting_view hnew hpn, ← hc]
      refine .accept (hoffer hpn) ?_ (netView_single _ _ (hack hpn) (by simp) hsub)
      intro hknows
      have := Stage.alreadyAccepted_iff.mpr hknows
      rw [hc, ← hpn, hnew] at this
      cases this
    · exact simulates_quiet hs ⟨hcell.accepting hp, hc ▸ accepting_view_of_ne hpn⟩ hsaneOut
        (hsilent hpn) hsub

lemma simulates_accepted (hs : s.Sane n) {ack : HandoffAckPayload} (hin : pkt ∈ s.net)
    (hmsg : pkt.msg = .handoffAccepted ack) :
    Simulates n s (.deliver pkt ackSent)
      (s.setCell pkt.destCellID { s.cells pkt.destCellID with
          driver := (s.cells pkt.destCellID).driver.onHandoffAccepted ack.netID ack.epoch
            ack.commitTick pkt.fromCellID } (s.net.erase pkt) []) := by
  have hsub : s.net.erase pkt ⊆ s.net := erase_subset
  rcases onHandoffAccepted_cases (c := s.cells pkt.destCellID) ack.netID ack.epoch
    ack.commitTick pkt.fromCellID with hsame | ⟨h, hl, hepoch, hdest, heq⟩
  · rw [hsame]
    exact simulates_quiet hs ⟨hs.cell _, rfl⟩ saneOut_nil silent_nil hsub
  rw [heq]
  by_cases hm : ack.netID = n
  · rw [hm] at hl ⊢
    refine ⟨hs.setCell (hs.cell _).arming saneOut_nil hsub, .arm pkt.destCellID, trivial, ?_⟩
    rw [view_setCell, arming_view]
    refine .arm (d := pkt.fromCellID) (e := ack.epoch) ⟨pkt, hin, ?_⟩ ?_
      (netView_silent silent_nil hsub)
    · simp [Packet.view, hmsg, hm]
    · simp [view, Cell.view, hl, hdest, hepoch]
  · exact simulates_quiet hs ⟨(hs.cell _).arming, Cell.arming_view_of_ne hm⟩ saneOut_nil
      Cell.silent_nil hsub

lemma simulates_net (hs : s.Sane n) (hsub : net ⊆ s.net) :
    Simulates n s ev { s with net := net } :=
  ⟨⟨hs.cell, fun pkt hpkt => hs.net pkt (hsub hpkt)⟩, .lose, trivial, .lose (netView_mono hsub)⟩

/-! ### The simulation -/

/-- **Every event is a step of the handover protocol for `n`**, if it does not promote `n` on a cell
where `n` is live. -/
theorem simulation (hn : n ≠ 0) (hs : s.Sane n) (hord : s.OrderlyAt n b ev)
    (hstep : s.step ev = some t) : Simulates n s ev t := by
  cases ev with
  | loop c l =>
    obtain ⟨r, hr, rfl⟩ := Option.map_eq_some_iff.mp hstep
    exact simulates_loop hn hs hord hr
  | queueCrossing c evt =>
    simp only [step] at hstep
    split at hstep
    · rename_i hok
      cases hstep
      have hallowed := hok.2
      simp only [crossingAllowed, Bool.and_eq_true, beq_iff_eq] at hallowed
      exact simulates_quiet hs ((hs.cell c).queueCrossing hallowed.1.1 hallowed.1.2) saneOut_nil
        silent_nil (refl _)
    · cases hstep
  | borderFrame c source entries =>
    simp only [step] at hstep
    split at hstep
    · cases hstep
      exact simulates_quiet hs (hs.cell c).borderFrame saneOut_nil silent_nil
        (refl _)
    · cases hstep
  | deliver pkt ackSent =>
    simp only [step] at hstep
    split at hstep
    · rename_i hok
      cases hstep
      cases hmsg : pkt.msg with
      | handoff p => exact simulates_handoff hs hok.1 hmsg
      | handoffAccepted ack => exact simulates_accepted hs hok.1 hmsg
    · cases hstep
  | lose pkt =>
    simp only [step] at hstep
    split at hstep
    · cases hstep
      exact simulates_net hs erase_subset
    · cases hstep
  | duplicate pkt =>
    simp only [step] at hstep
    split at hstep
    · rename_i hin
      cases hstep
      exact simulates_net hs (cons_subset.mpr ⟨hin, refl _⟩)
    · cases hstep

omit [DecidableEq M] in
lemma SettlingAt.orderlyAt (h : s.SettlingAt n b ev) : s.OrderlyAt n b ev := by
  unfold SettlingAt at h
  split at h
  · trivial
  · trivial
  · exact h

variable {act : Handover.Act M}

omit [DecidableEq M] in
lemma OrderlyAt.orderly (h : s.OrderlyAt n b ev) (hex : s.Explains n ev act) :
    Handover.Orderly b (s.view n) act := by
  cases act with
  | cross c =>
    obtain ⟨⟨sent, rfl⟩, evt, hevt, hid⟩ := hex
    exact h evt hevt hid
  | absorb c => exact hex
  | _ => trivial

omit [DecidableEq M] in
lemma SettlingAt.settling (h : s.SettlingAt n b ev) (hex : s.Explains n ev act) :
    Handover.Settling b (s.view n) act := by
  cases act with
  | abandon c =>
    obtain ⟨rfl, hdue⟩ := hex
    intro d e hoffer
    obtain ⟨o, hl, heq⟩ := Option.map_eq_some_iff.mp hoffer
    obtain ⟨rfl, rfl⟩ := Prod.mk.inj heq
    exact h hdue o hl
  | accept a d e =>
    obtain ⟨pkt, ackSent, rfl, rfl, he⟩ := hex
    exact h e he
  | _ => exact h.orderlyAt.orderly hex

end Events

end Cluster

end Mmokit
