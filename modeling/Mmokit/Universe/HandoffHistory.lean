/-
Stale handoffs.

A cell recognises a repeated handoff by the epoch it accepted last, and forgets that epoch when it
demotes the entity. The transfer log keeps the whole history: `NoResurrection` says of a log that
every handoff was accepted under an epoch that is serially after all epochs accepted before, and
that every promotion that was carried out had been queued by such a handoff.
-/
import Mmokit.Universe.HandoffSafety

namespace Mmokit

open List Stage

variable {M : Type*} {n : NetID} {b : Epoch}

/-- No stale handoff of `n` was accepted, and every promotion of `n` that was carried out had been
queued. -/
def Stage.NoResurrection (stage : Stage M) (n : NetID) : Prop :=
  (acceptedEpochs n stage.log).Pairwise Serial.After ∧
    ∀ e, stage.log.count (.committed n e) ≤ stage.log.count (.queued n e)

namespace Cell

variable {c c' : Cell M}

/-- What an operation, possibly with an incoming message, can do to the accepted handoffs, the log
and the promotions. -/
inductive History (c : Cell M) (incoming : Option CellMessage) (c' : Cell M) : Prop
  | same (accepted : c'.stage.handoffAccepted = c.stage.handoffAccepted)
      (log : c'.stage.log = c.stage.log) (promotions : c'.promotions.Perm c.promotions)
  | promoted (p : PendingPromote M)
      (accepted : c'.stage.handoffAccepted = c.stage.handoffAccepted)
      (log : c'.stage.log = c.stage.log ∨
        c'.stage.log = .committed p.netID p.epoch :: c.stage.log)
      (promotions : c.promotions.Perm (p :: c'.promotions))
  | demoted (m : NetID)
      (accepted : c'.stage.handoffAccepted = Function.update c.stage.handoffAccepted m none)
      (log : c'.stage.log = .demoted m :: c.stage.log)
      (promotions : c'.promotions.Perm c.promotions)
  | accepted (p : HandoffPayload) (fromCellID : M) (offer : .handoff p ∈ incoming)
      (new : c.stage.handoffAlreadyAccepted p.netID p.epoch = false)
      (eq : c' = c.accepting p fromCellID)

lemma History.of_record {incoming : Option CellMessage} (hrec : c'.stage.record = c.stage.record)
    (hpro : c'.promotions.Perm c.promotions) : History c incoming c' := by
  simp only [record, Prod.mk.injEq] at hrec
  exact .same hrec.1 hrec.2.1 hpro

lemma demote_record (stage : Stage M) (m : NetID) (dest : M) :
    (stage.demoteLiveToReplica m dest).2.record = stage.record ∨
      (stage.demoteLiveToReplica m dest).2.record =
        (Function.update stage.handoffAccepted m none, .demoted m :: stage.log, stage.toRemove,
          stage.crossingQueue) := by
  cases hlive : stage.isLive m with
  | false => exact .inl (by rw [demote_of_not_live hlive])
  | true =>
    obtain ⟨e, hs⟩ := isLive_iff.mp hlive
    cases hrow : stage.ecs.rows e with
    | none => exact .inl (by rw [demote_of_dead hs hrow])
    | some row => exact .inr (by rw [demote_of_live hs hrow]; rfl)

lemma history_demote {t : UInt64} {d : PendingDemote M} {rest : List (PendingDemote M)}
    (hphase : c.phase = .demotes t (d :: rest)) :
    History c none { c with driver := c.driver.demoteOne d, phase := .demotes t rest } := by
  generalize hc' : ({ c with driver := c.driver.demoteOne d, phase := .demotes t rest } :
    Cell M) = c'
  have hpro : c'.promotions = c.promotions := by simp [← hc', promotions, hphase]
  have hstage : c'.stage = (c.stage.demoteLiveToReplica d.netID d.destCellID).2 := by
    rw [← hc']
    rfl
  have hrec := demote_record c.stage d.netID d.destCellID
  rw [← hstage] at hrec
  rcases hrec with hrec | hrec
  · exact .of_record hrec (hpro ▸ .refl _)
  · simp only [record, Prod.mk.injEq] at hrec
    exact .demoted d.netID hrec.1 hrec.2.1 (hpro ▸ .refl _)

lemma history_promote {t : UInt64} {p : PendingPromote M} {rest : List (PendingPromote M)}
    (hphase : c.phase = .promotes t (p :: rest)) :
    History c none { c.promoteOne p with phase := .promotes t rest } := by
  generalize hc' : ({ c.promoteOne p with phase := .promotes t rest } : Cell M) = c'
  have hperm : c.promotions.Perm (p :: c'.promotions) := by
    simp only [← hc', promotions, promoteOne, Cell.withStage, hphase, Phase.duePromotes]
    exact perm_middle
  have hstage : c'.stage = promoteOnStage c.stage p := by
    rw [← hc']
    rfl
  have hrec := promoteOnStage_record c.stage p
  rw [← hstage] at hrec
  rcases hrec with hrec | hrec
  all_goals simp only [record, Prod.mk.injEq] at hrec
  · exact .promoted p hrec.1 (.inl hrec.2.1) hperm
  · exact .promoted p hrec.1 (.inr hrec.2.1) hperm

section Steps

variable [DecidableEq M]

lemma history_processMessage (fromCellID : M) (msg : CellMessage) (ackSent : Bool) :
    History c (some msg) (c.processMessage fromCellID msg ackSent).1 := by
  cases msg with
  | handoff p =>
    rcases c.processHandoff_cases fromCellID p ackSent with ⟨-, hsame, -⟩ | heq | ⟨hnew, heq⟩
    · exact .of_record (by rw [processMessage, hsame]) (by rw [processMessage, hsame])
    · exact .of_record (by rw [processMessage, heq]) (by rw [processMessage, heq])
    · exact .accepted p fromCellID rfl hnew (by rw [processMessage, heq])
  | handoffAccepted ack =>
    rcases onHandoffAccepted_cases (c := c) ack.netID ack.epoch ack.commitTick fromCellID with
      hsame | ⟨h, -, -, -, heq⟩
    · exact .of_record (by rw [processMessage, hsame]) (by rw [processMessage, hsame])
    · exact .of_record (by rw [processMessage, heq]; rfl) (by rw [processMessage, heq]; rfl)

lemma history_loop {l : LoopStep M} {r : Cell M × List (M × CellMessage)} (h : c.loop l = some r) :
    History c none r.1 := by
  cases l with
  | beginTick tick order =>
    simp only [loop] at h
    split at h
    · rename_i hphase
      split at h
      · rename_i horder
        cases h
        refine .of_record rfl ?_
        simpa [promotions, hphase, takeDuePromotes] using
          filter_due_perm c.pendingPromotes tick (isPerm_iff.mp horder)
      · cases h
    · cases h
  | promote =>
    simp only [loop] at h
    split at h
    · rename_i hphase
      cases h
      exact history_promote hphase
    · cases h
  | beginRetries order =>
    simp only [loop] at h
    split at h
    · rename_i hphase
      split at h
      · cases h
        exact .same rfl rfl (by simp [promotions, hphase, Cell.withStage])
      split at h
      · cases h
        exact .of_record rfl (by simp [promotions, hphase])
      · cases h
    · cases h
  | retry sent =>
    simp only [loop] at h
    split at h
    · rename_i tick m rest hphase
      cases h
      have hbase := (retryOne_cases c.driver tick m sent).1
      exact .of_record (by simp only [stage, hbase]) (by simp [promotions, hphase])
    · cases h
  | beginDemotes order =>
    simp only [loop] at h
    split at h
    · rename_i hphase
      split at h
      · cases h
        exact .of_record rfl (by simp [promotions, hphase])
      · cases h
    · cases h
  | demote =>
    simp only [loop] at h
    split at h
    · rename_i hphase
      cases h
      exact history_demote hphase
    · cases h
  | beginCrossings =>
    simp only [loop] at h
    split at h
    · rename_i hphase
      cases h
      exact .same rfl rfl (by simp [promotions, hphase, Cell.withStage])
    · cases h
  | cross sent =>
    simp only [loop] at h
    split at h
    · rename_i tick evt rest hphase
      cases h
      refine .of_record ?_ (by simp [promotions, hphase])
      rcases handleCrossing_cases c.driver evt tick sent with
        heq | ⟨-, -, -, old, o, -, -, -, -, -, -, heq⟩
      · simp only [stage, heq]
      · cases sent with
        | false => simp [stage, heq]
        | true => simp [stage, heq]
    · cases h
  | endTick =>
    simp only [loop] at h
    split at h
    · rename_i hphase
      cases h
      have hrec := expire_flush_record (b := c.stage)
      simp only [record, Prod.mk.injEq] at hrec
      exact .same hrec.1 hrec.2.1 (by simp [promotions, hphase, Cell.withStage])
    · cases h

end Steps

/-- The history of `n` is sound and in order, and accounts for all promotions. -/
structure Faithful (n : NetID) (b : Epoch) (c : Cell M) : Prop where
  sound : (c.stage.ledger n).Sound
  ordered : (c.stage.ledger n).Ordered
  within : (c.stage.ledger n).Within b
  count : ∀ e, c.stage.log.count (.committed n e) +
    c.promotions.countP (fun p => p.netID = n ∧ p.epoch = e) ≤ c.stage.log.count (.queued n e)

lemma Faithful.noResurrection (h : c.Faithful n b) : c.stage.NoResurrection n :=
  ⟨h.ordered, fun e => Nat.le_trans (Nat.le_add_right _ _) (h.count e)⟩

lemma AtRest.faithful (h : c.AtRest) : c.Faithful n b := by
  have hled : c.stage.ledger n = .empty := by
    simp [ledger, h.accepted, h.log, acceptedSinceDemote, acceptedEpochs, Ledger.empty]
  refine ⟨hled ▸ Ledger.sound_empty, hled ▸ Ledger.ordered_empty, ?_, fun e => ?_⟩
  · simp [hled, Ledger.Within]
  · simp [h.log, promotions, h.promotes, h.phase]

lemma Faithful.of_ledger (h : c.Faithful n b) (hled : c'.stage.ledger n = c.stage.ledger n)
    (hcount : ∀ e, c'.stage.log.count (.committed n e) +
      c'.promotions.countP (fun p => p.netID = n ∧ p.epoch = e) ≤
        c'.stage.log.count (.queued n e)) : c'.Faithful n b :=
  ⟨hled ▸ h.sound, hled ▸ h.ordered, hled ▸ h.within, hcount⟩

/-- An accepted handoff of `n` is in order, if it is newer than whatever was accepted before the
last demote. -/
lemma Faithful.accepting {p : HandoffPayload} {fromCellID : M} (h : c.Faithful n b)
    (hnew : c.stage.handoffAlreadyAccepted p.netID p.epoch = false)
    (hwindow : p.netID = n → Serial.InWindow b p.epoch)
    (hrecent : p.netID = n → ∀ x ∈ acceptedEpochs n c.stage.log, ¬ Serial.After p.epoch x →
      x ∈ acceptedSinceDemote n c.stage.log) : (c.accepting p fromCellID).Faithful n b := by
  have hlog : (c.accepting p fromCellID).stage.log = .queued p.netID p.epoch :: c.stage.log := by
    simp only [Cell.accepting, stage, Cell.withStage, markHandoffAccepted]
    repeat' split
    all_goals rfl
  have hcount : ∀ e, (c.accepting p fromCellID).stage.log.count (.committed n e) +
      (c.accepting p fromCellID).promotions.countP (fun q => q.netID = n ∧ q.epoch = e) ≤
        (c.accepting p fromCellID).stage.log.count (.queued n e) := by
    intro e
    have := h.count e
    rw [(promotions_accepting c p fromCellID).countP_eq, countP_cons, hlog,
      count_cons, count_cons]
    simp only [beq_iff_eq, reduceCtorEq, if_false, TransferLog.queued.injEq, decide_eq_true_eq]
    omega
  by_cases hpn : p.netID = n
  · subst hpn
    have hled : (c.accepting p fromCellID).stage.ledger p.netID =
        (c.stage.ledger p.netID).accept p.epoch := ledger_queued hnew
    have hknows : ¬ (c.stage.ledger p.netID).Knows p.epoch := by
      rw [← alreadyAccepted_iff, hnew]
      simp
    refine ⟨hled ▸ h.sound.accept, hled ▸ ?_, hled ▸ h.within.accept (hwindow rfl), hcount⟩
    exact h.ordered.accept h.sound h.within (hwindow rfl) hknows (hrecent rfl)
  · exact h.of_ledger (ledger_queued_ne hpn) hcount

lemma Faithful.step {incoming : Option CellMessage} (h : c.Faithful n b)
    (hstep : History c incoming c')
    (hwindow : ∀ msg ∈ incoming, ∀ e ∈ msg.offered n, Serial.InWindow b e)
    (hrecent : ∀ msg ∈ incoming, ∀ e ∈ msg.offered n, ∀ x ∈ acceptedEpochs n c.stage.log,
      ¬ Serial.After e x → x ∈ acceptedSinceDemote n c.stage.log) : c'.Faithful n b := by
  cases hstep with
  | same hacc hlog hpro =>
    refine h.of_ledger (by rw [ledger, ledger, hacc, hlog]) fun e => ?_
    rw [hlog, hpro.countP_eq]
    exact h.count e
  | promoted p hacc hlog hpro =>
    have hled : c'.stage.ledger n = c.stage.ledger n := by
      rcases hlog with hlog | hlog
      · rw [ledger, ledger, hacc, hlog]
      · simp [ledger, hacc, hlog, acceptedSinceDemote, acceptedEpochs]
    refine h.of_ledger hled fun e => ?_
    -- the promotion leaves the queue, and enters the log at most once
    have hcount := h.count e
    rw [hpro.countP_eq, countP_cons] at hcount
    rcases hlog with hlog | hlog
    · rw [hlog]
      omega
    rw [hlog, count_cons, count_cons]
    simp only [beq_iff_eq, reduceCtorEq, if_false, TransferLog.committed.injEq,
      decide_eq_true_eq] at hcount ⊢
    omega
  | demoted m hacc hlog hpro =>
    have hcount : ∀ e, c'.stage.log.count (.committed n e) +
        c'.promotions.countP (fun p => p.netID = n ∧ p.epoch = e) ≤
          c'.stage.log.count (.queued n e) := by
      intro e
      rw [hpro.countP_eq, hlog]
      simpa using h.count e
    by_cases hm : m = n
    · subst hm
      have hled : c'.stage.ledger m = (c.stage.ledger m).forget := by
        simp [ledger, hacc, hlog, acceptedSinceDemote, acceptedEpochs, Ledger.forget]
      exact ⟨hled ▸ Ledger.sound_forget, hled ▸ h.ordered, hled ▸ h.within, hcount⟩
    · refine h.of_ledger ?_ hcount
      simp [ledger, hacc, hlog, acceptedSinceDemote, acceptedEpochs, hm, Ne.symm hm]
  | accepted p fromCellID hin hnew heq =>
    subst heq
    have hoffered (hpn : p.netID = n) :
        p.epoch ∈ (CellMessage.handoff p).offered n := by simp [CellMessage.offered, hpn]
    exact h.accepting hnew (fun hpn => hwindow _ hin _ (hoffered hpn))
      fun hpn => hrecent _ hin _ (hoffered hpn)

end Cell

namespace Cluster

/-- The epochs of the handoffs of `n` that arrive lie in the window that starts at `b`. -/
def InWindowAt (n : NetID) (b : Epoch) : ClusterEvent M → Prop
  | .deliver pkt _ => ∀ e ∈ pkt.msg.offered n, Serial.InWindow b e
  | _ => True

/-- A handoff of `n` arrives only where its epoch is serially after all epochs that the cell
accepted before it last demoted `n`. -/
def RecentAt (s : Cluster M) (n : NetID) : ClusterEvent M → Prop
  | .deliver pkt _ => ∀ e ∈ pkt.msg.offered n,
      ∀ x ∈ acceptedEpochs n (s.cells pkt.destCellID).stage.log, ¬ Serial.After e x →
        x ∈ acceptedSinceDemote n (s.cells pkt.destCellID).stage.log
  | _ => True

section Runs

variable [DecidableEq M] {s t : Cluster M} {ev : ClusterEvent M}

lemma faithful_step (h : ∀ c, (s.cells c).Faithful n b) (hwindow : InWindowAt n b ev)
    (hrecent : s.RecentAt n ev) (hstep : s.step ev = some t) :
    ∀ c, (t.cells c).Faithful n b := by
  have hset {c : M} {cell : Cell M} (hcell : cell.Faithful n b) (c' : M) :
      (Function.update s.cells c cell c').Faithful n b := by
    by_cases hc : c' = c
    · subst hc
      simpa using hcell
    · simpa [hc] using h c'
  have hlocal {c : M} {cell : Cell M} (hcell : (s.cells c).History none cell) :
      ∀ c', (Function.update s.cells c cell c').Faithful n b :=
    hset ((h c).step hcell (by simp) (by simp))
  cases ev with
  | loop c l =>
    obtain ⟨r, hr, rfl⟩ := Option.map_eq_some_iff.mp hstep
    exact hlocal (Cell.history_loop hr)
  | queueCrossing c evt =>
    simp only [step] at hstep
    split at hstep
    · cases hstep
      exact hlocal (.same rfl rfl (.refl _))
    · cases hstep
  | borderFrame c source entries =>
    simp only [step] at hstep
    split at hstep
    · cases hstep
      exact hlocal (.of_record applyBorderFrame_record (.refl _))
    · cases hstep
  | deliver pkt ackSent =>
    simp only [step] at hstep
    split at hstep
    · cases hstep
      refine hset ((h pkt.destCellID).step
        (Cell.history_processMessage pkt.fromCellID pkt.msg ackSent) ?_ ?_)
      · rintro msg ⟨⟩
        exact hwindow
      · rintro msg ⟨⟩
        exact hrecent
    · cases hstep
  | lose pkt =>
    simp only [step] at hstep
    split at hstep
    · cases hstep
      exact h
    · cases hstep
  | duplicate pkt =>
    simp only [step] at hstep
    split at hstep
    · cases hstep
      exact h
    · cases hstep

/-- **No resurrection by a stale handoff**, in runs where no handoff comes after the demote of what
it is not newer than. -/
theorem no_resurrection (h₀ : ∀ c, (s.cells c).AtRest)
    (h : Run (Steps step) (fun s ev => InWindowAt n b ev ∧ s.RecentAt n ev) s t) :
    ∀ c, (t.cells c).stage.NoResurrection n := by
  have hfaithful : ∀ c, (t.cells c).Faithful n b :=
    h.invariant (I := fun t => ∀ c, (t.cells c).Faithful n b) (fun c => (h₀ c).faithful)
      fun hI hK hstep => faithful_step hI hK.1 hK.2 hstep
  exact fun c => (hfaithful c).noResurrection

end Runs

instance (n : NetID) (b : Epoch) (ev : ClusterEvent M) : Decidable (InWindowAt n b ev) := by
  induction ev using ClusterEvent.casesOn with
  | deliver pkt _ => exact decideMem (pkt.msg.offered n) (Serial.InWindow b) fun _ => Nat.decLt ..
  | _ => exact .isTrue trivial

instance (s : Cluster M) (n : NetID) (ev) : Decidable (s.RecentAt n ev) := by
  induction ev using ClusterEvent.casesOn with
  | deliver pkt _ =>
    exact decideMem _ _ fun e => decidableBAll (fun x => ¬ Serial.After e x →
      x ∈ acceptedSinceDemote n (s.cells pkt.destCellID).stage.log) _
  | _ => exact .isTrue trivial

/-- A duplicate that arrives while the receiver still holds the entity does no harm. -/
theorem no_resurrection_handOver : (∀ c, ((twoCells true).cells c).AtRest) ∧
    ∃ t, Run (Steps step) (fun s ev => InWindowAt 7 0 ev ∧ s.RecentAt 7 ev) (twoCells true) t ∧
      (t.cells 1).stage.log = [.committed 7 1, .queued 7 1] ∧
      ∀ c, (t.cells c).stage.NoResurrection 7 := by
  obtain ⟨t, hrun, hlog⟩ := exists_run (s := twoCells true) step
    (fun s ev => InWindowAt 7 0 ev ∧ s.RecentAt 7 ev)
    (fun t => (t.cells 1).stage.log = [.committed 7 1, .queued 7 1])
    (offerFirst ++ [.duplicate offered] ++ acceptSecond ++ [.deliver offered true])
    (by decide +kernel)
  exact ⟨(twoCells_initial true).rest, t, hrun, hlog,
    no_resurrection (twoCells_initial true).rest hrun⟩

/-- **A duplicate that arrives after the demote brings the entity back**: the second cell has handed
the netID on under epoch `2`, accepts the handoff of epoch `1` once more and promotes the entity. -/
theorem resurrection : (∀ c, ((twoCells true).cells c).AtRest) ∧
    ∃ t, Run (Steps step) (fun _ ev => InWindowAt 7 0 ev) (twoCells true) t ∧
      acceptedEpochs 7 (t.cells 1).stage.log = [1, 1] ∧
      (t.cells 1).stage.log.head? = some (.committed 7 1) ∧
      (∀ c, (t.cells c).stage.isLive 7 = true) ∧ ¬ (t.cells 1).stage.NoResurrection 7 := by
  refine ⟨(twoCells_initial true).rest, ?_⟩
  obtain ⟨t, hrun, hepochs, hcommit, hlive⟩ := exists_run (s := twoCells true) step
    (fun _ ev => InWindowAt 7 0 ev)
    (fun t => acceptedEpochs 7 (t.cells 1).stage.log = [1, 1] ∧
      (t.cells 1).stage.log.head? = some (.committed 7 1) ∧
      ∀ c, (t.cells c).stage.isLive 7 = true)
    (offerFirst ++ [.duplicate offered] ++ acceptSecond ++ demoteFirst ++ handBack ++
      [.deliver offered true] ++ tick 1 44 [⟨7, 1, ⟨7, 1⟩, 0, 0⟩] [] [] []) (by decide +kernel)
  refine ⟨t, hrun, hepochs, hcommit, hlive, fun hno => ?_⟩
  have hpair := hno.1
  rw [hepochs] at hpair
  exact absurd hpair (by decide)

end Cluster

end Mmokit
