/-
Destroyed entities are tombstoned.

A destruction is reported for one tick only. The sender keeps it in `pendingRemoved` until a frame
that says so is acknowledged.

The outbox is in order (`Sender.Outbox`) if it has entries only for entities that the committed
frame or the frame in flight shows, and the frame in flight names every entity that it drops. Two
things break it:

* a frame in flight shows an entity that the committed frame does not show; the entity is
destroyed, and the frame is given up. Then no later frame has a reason to name the entity
(`Settled` excludes this);
* the viewer's own entity goes out of sight without being destroyed: such a frame names it nowhere.
-/
import Mathlib
import Mmokit.System.ReplicationView
import Mmokit.System.StreamFreshness

namespace Mmokit.Replication

open List Option ConnState

/-- The sender, the client and the frames. -/
structure Exchange where
  sender : Sender := { mode := .explicit }
  client : DecoderState := {}
  sent : List Queued := []
  /-- The stream epoch and sequence number of each acknowledgement. -/
  acks : List (UInt32 × UInt32) := []
  /-- The place in the record of the last frame that the client accepted. -/
  accepted : Option ℕ := none

inductive ExchangeEvent (S : Type*)
  | tick (i : ViewerTick S)
  | omitViewer
  | receipt (streamEpoch seq : UInt32) (result : SendResult)
  | deliver (k : ℕ)
  | ack (k : ℕ)

section Statement

variable {S : Type*} (cfg : SenderConfig S) (decoders : UInt8 → Option DeltaEncoder)

def Sender.sends (s : Sender) (i : ViewerTick S) : Option Queued :=
  if i.result.disposition.mayArrive then
    (s.ready cfg i).map fun r => ⟨r.frame cfg i, (r.attempt cfg i).visible⟩
  else none

def Exchange.step (w : Exchange) : ExchangeEvent S → Option Exchange
  | .tick i => some { w with
      sender := (w.sender.update cfg i).1
      sent := w.sent ++ (w.sender.sends cfg i).toList }
  | .omitViewer => some { w with sender := w.sender.omitViewer }
  | .receipt streamEpoch seq result =>
    some { w with sender := w.sender.drainFrameReceipt streamEpoch seq result }
  | .deliver k => do
    let q ← w.sent[k]?
    match w.client.decodeFrame decoders q.frame with
    | none => some w
    | some client =>
      -- An accepted frame is acknowledged.
      some { w with
        client := client
        acks := w.acks ++ [(q.frame.streamEpoch, q.frame.seq)]
        accepted := some k }
  | .ack k => do
    let a ← w.acks[k]?
    some { w with sender := w.sender.ackFrame a.1 a.2 }

/-- What the client and the sender hold about departed entities:
* a frame that the client would accept next names every entity that the frame it accepted last shows
  and this one does not, or is fresh, or is of another stream;
* there is an entry in the outbox only for an entity that the last acknowledged frame shows, or the
  frame in flight. -/
structure Exchange.Tombstoned (w : Exchange) : Prop where
  named : ∀ (a k : ℕ) (last next : Queued) n, w.accepted = some a → w.sent[a]? = some last →
    w.sent[k]? = some next →
    (w.client.decodeFrame decoders next.frame).isSome →
    next.frame.streamEpoch = last.frame.streamEpoch → n ∈ last.visible → n ∉ next.visible →
    n ∈ next.frame.removed ∨ n ∈ next.frame.exited ∨ next.frame.fresh = true
  retired : ∀ n, n ∉ w.sender.lastVisible.getD [] → (∀ p ∈ w.sender.pending, n ∉ p.visible) →
    w.sender.pendingRemoved n = false

/-- No entity that only the frame in flight shows is destroyed. -/
def Sender.Settled (s : Sender) (removedIDs : List NetID) : Prop :=
  ∀ p ∈ s.pending, ∀ n ∈ p.visible, s.pendingRemoved n = true ∨ n ∈ removedIDs →
    s.wasVisible n = true

def Sender.builds (s : Sender) (i : ViewerTick S) : Bool :=
  s.pending.all fun p => s.timedOut cfg p i.tick

/-- The viewer's own entity does not go out of sight, unless it is destroyed. -/
def Sender.KeepsSelf (s : Sender) (i : ViewerTick S) : Prop :=
  s.wasVisible (s.self i) = true → s.self i ∈ (visibleTo cfg i).map Prod.fst ∨
    s.self i ∈ i.removedIDs ∨ s.pendingRemoved (s.self i) = true

/-- The stream epoch and the sequence number come after those of all frames in the record, within
the windows in which they can be compared. -/
def ComesAfter (b : UInt32) (sent : List Queued) (streamEpoch seq : UInt32) : Prop :=
  Serial.InWindow b streamEpoch ∧ seq.toNat < 0x80000000 ∧
    ∀ q ∈ sent, Serial.offset b q.frame.streamEpoch < Serial.offset b streamEpoch ∨
      q.frame.streamEpoch = streamEpoch ∧ q.frame.seq.toNat < seq.toNat

def KeepsOutbox (b : UInt32) (w : Exchange) : ExchangeEvent S → Prop
  | .tick i =>
    let s := w.sender.resolveStreamGeneration i.generation
    s.builds cfg i = true → s.Settled i.removedIDs ∧ s.KeepsSelf cfg i ∧
      ComesAfter b w.sent (s.adoptViewer i).streamEpoch (s.nextSeq + 1)
  | .omitViewer => w.sender.Settled []
  | .receipt streamEpoch seq result => result.queued = false →
      (∀ p ∈ w.sender.pending, p.streamEpoch = streamEpoch ∧ p.seq = seq) → w.sender.Settled []
  | .deliver _ | .ack _ => True

end Statement

/-- The frame in flight names what left. -/
structure Sender.Outbox (s : Sender) : Prop where
  mode : s.mode = .explicit
  shown : ∀ n, s.pendingRemoved n = true → s.wasVisible n = true ∨ ∃ p ∈ s.pending, n ∈ p.visible
  drops : ∀ p ∈ s.pending, ∀ n, s.wasVisible n = true → n ∉ p.visible → n ∈ p.removed ∨ n ∈ p.exited
  clears : ∀ p ∈ s.pending, ∀ n ∈ p.removed, n ∈ p.clearPendingRemoved ∧ s.wasVisible n = true

namespace Sender

variable {S : Type*} {cfg : SenderConfig S} {s : Sender} {i : ViewerTick S}

lemma commitPending_spec {p : PendingAttempt} (hp : s.pending = some p) :
    s.commitPending.mode = s.mode ∧ s.commitPending.pending = none ∧
      s.commitPending.lastVisible = some p.visible ∧
      ∀ n, s.commitPending.pendingRemoved n = true ↔
        n ∉ p.exited ∧ n ∉ p.clearPendingRemoved ∧ s.pendingRemoved n = true := by
  have hsame := sameStream_commit p.txn s.toConnState
  simp [commitPending, commitPendingAttempt, hp, setConn, clearRemoved,
    hsame.pendingRemoved]

lemma discardPending_spec {p : PendingAttempt} (hp : s.pending = some p) :
    s.discardPending.mode = s.mode ∧ s.discardPending.pending = none ∧
      s.discardPending.lastVisible = s.lastVisible ∧ s.discardPending.forceFresh = true ∧
      ∀ n, s.discardPending.pendingRemoved n = true ↔
        n ∈ p.removed ∨ s.pendingRemoved n = true := by
  simp [discardPending, discardPendingAttempt, hp, setConn, markRemoved]

lemma discardPending_of_none (hp : s.pending = none) :
    s.discardPending = { s with stagedTicks := [] } := by
  unfold discardPending discardPendingAttempt setConn
  rw [hp]

namespace Outbox

lemma of_none (hmode : s.mode = .explicit) (hp : s.pending = none)
    (h : ∀ n, s.pendingRemoved n = true → s.wasVisible n = true) : Outbox s where
  mode := hmode
  shown n hn := .inl (h n hn)
  drops p hp' := by simp [hp] at hp'
  clears p hp' := by simp [hp] at hp'

lemma commitPending (h : Outbox s) : Outbox s.commitPending := by
  cases hp : s.pending with
  | none => simpa [Sender.commitPending, hp] using h
  | some p =>
    obtain ⟨hmode, hnone, hvisible, hremoved⟩ := commitPending_spec hp
    refine of_none (hmode.trans h.mode) hnone fun n hn => ?_
    obtain ⟨hexited, hclear, hn⟩ := (hremoved n).mp hn
    have hmem : n ∈ p.visible := by
      by_contra hnot
      rcases h.shown n hn with hwas | ⟨p', hp', hmem⟩
      · -- the frame names what it drops, and then the entry is cleared
        rcases h.drops p hp n hwas hnot with hrem | hex
        · exact hclear (h.clears p hp n hrem).1
        · exact hexited hex
      · obtain rfl : p = p' := some.inj (hp.symm.trans hp')
        exact hnot hmem
    simpa [wasVisible, hvisible] using hmem

lemma discardPending (h : Outbox s) (hs : s.Settled []) : Outbox s.discardPending := by
  cases hp : s.pending with
  | none =>
    rw [discardPending_of_none hp]
    exact ⟨h.mode, h.shown, h.drops, h.clears⟩
  | some p =>
    obtain ⟨hmode, hnone, hvisible, -, hremoved⟩ := discardPending_spec hp
    refine of_none (hmode.trans h.mode) hnone fun n hn => ?_
    have hwas : s.wasVisible n = true := by
      rcases (hremoved n).mp hn with hrem | hn
      · exact (h.clears p hp n hrem).2
      · rcases h.shown n hn with hwas | ⟨p', hp', hmem⟩
        · exact hwas
        · exact hs p' hp' n hmem (.inl hn)
    simpa [wasVisible, hvisible] using hwas

lemma omitViewer (h : Outbox s) (hs : s.Settled []) : Outbox s.omitViewer := by
  have hd := h.discardPending hs
  exact ⟨hd.mode, hd.shown, hd.drops, hd.clears⟩

lemma ackFrame (h : Outbox s) (streamEpoch seq : UInt32) : Outbox (s.ackFrame streamEpoch seq) := by
  unfold Sender.ackFrame
  repeat' split
  all_goals first | exact h | exact h.commitPending

lemma drainFrameReceipt (h : Outbox s) {streamEpoch seq : UInt32} {result : SendResult}
    (hs : result.queued = false →
      (∀ p ∈ s.pending, p.streamEpoch = streamEpoch ∧ p.seq = seq) → s.Settled []) :
    Outbox (s.drainFrameReceipt streamEpoch seq result) := by
  unfold Sender.drainFrameReceipt
  cases hp : s.pending with
  | none => exact h
  | some p =>
    dsimp only
    split
    · exact h
    rename_i hmatch
    rw [if_pos h.mode]
    split
    · exact h
    rename_i hqueued
    refine h.discardPending (hs (by simpa using hqueued) fun p' hp' => ?_)
    obtain rfl : p = p' := some.inj (hp.symm.trans hp')
    simpa [not_or] using hmatch

lemma resolveStreamGeneration (h : Outbox s) (generation : Option UInt32) :
    Outbox (s.resolveStreamGeneration generation) := by
  rcases s.resolveStreamGeneration_eq generation with ⟨x, y, e, heq⟩ | ⟨g, heq⟩ <;> rw [heq]
  · exact ⟨h.mode, h.shown, h.drops, h.clears⟩
  · exact of_none h.mode rfl (by simp)

lemma note (h : Outbox s) {p : PendingAttempt} (hp : s.pending = some p) (removedIDs : List NetID) :
    Outbox (s.setConn (s.markRemoved
      (removedIDs.filter fun n => s.wasVisible n || p.visible.contains n))) := by
  refine ⟨h.mode, fun n hn => ?_, h.drops, h.clears⟩
  rcases (Bool.or_eq_true _ _).mp hn with hnew | hold
  · simp only [contains_eq_mem, mem_filter, Bool.or_eq_true, decide_eq_true_eq] at hnew
    exact hnew.2.imp_right fun hmem => ⟨p, hp, hmem⟩
  · exact h.shown n hold

end Outbox

/-- **The state in which a frame is built**, from the one after the generation is resolved. -/
structure Built (s r : Sender) : Prop where
  pending : r.pending = none
  mode : r.mode = s.mode
  lastVisible : r.lastVisible = s.lastVisible
  self : r.selfNetID = s.selfNetID
  epoch : r.streamEpoch = s.streamEpoch
  hasEpoch : r.hasStreamEpoch = s.hasStreamEpoch
  nextSeq : r.nextSeq = s.nextSeq
  kept : ∀ n, s.pendingRemoved n = true → r.pendingRemoved n = true
  fresh : r.forceFresh = false → s.pending = none ∧ s.forceFresh = false

lemma awaitPending_builds (hb : s.builds cfg i = true) :
    (s.awaitPending cfg i).2 = true ∧ Built s (s.awaitPending cfg i).1 := by
  unfold Sender.awaitPending
  cases hp : s.pending with
  | none => exact ⟨rfl, hp, rfl, rfl, rfl, rfl, rfl, rfl, fun _ => id, fun h => ⟨hp, h⟩⟩
  | some p =>
    have htimeout : s.timedOut cfg p i.tick = true := by simpa [builds, hp] using hb
    simp only [htimeout, if_true, true_and]
    refine ⟨?_, ?_, ?_, ?_, ?_, ?_, ?_, fun n hn => ?_, ?_⟩ <;>
      simp [Sender.discardPending, discardPendingAttempt, setConn, markRemoved, hp]
    exact .inr (.inr hn)

lemma awaitPending_waits (hb : s.builds cfg i = false) : (s.awaitPending cfg i).2 = false := by
  unfold Sender.awaitPending
  cases hp : s.pending with
  | none => simp [builds, hp] at hb
  | some p =>
    have hwait : s.timedOut cfg p i.tick = false := by simpa [builds, hp] using hb
    simp [hwait]

lemma Outbox.awaitPending (h : Outbox s) (hs : s.builds cfg i = true → s.Settled i.removedIDs) :
    Outbox (s.awaitPending cfg i).1 := by
  unfold Sender.awaitPending
  cases hp : s.pending with
  | none => exact h
  | some p =>
    dsimp only
    split
    · rename_i htimeout
      have hsettled := hs (by simp [builds, hp, htimeout])
      refine (h.note hp i.removedIDs).discardPending fun p' hp' n hn hor => ?_
      have hor' : s.pendingRemoved n = true ∨ n ∈ i.removedIDs := by
        rcases hor with hmark | hnil
        · rcases (Bool.or_eq_true _ _).mp hmark with hnew | hold
          · simp only [contains_eq_mem, mem_filter, decide_eq_true_eq] at hnew
            exact .inr hnew.1
          · exact .inl hold
        · simp at hnil
      exact hsettled p' hp' n hn hor'
    · exact h.note hp i.removedIDs

lemma pendingRemoved_markRemoved {conn : ConnState} {ids : List NetID} {n : NetID} :
    (conn.markRemoved ids).pendingRemoved n = true ↔ n ∈ ids ∨ conn.pendingRemoved n = true := by
  simp [markRemoved]

lemma afterWrite_explicit (hmode : s.mode = .explicit) (hp : s.pending = none) :
    (s.afterWrite cfg i).mode = .explicit ∧ (s.afterWrite cfg i).lastVisible = s.lastVisible ∧
      (∀ n, (s.afterWrite cfg i).pendingRemoved n = true ↔
        n ∈ (s.frame cfg i).removed ∨ s.pendingRemoved n = true) ∧
      ((i.result.queued = true ∧ (s.afterWrite cfg i).pending = some (s.attempt cfg i)) ∨
        (i.result.queued = false ∧ (s.afterWrite cfg i).pending = none ∧
          (s.afterWrite cfg i).forceFresh =
            (s.forceFresh || decide (i.result.disposition = .indeterminate)))) := by
  unfold Sender.afterWrite
  rw [if_neg (by simp [hmode])]
  cases hq : i.result.queued with
  | true =>
    have hsame := sameStream_retain (s.attempt cfg i).txn
      { s.adoptViewer i with nextSeq := (s.attempt cfg i).seq }.toConnState
    have hexplicit : (s.adoptViewer i).mode = .explicit := adoptViewer_mode.trans hmode
    rw [if_pos ⟨rfl, .inl hexplicit⟩, if_pos hexplicit]
    refine ⟨hexplicit, hsame.lastVisible.trans adoptViewer_lastVisible, fun n => ?_,
      .inl ⟨rfl, rfl⟩⟩
    refine pendingRemoved_markRemoved.trans ?_
    rw [hsame.pendingRemoved, adoptViewer_pendingRemoved]
    rfl
  | false =>
    have hmarked (n : NetID) :
      ((s.adoptViewer i).markRemoved (s.attempt cfg i).removed).pendingRemoved
        n = true ↔ n ∈ (s.frame cfg i).removed ∨ s.pendingRemoved n = true := by
      rw [pendingRemoved_markRemoved, adoptViewer_pendingRemoved]
      rfl
    rw [if_neg (by simp)]
    by_cases hlost : i.result.disposition = .indeterminate
    · rw [if_pos (.inr hlost)]
      exact ⟨adoptViewer_mode.trans hmode, adoptViewer_lastVisible, hmarked,
        .inr ⟨rfl, adoptViewer_pending.trans hp, by simp [hlost]⟩⟩
    rw [if_neg (by simp [hlost])]
    refine ⟨adoptViewer_mode.trans hmode, adoptViewer_lastVisible, hmarked,
      .inr ⟨rfl, adoptViewer_pending.trans hp, ?_⟩⟩
    rw [decide_eq_false hlost, Bool.or_false]
    exact adoptViewer_forceFresh

lemma names_dropped (hkeep : s.KeepsSelf cfg i) {n : NetID} (hwas : s.wasVisible n = true)
    (hn : n ∉ (s.attempt cfg i).visible) :
    n ∈ (s.frame cfg i).removed ∨ n ∈ (s.frame cfg i).exited := by
  rw [mem_removed, mem_exited]
  by_cases hdestroyed : n ∈ i.removedIDs ∨ s.pendingRemoved n = true
  · exact .inl ⟨hwas, hn, hdestroyed⟩
  have hexit := not_or.mp hdestroyed
  refine .inr ⟨hwas, hn, ⟨hexit.1, by simpa using hexit.2⟩, ?_⟩
  rintro rfl
  rcases hkeep hwas with hvisible | hgone
  · rw [← build_visible_eq (s := s)] at hvisible
    exact hn hvisible
  · exact hdestroyed hgone

lemma Outbox.afterWrite (h : Outbox s) (hp : s.pending = none) (hkeep : s.KeepsSelf cfg i) :
    Outbox (s.afterWrite cfg i) := by
  obtain ⟨hmode, hvisible, hremoved, hpending⟩ :
      (s.afterWrite cfg i).mode = .explicit ∧ _ := afterWrite_explicit h.mode hp
  have hwas (n : NetID) : (s.afterWrite cfg i).wasVisible n = s.wasVisible n := by
    simp [wasVisible, hvisible]
  have hold : ∀ n, (s.afterWrite cfg i).pendingRemoved n = true → s.wasVisible n = true := by
    intro n hn
    rcases (hremoved n).mp hn with hrem | hn
    · exact (mem_removed.mp hrem).1
    · simpa [hp] using h.shown n hn
  rcases hpending with ⟨-, hp'⟩ | ⟨-, hp', -⟩
  · refine ⟨hmode, fun n hn => .inl ((hwas n).trans (hold n hn)), ?_, ?_⟩ <;> rw [hp'] <;>
      rintro p ⟨⟩ n hn
    · intro hnot
      exact names_dropped hkeep ((hwas n).symm.trans hn) hnot
    · exact ⟨mem_append_right _ hn, (hwas n).trans (mem_removed.mp hn).1⟩
  · exact .of_none hmode hp' fun n hn => (hwas n).trans (hold n hn)

namespace Built

variable {r : Sender}

lemma wasVisible (h : Built s r) (n : NetID) : r.wasVisible n = s.wasVisible n := by
  simp [ConnState.wasVisible, h.lastVisible]

lemma frame_streamEpoch (h : Built s r) :
    (r.frame cfg i).streamEpoch = (s.adoptViewer i).streamEpoch := by
  change (r.adoptViewer i).streamEpoch = _
  have hadopts : r.adopts i = s.adopts i := by simp [adopts, h.hasEpoch]
  unfold adoptViewer
  rw [hadopts]
  cases i.viewer with
  | none => exact h.epoch
  | some v =>
    dsimp only
    split
    · rfl
    · exact h.epoch

lemma keepsSelf (h : Built s r) (hkeep : s.KeepsSelf cfg i) : r.KeepsSelf cfg i := by
  have hself : r.self i = s.self i := by
    unfold Sender.self
    rw [h.self]
  intro hwas
  rw [hself, h.wasVisible] at hwas
  rw [hself]
  exact (hkeep hwas).imp_right (Or.imp_right (h.kept _))

end Built

end Sender

namespace Exchange

variable {S : Type*} {cfg : SenderConfig S} {decoders : UInt8 → Option DeltaEncoder} {b : UInt32}
  {w w' : Exchange} {i : ViewerTick S}

def HasAccepted (w : Exchange) (k : ℕ) : Prop := ∃ a, w.accepted = some a ∧ k ≤ a

/-- The frames of the record, in order: one that is not fresh comes right after a frame that the
client has accepted, and names what it drops of it. -/
structure RecordInv (b : UInt32) (w : Exchange) : Prop where
  comparable : ∀ q ∈ w.sent, Comparable b q.frame
  order : w.sent.Pairwise fun q q' => Before b q.frame q'.frame
  base : ∀ (k : ℕ) q, w.sent[k]? = some q → q.frame.fresh = false →
    ∃ j q', j + 1 = k ∧ w.sent[j]? = some q' ∧ w.HasAccepted j ∧
      ∀ n ∈ q'.visible, n ∉ q.visible → n ∈ q.frame.removed ∨ n ∈ q.frame.exited
  nothing : w.accepted = none → w.client.hasStreamEpoch = false
  client : ∀ k, w.accepted = some k → ∃ q, w.sent[k]? = some q ∧ w.client.Fences q.frame
  acks : ∀ a ∈ w.acks, ∃ j q, w.HasAccepted j ∧ w.sent[j]? = some q ∧
    a = (q.frame.streamEpoch, q.frame.seq)

/-- The last frame of the record is the one that is committed or in flight, unless a fresh start is
due. -/
structure LastInv (w : Exchange) (s : Sender) : Prop where
  committed : ∀ v, s.pending = none → s.forceFresh = false → s.lastVisible = some v →
    ∃ j q, j + 1 = w.sent.length ∧ w.sent[j]? = some q ∧ w.HasAccepted j ∧ q.visible = v
  inFlight : ∀ p, s.pending = some p → ∃ j q, j + 1 = w.sent.length ∧ w.sent[j]? = some q ∧
    q.frame.streamEpoch = p.streamEpoch ∧ q.frame.seq = p.seq ∧ q.visible = p.visible

namespace LastInv

variable {s s' : Sender}

lemma of_fresh (hp : s.pending = none) (hf : s.forceFresh = true ∨ s.lastVisible = none) :
    LastInv w s where
  committed v _ hforce hv := by
    rcases hf with hf | hf
    · simp [hforce] at hf
    · simp [hf] at hv
  inFlight p hp' := by simp [hp] at hp'

lemma congr (h : LastInv w s) (hp : s'.pending = s.pending) (hf : s'.forceFresh = s.forceFresh)
    (hv : s'.lastVisible = s.lastVisible) : LastInv w s' := by
  refine ⟨?_, ?_⟩ <;> simp only [hp, hf, hv]
  · exact h.committed
  · exact h.inFlight

lemma discardPending (h : LastInv w s) : LastInv w s.discardPending := by
  cases hp : s.pending with
  | none =>
    rw [Sender.discardPending_of_none hp]
    exact h.congr rfl rfl rfl
  | some p =>
    obtain ⟨-, hnone, -, hforce, -⟩ := Sender.discardPending_spec hp
    exact of_fresh hnone (.inl hforce)

lemma omitViewer (w : Exchange) (s : Sender) : LastInv w s.omitViewer := by
  refine of_fresh ?_ (.inl rfl)
  change s.discardPending.pending = none
  cases hp : s.pending with
  | none =>
    rw [Sender.discardPending_of_none hp]
    exact hp
  | some p => exact (Sender.discardPending_spec hp).2.1

lemma drainFrameReceipt (h : LastInv w s) (hmode : s.mode = .explicit) (streamEpoch seq : UInt32)
    (result : SendResult) : LastInv w (s.drainFrameReceipt streamEpoch seq result) := by
  unfold Sender.drainFrameReceipt
  cases s.pending with
  | none => exact h
  | some p =>
    dsimp only
    split
    · exact h
    -- on such a connection a receipt can only end the wait
    split
    · exact h
    · exact h.discardPending

lemma resolveStreamGeneration (h : LastInv w s) (generation : Option UInt32) :
    LastInv w (s.resolveStreamGeneration generation) := by
  rcases s.resolveStreamGeneration_eq generation with ⟨x, y, e, heq⟩ | ⟨g, heq⟩ <;> rw [heq]
  · exact h.congr rfl rfl rfl
  · exact of_fresh rfl (.inr rfl)

lemma awaitPending (h : LastInv w s) : LastInv w (s.awaitPending cfg i).1 := by
  unfold Sender.awaitPending
  cases hp : s.pending with
  | none => exact h
  | some p =>
    have hnoted (ids : List NetID) : LastInv w (s.setConn (s.markRemoved ids)) :=
      h.congr rfl rfl rfl
    dsimp only
    split
    · exact (hnoted _).discardPending
    · exact hnoted _

lemma ackFrame (h : LastInv w s) (hr : w.RecordInv b) {a : UInt32 × UInt32} (ha : a ∈ w.acks) :
    LastInv w (s.ackFrame a.1 a.2) := by
  unfold Sender.ackFrame
  split
  · cases hp : s.pending with
    | none => exact h
    | some p =>
      dsimp only
      split
      · exact h
      rename_i hmatch
      rw [not_or, not_not, not_not] at hmatch
      obtain ⟨j, q, hj, hq, hepoch, hseq, hvis⟩ := h.inFlight p hp
      obtain ⟨j', q', hacc, hq', rfl⟩ := hr.acks a ha
      obtain rfl : j = j' := eq_of_ids hr.order hq hq' (hepoch.trans hmatch.1)
        (hseq.trans hmatch.2)
      obtain ⟨-, hnone, hvisible, -⟩ := Sender.commitPending_spec hp
      refine ⟨fun v _ _ hv => ?_, fun p' hp' => by simp [hnone] at hp'⟩
      exact ⟨j, q, hj, hq, hacc, hvis.trans (some.inj (hvisible.symm.trans hv))⟩
  · exact h

end LastInv

lemma RecordInv.send {q : Queued} (h : w.RecordInv b)
    (hafter : ComesAfter b w.sent q.frame.streamEpoch q.frame.seq)
    (hbase : q.frame.fresh = false → ∃ j q', j + 1 = w.sent.length ∧ w.sent[j]? = some q' ∧
      w.HasAccepted j ∧ ∀ n ∈ q'.visible, n ∉ q.visible →
        n ∈ q.frame.removed ∨ n ∈ q.frame.exited) :
    RecordInv b { w with sent := w.sent ++ [q] } := by
  have hold {j : ℕ} {q' : Queued} (hj : w.sent[j]? = some q') : (w.sent ++ [q])[j]? = some q' := by
    obtain ⟨hlt, -⟩ := List.getElem?_eq_some_iff.mp hj
    rw [List.getElem?_append_left hlt, hj]
  refine ⟨?_, ?_, fun k r hk hfresh => ?_, h.nothing, fun k hk => ?_, fun a ha => ?_⟩
  · intro r hr
    rcases mem_append.mp hr with hr | hr
    · exact h.comparable r hr
    · rw [mem_singleton.mp hr]
      exact ⟨hafter.1, hafter.2.1⟩
  · refine pairwise_append.mpr ⟨h.order, pairwise_singleton _ _, fun r hr r' hr' => ?_⟩
    rw [mem_singleton.mp hr']
    exact hafter.2.2 r hr
  · rcases Nat.lt_or_ge k w.sent.length with hlt | hge
    · have hk' : w.sent[k]? = some r := (getElem?_append_left hlt).symm.trans hk
      obtain ⟨j, q', hj, hq', hacc, hnames⟩ := h.base k r hk' hfresh
      exact ⟨j, q', hj, hold hq', hacc, hnames⟩
    -- the new frame
    have hk' : [q][k - w.sent.length]? = some r := (List.getElem?_append_right hge).symm.trans hk
    obtain ⟨hlt, hr⟩ := List.getElem?_eq_some_iff.mp hk'
    have hkl : k = w.sent.length := by
      rw [List.length_singleton] at hlt
      omega
    subst hkl
    obtain rfl : q = r := by simpa using hr
    obtain ⟨j, q', hj, hq', hacc, hnames⟩ := hbase hfresh
    exact ⟨j, q', hj, hold hq', hacc, hnames⟩
  · obtain ⟨r, hr, hfences⟩ := h.client k hk
    exact ⟨r, hold hr, hfences⟩
  · obtain ⟨j, r, hacc, hr, heq⟩ := h.acks a ha
    exact ⟨j, r, hacc, hold hr, heq⟩

lemma RecordInv.accept (h : w.RecordInv b) {k : ℕ} {q : Queued} (hk : w.sent[k]? = some q)
    {st : DecoderState} (hst : w.client.acceptFrame q.frame.streamEpoch q.frame.seq = some st) :
    (∀ a, w.accepted = some a → a < k) ∧ st.Fences q.frame := by
  cases hacc : w.accepted with
  | none => exact ⟨by simp, (acceptFrame_first (h.nothing hacc) hst).1⟩
  | some a =>
    obtain ⟨r, hr, hfences⟩ := h.client a hacc
    obtain ⟨hlt, hfences', -, -⟩ := acceptFrame_spec hfences
      (h.comparable r (mem_of_getElem? hr)) (h.comparable q (mem_of_getElem? hk)) hst
    refine ⟨fun a' ha' => ?_, hfences'⟩
    cases ha'
    exact lt_of_before h.order hr hk hlt

lemma HasAccepted.mono {j k : ℕ} (h : w.HasAccepted j) (hlt : ∀ a, w.accepted = some a → a < k)
    {client : DecoderState} {acks : List (UInt32 × UInt32)} :
    HasAccepted { w with client := client, acks := acks, accepted := some k } j := by
  obtain ⟨a, ha, hle⟩ := h
  exact ⟨k, rfl, hle.trans (hlt a ha).le⟩

lemma RecordInv.deliver (h : w.RecordInv b) {k : ℕ} {q : Queued} (hk : w.sent[k]? = some q)
    {st : DecoderState} (hst : w.client.acceptFrame q.frame.streamEpoch q.frame.seq = some st) :
    RecordInv b { w with
      client := st.applyFrame decoders q.frame
      acks := w.acks ++ [(q.frame.streamEpoch, q.frame.seq)]
      accepted := some k } := by
  obtain ⟨hlt, hfences⟩ := h.accept hk hst
  refine ⟨h.comparable, h.order, fun k' r hk' hfresh => ?_, by simp, fun k' hk' =>
    ?_, fun a ha => ?_⟩
  · obtain ⟨j, q', hj, hq', hacc, hnames⟩ := h.base k' r hk' hfresh
    exact ⟨j, q', hj, hq', hacc.mono hlt, hnames⟩
  · cases hk'
    exact ⟨q, hk, hfences.applyFrame⟩
  rcases mem_append.mp ha with ha | ha
  · obtain ⟨j, r, hacc, hr, heq⟩ := h.acks a ha
    exact ⟨j, r, hacc.mono hlt, hr, heq⟩
  · rw [mem_singleton] at ha
    exact ⟨k, q, ⟨k, rfl, le_rfl⟩, hk, ha⟩

/-- The invariant of the exchange. -/
structure TombstoneInv (b : UInt32) (w : Exchange) : Prop where
  outbox : w.sender.Outbox
  record : w.RecordInv b
  last : w.LastInv w.sender

lemma TombstoneInv.setSender {s : Sender} (h : w.TombstoneInv b) (hs : s.Outbox)
    (hl : w.LastInv s) : TombstoneInv b { w with sender := s } where
  outbox := hs
  record := ⟨h.record.comparable, h.record.order, h.record.base, h.record.nothing, h.record.client,
    h.record.acks⟩
  last := ⟨hl.committed, hl.inFlight⟩

lemma TombstoneInv.write {s r : Sender} (h : w.TombstoneInv b) (hs : r.Outbox) (hl : w.LastInv s)
    (hbuilt : s.Built r) (hkeep : s.KeepsSelf cfg i)
    (hafter : ComesAfter b w.sent (s.adoptViewer i).streamEpoch (s.nextSeq + 1)) :
    TombstoneInv b { w with
      sender := r.afterWrite cfg i
      sent := w.sent ++ (if i.result.disposition.mayArrive then
        some ⟨r.frame cfg i, (r.attempt cfg i).visible⟩ else none : Option Queued).toList } := by
  have hkeep' := hbuilt.keepsSelf hkeep
  obtain ⟨-, hvisible, -, hpending⟩ : (r.afterWrite cfg i).mode = .explicit ∧ _ :=
    Sender.afterWrite_explicit hs.mode hbuilt.pending
  -- the frame that is committed is the last one of the record
  have hcommitted : ∀ v, r.forceFresh = false → r.lastVisible = some v → ∃ j q,
      j + 1 = w.sent.length ∧ w.sent[j]? = some q ∧ w.HasAccepted j ∧ q.visible = v := by
    intro v hforce hv
    obtain ⟨hp, hf⟩ := hbuilt.fresh hforce
    exact hl.committed v hp hf (hbuilt.lastVisible.symm.trans hv)
  have hsend : RecordInv b { w with
      sent := w.sent ++ [⟨r.frame cfg i, (r.attempt cfg i).visible⟩] } := by
    refine h.record.send ?_ fun hfresh => ?_
    · change ComesAfter b w.sent (r.frame cfg i).streamEpoch (r.nextSeq + 1)
      rw [hbuilt.frame_streamEpoch, hbuilt.nextSeq]
      exact hafter
    change (r.startsFresh i || r.lastVisible.isNone) = false at hfresh
    rw [Bool.or_eq_false_iff] at hfresh
    obtain ⟨v, hv⟩ : ∃ v, r.lastVisible = some v := by
      cases hlast : r.lastVisible with
      | none => simp [hlast] at hfresh
      | some v => exact ⟨v, rfl⟩
    have hforce : r.forceFresh = false := by
      have hstarts := hfresh.1
      simp only [Sender.startsFresh, Bool.or_eq_false_iff] at hstarts
      exact hstarts.1
    obtain ⟨j, q, hj, hq, hacc, rfl⟩ := hcommitted v hforce hv
    refine ⟨j, q, hj, hq, hacc, fun n hn hnot => Sender.names_dropped hkeep' ?_ hnot⟩
    simpa [wasVisible, hv] using hn
  rcases hpending with ⟨hqueued, hp⟩ | ⟨hqueued, hp, hforce⟩
  · -- the frame is in flight
    have hmay : i.result.disposition.mayArrive = true := by
      rw [of_decide_eq_true hqueued]
      rfl
    rw [if_pos hmay]
    refine ⟨hs.afterWrite hbuilt.pending hkeep', ?_, fun v hnone => ?_, fun p hp' => ?_⟩
    · exact ⟨hsend.comparable, hsend.order, hsend.base, hsend.nothing, hsend.client, hsend.acks⟩
    · exact absurd (hp.symm.trans hnone) (by simp)
    · obtain rfl := some.inj (hp.symm.trans hp')
      exact ⟨w.sent.length, ⟨r.frame cfg i, (r.attempt cfg i).visible⟩, by simp, by simp,
        rfl, rfl, rfl⟩
  · by_cases hlost : i.result.disposition = .indeterminate
    · -- the frame may arrive: a fresh start is due
      rw [if_pos (by rw [hlost]; rfl)]
      refine ⟨hs.afterWrite hbuilt.pending hkeep', ?_, .of_fresh hp (.inl ?_)⟩
      · exact ⟨hsend.comparable, hsend.order, hsend.base, hsend.nothing, hsend.client, hsend.acks⟩
      · simp [hforce, hlost]
    · -- the frame is lost
      have hmay : i.result.disposition.mayArrive = false := by
        have hq : i.result.disposition ≠ .queued := of_decide_eq_false hqueued
        cases hd : i.result.disposition <;> simp_all [SendDisposition.mayArrive]
      rw [if_neg (by simp [hmay]), toList_none, append_nil]
      refine h.setSender (hs.afterWrite hbuilt.pending hkeep')
        ⟨fun v _ hf hv => ?_, fun p hp' => ?_⟩
      · rw [hforce] at hf
        exact hcommitted v (by simpa [hlost] using hf) (hvisible.symm.trans hv)
      · exact absurd (hp.symm.trans hp') (by simp)

lemma TombstoneInv.step {e : ExchangeEvent S} (h : w.TombstoneInv b) (hK : KeepsOutbox cfg b w e)
    (hstep : w.step cfg decoders e = some w') : w'.TombstoneInv b := by
  cases e with
  | tick i =>
    cases hstep
    have hs := h.outbox.resolveStreamGeneration i.generation
    have hl := h.last.resolveStreamGeneration i.generation
    simp only [KeepsOutbox] at hK
    simp only [Sender.update, Sender.sends, Sender.ready]
    generalize w.sender.resolveStreamGeneration i.generation = s at hK hs hl ⊢
    cases hb : s.builds cfg i with
    | true =>
      obtain ⟨hsettled, hkeep, hafter⟩ := hK hb
      obtain ⟨hbuild, hbuilt⟩ := Sender.awaitPending_builds hb
      have hr : (s.awaitPending cfg i).1.Outbox := hs.awaitPending fun _ => hsettled
      simp only [hbuild, if_true, map_some]
      exact h.write hr hl hbuilt hkeep hafter
    | false =>
      have hwait := Sender.awaitPending_waits hb
      have hr : (s.awaitPending cfg i).1.Outbox := hs.awaitPending fun hb' => by simp [hb] at hb'
      simp only [hwait, Bool.false_eq_true, if_false, map_none, ite_self, toList_none,
        append_nil]
      exact h.setSender hr hl.awaitPending
  | omitViewer =>
    cases hstep
    exact h.setSender (h.outbox.omitViewer hK) (.omitViewer w _)
  | receipt streamEpoch seq result =>
    cases hstep
    exact h.setSender (h.outbox.drainFrameReceipt hK)
      (h.last.drainFrameReceipt h.outbox.mode streamEpoch seq result)
  | deliver k =>
    obtain ⟨q, hq, hstep⟩ := bind_eq_some_iff.mp hstep
    cases hdec : w.client.decodeFrame decoders q.frame with
    | none =>
      simp only [hdec] at hstep
      cases hstep
      exact h
    | some client =>
      simp only [hdec] at hstep
      cases hstep
      obtain ⟨st, hst, rfl⟩ := map_eq_some_iff.mp hdec
      obtain ⟨hlt, -⟩ := h.record.accept hq hst
      refine ⟨h.outbox, h.record.deliver hq hst, ⟨fun v hp hf hv => ?_, h.last.inFlight⟩⟩
      obtain ⟨j, r, hj, hr, hacc, hvis⟩ := h.last.committed v hp hf hv
      exact ⟨j, r, hj, hr, hacc.mono hlt, hvis⟩
  | ack k =>
    obtain ⟨a, ha, hstep⟩ := bind_eq_some_iff.mp hstep
    cases hstep
    have hmem := mem_of_getElem? ha
    exact h.setSender (h.outbox.ackFrame a.1 a.2) (h.last.ackFrame h.record hmem)

/-- **Departed entities are tombstoned**, in a run that keeps the outbox in order. -/
theorem departed_tombstoned
    (h : Run (Steps (Exchange.step cfg decoders)) (KeepsOutbox cfg b) {} w) :
    w.Tombstoned decoders := by
  have hinv : w.TombstoneInv b := by
    refine Run.invariant (I := TombstoneInv b)
      ⟨.of_none rfl rfl (by simp), ?_, .of_fresh rfl (by simp)⟩
      (fun hI hK hR => hI.step hK hR) h
    exact ⟨by simp, by simp, by simp, fun _ => rfl, by simp, by simp⟩
  refine ⟨fun a k last next n ha hlast hnext hdec _ hn hnot => ?_, fun n hn hp => ?_⟩
  · obtain ⟨client, hclient⟩ := isSome_iff_exists.mp hdec
    obtain ⟨st, hst, -⟩ := map_eq_some_iff.mp hclient
    have hak := (hinv.record.accept hnext hst).1 a ha
    cases hfresh : next.frame.fresh with
    | true => exact .inr (.inr rfl)
    | false =>
      -- the frame accepted last is the one before
      obtain ⟨j, q, hj, hq, ⟨a', ha', hle⟩, hnames⟩ := hinv.record.base k next hnext hfresh
      obtain rfl := some.inj (ha.symm.trans ha')
      obtain rfl : j = a := by omega
      obtain rfl := some.inj (hq.symm.trans hlast)
      exact (hnames n hn hnot).imp_right .inl
  · by_contra hne
    rcases hinv.outbox.shown n (by simpa using hne) with hwas | ⟨p, hp', hmem⟩
    · exact hn (by simpa [wasVisible] using hwas)
    · exact hp p hp' hmem

end Exchange

/-! ### One-byte entities that are destroyed -/

instance (s : Sender) (removedIDs : List NetID) : Decidable (s.Settled removedIDs) :=
  inferInstanceAs (Decidable (∀ _ ∈ _, _))

instance {S : Type*} (cfg : SenderConfig S) (s : Sender) (i : ViewerTick S) :
    Decidable (s.KeepsSelf cfg i) := inferInstanceAs (Decidable (_ → _))

instance (b : UInt32) (sent : List Queued) (streamEpoch seq : UInt32) :
    Decidable (ComesAfter b sent streamEpoch seq) := inferInstanceAs (Decidable (_ ∧ _ ∧ _))

instance KeepsOutbox.decide {S : Type*} (cfg : SenderConfig S) (b : UInt32) (w : Exchange)
    (e : ExchangeEvent S) : Decidable (KeepsOutbox cfg b w e) := by
  cases e <;> dsimp only [KeepsOutbox] <;> infer_instance

def exchangeTick (tick : UInt32) (results : List (Candidate UInt8)) (removedIDs : List NetID) :
    ExchangeEvent UInt8 :=
  .tick ⟨tick, some 1, some (7, 0), results, removedIDs, ⟨.queued, .bestEffort⟩⟩

namespace Exchange

/-- An entity is destroyed while a frame is in flight; the next frame names it. -/
theorem departed_tombstoned_bytes : ∃ w : Exchange, w.Tombstoned byteDecoders ∧
    w.sent.map (fun q => (q.visible, q.frame.removed)) = [([7, 9], []), ([7, 9], []), ([7], [9])] ∧
      w.accepted = some 2 := by
  obtain ⟨w, hrun, hw⟩ := exists_run (s := {})
    (Exchange.step (byteSenderConfig 0) byteDecoders) (KeepsOutbox (byteSenderConfig 0) 0)
    (fun w => w.sent.map (fun q => (q.visible, q.frame.removed)) =
      [([7, 9], []), ([7, 9], []), ([7], [9])] ∧ w.accepted = some 2)
    [exchangeTick 1 [byteEntity 7 1, byteEntity 9 1] [], .deliver 0, .ack 0,
      exchangeTick 2 [byteEntity 7 1, byteEntity 9 2] [], .deliver 1,
      exchangeTick 3 [byteEntity 7 1] [9], .ack 1, exchangeTick 4 [byteEntity 7 1] [], .deliver 2,
      .ack 2] (by decide +kernel)
  exact ⟨w, departed_tombstoned hrun, hw⟩

/-- A frame that shows the entity 9 is accepted, but its acknowledgement is lost. The entity is
destroyed and the frame is given up; the entry stays in the outbox. -/
theorem given_up_frame_leaks :
    ∃ w, Run (Steps (Exchange.step (byteSenderConfig 0) byteDecoders)) Always {} w ∧
      w.sent.map Queued.visible = [[7], [7, 9], [7]] ∧ w.acks = [(1, 1), (1, 2), (1, 3)] ∧
      w.sender.pending = none ∧ w.sender.lastVisible = some [7] ∧
      w.sender.pendingRemoved 9 = true ∧ ¬ w.Tombstoned byteDecoders := by
  obtain ⟨w, hrun, hsent, hacks, hp, hvisible, hleak⟩ := exists_run (s := {})
    (Exchange.step (byteSenderConfig 0) byteDecoders) Always
    (fun w => w.sent.map Queued.visible = [[7], [7, 9], [7]] ∧ w.acks = [(1, 1), (1, 2), (1, 3)] ∧
      w.sender.pending = none ∧ w.sender.lastVisible = some [7] ∧ w.sender.pendingRemoved 9 = true)
    [exchangeTick 1 [byteEntity 7 1] [], .deliver 0, .ack 0,
      exchangeTick 2 [byteEntity 7 1, byteEntity 9 1] [], .deliver 1,
      exchangeTick 3 [byteEntity 7 1] [9], exchangeTick 12 [byteEntity 7 1] [], .deliver 2, .ack 2]
    (by decide +kernel)
  refine ⟨w, hrun, hsent, hacks, hp, hvisible, hleak, fun h => ?_⟩
  have hretired := h.retired 9 (by simp [hvisible]) (by simp [hp])
  simp [hleak] at hretired

end Exchange

end Mmokit.Replication
