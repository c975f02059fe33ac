/-
Ticks whose frame is not queued (`Update` in `pkg/system/replication.go`).

To the sender of `ReplicationSender` this adds the record of recent removals, which finds entities
that blink, and the receipts that a tick takes in before it builds its frame.
-/
import Mmokit.System.StreamFreshness

namespace Mmokit.Replication

/-- The sender's settings with the blink detector. -/
structure BlinkConfig (S : Type*) extends SenderConfig S where
  /-- 0 disables the blink detector. -/
  blinkDetectorTicks : UInt64

/-- A tick with the receipts that it takes in. -/
structure ServerTick (S : Type*) extends ViewerTick S where
  receipts : List (UInt32 × UInt32 × SendResult) := []

/-- The sender with its record of removals. -/
structure BlinkSender extends Sender where
  /-- The tick at which an entity was last removed. -/
  recentRemovals : NetID → Option UInt64 := fun _ => none
  /-- The record that the attempt in flight stages. -/
  stagedRemovals : NetID → Option UInt64 := fun _ => none

/-- What a sender has committed. -/
structure CommittedState where
  lastVisible : Option (List NetID)
  baselines : NetID → Option Baseline
  lastHash : NetID → Option UInt64
  selfNetID : NetID

def Sender.committedState (s : Sender) : CommittedState := { s with }

namespace BlinkSender

variable {S : Type*} (cfg : BlinkConfig S) (s : BlinkSender)

/-- All that is committed, the removals too. -/
def committed : CommittedState × (NetID → Option UInt64) :=
  (s.toSender.committedState, s.recentRemovals)

/-- Is the receipt for the attempt in flight? -/
def answers (r : UInt32 × UInt32 × SendResult) : Bool :=
  s.pending.any fun p => p.streamEpoch = r.1 && p.seq = r.2.1

/-- A receipt commits the staged removals, or clears the record. -/
def drainFrameReceipt (r : UInt32 × UInt32 × SendResult) : BlinkSender :=
  { s with
    toSender := s.toSender.drainFrameReceipt r.1 r.2.1 r.2.2
    recentRemovals :=
      if s.answers r ∧ s.mode = .reliable then
        -- A weaker path than promised starts the connection over.
        if r.2.2.queued && r.2.2.delivery ≠ .reliableOrdered then fun _ => none
        else if r.2.2.supports .reliableOrdered ∧ 0 < cfg.blinkDetectorTicks then s.stagedRemovals
        else s.recentRemovals
      else s.recentRemovals }

/-- Does the generation start the stream over? -/
def startsOver (generation : Option UInt32) : Bool :=
  generation.any fun g =>
    if s.hasExplicitGeneration then
      g ≠ s.streamEpoch && ConnState.streamGenerationAfter g s.streamEpoch
    else s.nextSeq ≠ 0 && s.streamEpoch ≠ g

/-- A stream that starts over forgets the removals. -/
def resolveStreamGeneration (generation : Option UInt32) : BlinkSender :=
  { s with
    toSender := s.toSender.resolveStreamGeneration generation
    recentRemovals := if s.startsOver generation then fun _ => none else s.recentRemovals }

/-- The removals after this frame, without those that are too old. -/
def stageRemovals (i : ViewerTick S) : NetID → Option UInt64 :=
  if cfg.blinkDetectorTicks = 0 then s.recentRemovals
  else
    let entered := (s.build cfg.toSenderConfig i).visible.filter fun n => !s.wasVisible n
    let seen := entered.foldl (fun r n => Function.update r n none) s.recentRemovals
    let tick := i.tick.toUInt64
    let staged := (s.left cfg.toSenderConfig i).1.foldl
      (fun r n => Function.update r n (some tick)) seen
    if cfg.blinkDetectorTicks ≤ tick then
      fun n => (staged n).filter (tick - cfg.blinkDetectorTicks ≤ ·)
    else staged

/-- What a tick does before it builds its frame. -/
def begin (i : ServerTick S) : BlinkSender :=
  (i.receipts.foldl (drainFrameReceipt cfg) s).resolveStreamGeneration i.generation

/-- `Update`, and whether it built a frame. -/
def update (i : ServerTick S) : BlinkSender × Bool :=
  let t := s.begin cfg i
  let r := t.toSender.awaitPending cfg.toSenderConfig i.toViewerTick
  let waited : BlinkSender := { t with toSender := r.1 }
  if r.2 then
    let staged := waited.stageRemovals cfg i.toViewerTick
    ({ toSender := r.1.afterWrite cfg.toSenderConfig i.toViewerTick
       recentRemovals :=
         if r.1.mode = .reliable ∧ i.result.supports .reliableOrdered ∧ 0 < cfg.blinkDetectorTicks
         then staged else t.recentRemovals
       stagedRemovals := staged }, true)
  else (waited, false)

/-! ### What a tick without a frame leaves -/

variable {s}

lemma supports_eq_false {r : SendResult} (h : r.queued = false) (d : DeliveryClass) :
    r.supports d = false := by
  cases d <;> simp [SendResult.supports, h]

lemma discardPending_committed (t : Sender) :
    t.discardPending.committedState = t.committedState := by
  unfold Sender.discardPending Sender.setConn ConnState.discardPendingAttempt
  cases t.pending <;> rfl

lemma awaitPending_committed (t : Sender) (i : ViewerTick S) :
    (t.awaitPending cfg.toSenderConfig i).1.committedState = t.committedState := by
  unfold Sender.awaitPending
  cases t.pending with
  | none => rfl
  | some p =>
    dsimp only
    split
    · exact discardPending_committed _
    · rfl

lemma afterWrite_committed (t : Sender) {i : ViewerTick S} (h : i.result.queued = false) :
    (t.afterWrite cfg.toSenderConfig i).committedState = t.committedState := by
  have hadopt : (t.adoptViewer i).committedState = t.committedState := by
    unfold Sender.adoptViewer
    split
    · split <;> rfl
    · rfl
  simp only [Sender.afterWrite, supports_eq_false h, h, Bool.false_eq_true, and_false, if_false,
    false_and, false_or]
  split <;> exact hadopt

lemma drainFrameReceipt_of_not_answers {r : UInt32 × UInt32 × SendResult}
    (h : s.answers r = false) :
    s.drainFrameReceipt cfg r = s := by
  have hsender : s.toSender.drainFrameReceipt r.1 r.2.1 r.2.2 = s.toSender := by
    unfold Sender.drainFrameReceipt
    cases hp : s.pending with
    | none => rfl
    | some p =>
      have hne : p.streamEpoch ≠ r.1 ∨ p.seq ≠ r.2.1 := by
        simp only [answers, hp, Option.any_some, Bool.and_eq_false_iff,
          decide_eq_false_iff_not] at h
        exact h
      simp only [if_pos hne]
  simp only [drainFrameReceipt, hsender, h, Bool.false_eq_true, false_and, if_false]

lemma resolveStreamGeneration_committed {g : Option UInt32} (h : s.startsOver g = false) :
    (s.resolveStreamGeneration g).committed = s.committed := by
  have hsender : (s.toSender.resolveStreamGeneration g).committedState =
    s.toSender.committedState := by
    cases g with
    | none => rfl
    | some g =>
      simp only [startsOver, Option.any_some] at h
      unfold Sender.resolveStreamGeneration
      cases he : s.hasExplicitGeneration with
      | false =>
        have hkeep : ¬(s.nextSeq ≠ 0 ∧ s.streamEpoch ≠ g) := by simpa [he] using h
        simp only [Bool.not_false, if_true, if_neg hkeep]
        rfl
      | true =>
        simp only [Bool.not_true, Bool.false_eq_true, if_false]
        by_cases heq : g = s.streamEpoch
        · rw [if_pos heq]
        · have hafter : ConnState.streamGenerationAfter g s.streamEpoch = false := by
            simpa [he, heq] using h
          simp only [if_neg heq, hafter, Bool.not_false, if_true]
  simp only [committed, resolveStreamGeneration, hsender, h, Bool.false_eq_true, if_false]

lemma foldl_drainFrameReceipt {receipts : List (UInt32 × UInt32 × SendResult)}
    (h : ∀ r ∈ receipts, s.answers r = false) : receipts.foldl (drainFrameReceipt cfg) s = s := by
  induction receipts with
  | nil => rfl
  | cons r receipts ih =>
    rw [List.foldl_cons, drainFrameReceipt_of_not_answers cfg (h r List.mem_cons_self)]
    exact ih fun r' hr' => h r' (List.mem_cons_of_mem _ hr')

/-- **A tick whose frame is not queued changes nothing that is committed.** This is said of the
state that the receipts and the generation of the tick leave; if no receipt answers the attempt in
flight and no generation starts the stream over, it is the state before the tick. -/
theorem unsent_tick_keeps_committed (cfg : BlinkConfig S) (s : BlinkSender) (i : ServerTick S)
    (hunsent : i.result.queued = false ∨ (s.update cfg i).2 = false) :
    (s.update cfg i).1.committed = (s.begin cfg i).committed ∧
    ((∀ r ∈ i.receipts, s.answers r = false) → s.startsOver i.generation = false →
      (s.update cfg i).1.committed = s.committed) := by
  have hbegin : (s.update cfg i).1.committed = (s.begin cfg i).committed := by
    unfold update at hunsent ⊢
    set t := s.begin cfg i with ht
    have hwait := awaitPending_committed cfg t.toSender i.toViewerTick
    dsimp only at hunsent ⊢
    split
    · rename_i hready
      rw [if_pos hready] at hunsent
      have hqueued := hunsent.resolve_right (by simp)
      have hwrite := afterWrite_committed cfg
        (t.toSender.awaitPending cfg.toSenderConfig i.toViewerTick).1 hqueued
      simp only [committed, supports_eq_false hqueued, Bool.false_eq_true, false_and, and_false,
        if_false, hwrite, hwait]
    · simp only [committed, hwait]
  refine ⟨hbegin, fun hreceipts hgen => hbegin.trans ?_⟩
  unfold begin
  rw [foldl_drainFrameReceipt cfg hreceipts, resolveStreamGeneration_committed hgen]

def secondTick (generation : UInt32) : BlinkSender × ServerTick UInt8 :=
  let tick (t g : UInt32) (disposition : SendDisposition) : ServerTick UInt8 :=
    { tick := t, generation := some g, viewer := none, results := [byteEntity 9 1], removedIDs := []
      result := ⟨disposition, .reliableOrdered⟩ }
  ((({ mode := .reliable } : BlinkSender).update ⟨byteSenderConfig 0, 0⟩ (tick 1 1 .queued)).1,
    tick 2 generation .closed)

theorem unsent_tick_keeps_committed_closed :
    let s := (secondTick 1).1
    (s.update ⟨byteSenderConfig 0, 0⟩ (secondTick 1).2).1.committed = s.committed ∧
      s.lastVisible = some [9] :=
  ⟨(unsent_tick_keeps_committed ⟨byteSenderConfig 0, 0⟩ (secondTick 1).1 (secondTick 1).2
    (.inl rfl)).2 (by simp [secondTick]) (by decide +kernel), by decide +kernel⟩

/-- A later generation drops what was committed, though its first frame is not queued. -/
theorem unsent_tick_starts_over :
    let s := (secondTick 2).1
    (secondTick 2).2.result.queued = false ∧ s.lastVisible = some [9] ∧
      (s.update ⟨byteSenderConfig 0, 0⟩ (secondTick 2).2).1.lastVisible = none := by
  decide +kernel

end BlinkSender

end Mmokit.Replication
