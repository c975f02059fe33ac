/-
A new stream starts with a fresh frame.

When the stream of a connection gets a new epoch, what was committed under the old one is worthless
to the client, and the first frame that is queued under the new epoch has to be self-contained.

A stream without an explicit generation loses this debt if its writer turns down the frame of the
tick that takes over the epoch of the viewer's entity (`AdoptsInVain`).
-/
import Mathlib
import Mmokit.Library.Runs
import Mmokit.System.SenderFrames

namespace Mmokit.Replication

open ConnState

structure Queued where
  frame : ReplicationFrame
  visible : List NetID
deriving DecidableEq

structure Connection where
  sender : Sender
  queued : List Queued := []

section Statement

variable {S : Type*} (cfg : SenderConfig S)

def Sender.queues (s : Sender) (i : ViewerTick S) : Option Queued :=
  if i.result.queued then
    (s.ready cfg i).map fun r => ⟨r.frame cfg i, (r.attempt cfg i).visible⟩
  else none

def Connection.step (c : Connection) (e : SenderEvent S) : Option Connection :=
  some {
    sender := c.sender.handle cfg e
    queued := match e with
      | .tick i => c.queued ++ (c.sender.queues cfg i).toList
      | _ => c.queued }

/-- The frame is fresh, and has a full payload for each visible entity. -/
structure Queued.SelfContained (q : Queued) : Prop where
  fresh : q.frame.fresh = true
  deltas : q.frame.deltas = []
  full : q.frame.full.map FullPayload.netID = q.visible

/-- The first frame that is queued under each stream epoch is self-contained. -/
def Connection.StartsFresh (c : Connection) : Prop :=
  ∀ earlier q later, c.queued = earlier ++ q :: later →
    (∀ p ∈ earlier, p.frame.streamEpoch ≠ q.frame.streamEpoch) → q.SelfContained

/-- The tick takes over an epoch of the viewer's entity that is not the epoch of the stream, while a
frame is committed and no fresh start is due, and the frame of the tick is turned down for good. -/
def Sender.AdoptsInVain (s : Sender) (i : ViewerTick S) : Bool :=
  s.pending.isNone && s.adopts i && s.lastVisible.isSome && !s.forceFresh &&
    i.viewer.any (fun v => v.2 ≠ s.streamEpoch) &&
    !i.result.queued && i.result.disposition ≠ .indeterminate

/-- The first explicit generation of the stream comes when its sequence counter has wrapped
to zero. -/
def Sender.AdoptsWrapped (s : Sender) (i : ViewerTick S) : Bool :=
  !s.hasExplicitGeneration && s.nextSeq = 0 && (s.pending.isSome || s.lastVisible.isSome) &&
    i.generation.any (· ≠ s.streamEpoch)

def RemembersFresh (c : Connection) : SenderEvent S → Prop
  | .tick i => c.sender.AdoptsInVain i = false ∧ c.sender.AdoptsWrapped i = false
  | _ => True

end Statement

/-- A fresh frame is due as long as the epoch has not been used. -/
structure Sender.Owes (used : UInt32 → Prop) (s : Sender) : Prop where
  due : used s.streamEpoch ∨ s.forceFresh = true ∨ s.lastVisible = none
  pending : s.pending ≠ none → used s.streamEpoch

namespace Sender.Owes

variable {S : Type*} {cfg : SenderConfig S} {used : UInt32 → Prop} {s : Sender} {i : ViewerTick S}

lemma new (mode : AckMode) : Owes used { mode := mode } := ⟨.inr (.inr rfl), by simp⟩

lemma mono {used' : UInt32 → Prop} (h : Owes used s) (hsub : ∀ e, used e → used' e) :
    Owes used' s :=
  ⟨h.due.imp_left (hsub _), fun hp => hsub _ (h.pending hp)⟩

lemma commitPending (h : Owes used s) : Owes used s.commitPending := by
  unfold Sender.commitPending
  cases hp : s.pending with
  | none => exact h
  | some p =>
    have hused := h.pending (by simp [hp])
    have hsame : s.commitPendingAttempt.streamEpoch = s.streamEpoch := by
      simp only [commitPendingAttempt, hp, clearRemoved]
      exact (sameStream_commit p.txn s.toConnState).streamEpoch
    have hkept : used s.commitPendingAttempt.streamEpoch := hsame ▸ hused
    exact ⟨.inl hkept, fun _ => hkept⟩

lemma discardPending (h : Owes used s) : Owes used s.discardPending := by
  unfold Sender.discardPending discardPendingAttempt setConn
  cases hp : s.pending with
  | none => exact ⟨h.due, fun h' => h.pending h'⟩
  | some p => exact ⟨.inr (.inl rfl), by simp⟩

lemma omitViewer (h : Owes used s) : Owes used s.omitViewer :=
  ⟨.inr (.inl rfl), h.discardPending.pending⟩

lemma ackFrame (h : Owes used s) (streamEpoch seq : UInt32) :
    Owes used (s.ackFrame streamEpoch seq) := by
  unfold Sender.ackFrame
  repeat' split
  all_goals first | exact h | exact h.commitPending

lemma ackSequence (h : Owes used s) (seq : UInt32) : Owes used (s.ackSequence seq) := by
  unfold Sender.ackSequence
  repeat' split
  all_goals first | exact h | exact h.commitPending

lemma drainFrameReceipt (h : Owes used s) (streamEpoch seq : UInt32) (result : SendResult) :
    Owes used (s.drainFrameReceipt streamEpoch seq result) := by
  unfold Sender.drainFrameReceipt
  repeat' split
  · exact h
  · exact h
  · exact h
  · exact h.discardPending
  · -- the connection starts over, with explicit acknowledgements
    exact ⟨.inr (.inl rfl), by simp⟩
  · exact h.commitPending
  · exact h.discardPending

lemma resolveStreamGeneration (h : Owes used s) (hwrap : s.AdoptsWrapped i = false) :
    Owes used (s.resolveStreamGeneration i.generation) := by
  rcases s.resolveStreamGeneration_cases i.generation with
    ⟨x, y, hsame, -⟩ | ⟨g, -, hnew⟩ | ⟨hexplicit, hzero, hsent, g, hg, hother⟩
  · rw [hsame]
    exact ⟨h.due, h.pending⟩
  · exact ⟨.inr (.inr hnew.lastVisible), fun hp => absurd hnew.pending hp⟩
  · have hsent' : (s.pending.isSome || s.lastVisible.isSome) = true := by
      simpa [Option.ne_none_iff_isSome] using hsent
    simp [AdoptsWrapped, hexplicit, hzero, hsent', hg, hother] at hwrap

lemma awaitPending (h : Owes used s) : Owes used (s.awaitPending cfg i).1 := by
  unfold Sender.awaitPending
  cases hp : s.pending with
  | none => exact h
  | some p =>
    have hnoted (ids : List NetID) : Owes used (s.setConn (s.markRemoved ids)) := ⟨h.due, h.pending⟩
    dsimp only
    split
    · exact (hnoted _).discardPending
    · exact hnoted _

lemma adoptViewer (h : Owes used s) (hp : s.pending = none) (hvain : s.AdoptsInVain i = false)
    (hqueued : ¬ i.result.queued = true) (hlost : i.result.disposition ≠ .indeterminate) :
    Owes used (s.adoptViewer i) := by
  refine ⟨?_, by simp [hp]⟩
  rw [adoptViewer_lastVisible]
  rcases adoptViewer_cases with hsame | ⟨n, epoch, hviewer, hadopts, hnew⟩
  · rw [hsame]
    exact h.due
  by_cases heq : epoch = s.streamEpoch
  · rw [hnew, heq]
    exact h.due
  refine .inr ?_
  cases hlast : s.lastVisible with
  | none => exact .inr rfl
  | some visible =>
    left
    simpa [AdoptsInVain, hp, hadopts, hviewer, heq, hqueued, hlost, hlast] using hvain

lemma afterWrite (h : Owes used s) (hp : s.pending = none) (hvain : s.AdoptsInVain i = false) :
    Owes (fun e => used e ∨ i.result.queued = true ∧ e = (s.frame cfg i).streamEpoch)
      (s.afterWrite cfg i) := by
  unfold Sender.afterWrite
  dsimp only
  split
  · -- committed at once
    rename_i hcommit
    have hqueued : i.result.queued = true := ((Bool.and_eq_true _ _).mp hcommit.2).1
    have hepoch := (sameStream_commit (s.attempt cfg i).txn
      { s.adoptViewer i with nextSeq := (s.attempt cfg i).seq }.toConnState).streamEpoch
    exact ⟨.inl (.inr ⟨hqueued, hepoch⟩), fun _ => .inr ⟨hqueued, hepoch⟩⟩
  · split
    · -- in flight
      rename_i hqueued
      have hepoch : (if (s.adoptViewer i).mode = .explicit then
          (s.attempt cfg i).txn.foldl retainStaged
            { s.adoptViewer i with nextSeq := (s.attempt cfg i).seq }.toConnState
        else { s.adoptViewer i with nextSeq := (s.attempt cfg i).seq }.toConnState).streamEpoch =
          (s.adoptViewer i).streamEpoch := by
        split
        · exact (sameStream_retain _ _).streamEpoch
        · rfl
      exact ⟨.inl (.inr ⟨hqueued.1, hepoch⟩), fun _ => .inr ⟨hqueued.1, hepoch⟩⟩
    · split
      · -- the frame may still arrive: a fresh start is due
        refine ⟨.inr (.inl rfl), fun hp' => absurd ?_ hp'⟩
        exact adoptViewer_pending.trans hp
      rename_i hlost
      rw [not_or] at hlost
      have hkept := h.adoptViewer hp hvain hlost.1 hlost.2
      exact ⟨hkept.due.imp_left .inl, fun hp' => .inl (hkept.pending hp')⟩

lemma ready {r : Sender} (h : Owes used s) (hwrap : s.AdoptsWrapped i = false)
    (hvain : s.AdoptsInVain i = false) (hr : r ∈ s.ready cfg i) :
    Owes used r ∧ r.pending = none ∧ r.AdoptsInVain i = false := by
  have howes : Owes used ((s.resolveStreamGeneration i.generation).awaitPending cfg i).1 :=
    (h.resolveStreamGeneration hwrap).awaitPending
  have hsome : s.resolveStreamGeneration i.generation = s ∨ i.generation.isSome = true := by
    cases i.generation with
    | none => exact .inl rfl
    | some g => exact .inr rfl
  unfold Sender.ready at hr
  dsimp only at hr
  split at hr
  · rename_i hbuild
    cases hr
    refine ⟨howes, ?_⟩
    generalize hu : s.resolveStreamGeneration i.generation = u at hbuild hsome ⊢
    unfold Sender.awaitPending at hbuild ⊢
    cases hp : u.pending with
    | none =>
      refine ⟨hp, ?_⟩
      rcases hsome with rfl | hg
      · exact hvain
      · simp [AdoptsInVain, adopts, Option.ne_none_iff_isSome.mpr hg]
    | some p =>
      simp only [hp] at hbuild ⊢
      split at hbuild
      · rename_i htimeout
        rw [if_pos htimeout]
        simp [Sender.discardPending, discardPendingAttempt, setConn,
          markRemoved, hp, AdoptsInVain]
      · cases hbuild
  · cases hr

lemma fresh (h : Owes used s) (hnew : ¬ used (s.frame cfg i).streamEpoch) :
    (s.frame cfg i).fresh = true := by
  change (s.startsFresh i || s.lastVisible.isNone) = true
  rcases adoptViewer_cases with hsame | ⟨n, epoch, -, hadopts, -⟩
  · have hepoch : (s.frame cfg i).streamEpoch = s.streamEpoch := congrArg (·.streamEpoch) hsame
    rcases h.due with hused | hforce | hnone
    · exact absurd (hepoch ▸ hused) hnew
    · simp [startsFresh, hforce]
    · simp [hnone]
  · -- the stream has just changed its epoch
    cases hlast : s.lastVisible <;> simp [startsFresh, hadopts, hlast]

end Sender.Owes

namespace Connection

variable {S : Type*} {cfg : SenderConfig S} {c d : Connection}

def Used (c : Connection) (epoch : UInt32) : Prop := ∃ q ∈ c.queued, q.frame.streamEpoch = epoch

/-- Epochs begin with a fresh frame. -/
structure FreshInv (c : Connection) : Prop where
  starts : c.StartsFresh
  owes : c.sender.Owes c.Used

lemma FreshInv.keep {s : Sender} (h : c.FreshInv) (hs : s.Owes c.Used) :
    FreshInv ⟨s, c.queued⟩ := ⟨h.starts, hs⟩

lemma FreshInv.queue {s : Sender} {q : Queued} (h : c.FreshInv)
    (hq : ¬ c.Used q.frame.streamEpoch → q.SelfContained)
    (hs : s.Owes fun e => c.Used e ∨ e = q.frame.streamEpoch) :
    FreshInv ⟨s, c.queued ++ [q]⟩ := by
  refine ⟨fun earlier p later hsplit hfirst => ?_, hs.mono ?_⟩
  · rcases List.append_eq_append_iff.mp hsplit with ⟨l, hl, hr⟩ | ⟨l, hl, hr⟩
    · -- the new frame is the one in question, or comes before it
      rcases List.cons_eq_append_iff.mp hr with ⟨rfl, hnil⟩ | ⟨l', rfl, hnil⟩
      · obtain ⟨rfl, rfl⟩ : p = q ∧ later = [] := by simpa using hnil
        refine hq fun hused => ?_
        obtain ⟨r, hr', hepoch⟩ := hused
        exact hfirst r (by simpa [hl] using hr') hepoch
      · simp at hnil
    · rcases List.cons_eq_append_iff.mp hr with ⟨rfl, hnil⟩ | ⟨l', rfl, hnil⟩
      · obtain ⟨rfl, rfl⟩ : p = q ∧ later = [] := by simpa [eq_comm] using hnil
        refine hq fun hused => ?_
        obtain ⟨r, hr', hepoch⟩ := hused
        exact hfirst r (by simpa [hl] using hr') hepoch
      · exact h.starts earlier p l' hl hfirst
  · rintro e (⟨r, hr, rfl⟩ | rfl)
    · exact ⟨r, List.mem_append_left _ hr, rfl⟩
    · exact ⟨q, by simp, rfl⟩

lemma FreshInv.step {e : SenderEvent S} (h : c.FreshInv) (hK : RemembersFresh c e)
    (hstep : c.step cfg e = some d) : d.FreshInv := by
  cases hstep
  cases e with
  | tick i =>
    obtain ⟨hvain, hwrap⟩ := hK
    simp only [Sender.handle, Sender.update, Sender.queues, Sender.ready]
    split
    · rename_i hbuild
      have hmem : ((c.sender.resolveStreamGeneration i.generation).awaitPending cfg i).1 ∈
          c.sender.ready cfg i := by simp [Sender.ready, hbuild]
      obtain ⟨howes, hp, hvain⟩ := h.owes.ready hwrap hvain hmem
      generalize ((c.sender.resolveStreamGeneration i.generation).awaitPending cfg i).1 = r
        at howes hp hvain ⊢
      have hafter : Sender.Owes (fun e => c.Used e ∨ i.result.queued = true ∧
          e = (r.frame cfg i).streamEpoch) (r.afterWrite cfg i) := howes.afterWrite hp hvain
      cases hqueued : i.result.queued with
      | false =>
        simp only [hqueued, Bool.false_eq_true, false_and, or_false] at hafter
        simpa using h.keep hafter
      | true =>
        simp only [hqueued, true_and] at hafter
        have hself (hnew : ¬ c.Used (r.frame cfg i).streamEpoch) :
            Queued.SelfContained ⟨r.frame cfg i, (r.attempt cfg i).visible⟩ := by
          have hfresh := howes.fresh hnew
          obtain ⟨hdeltas, hfull⟩ := Sender.selfContained_of_fresh hfresh
          exact ⟨hfresh, hdeltas, hfull⟩
        exact h.queue hself hafter
    · have howes : Sender.Owes c.Used
          ((c.sender.resolveStreamGeneration i.generation).awaitPending cfg i).1 :=
        (h.owes.resolveStreamGeneration hwrap).awaitPending
      simpa using h.keep howes
  | omitViewer => exact h.keep h.owes.omitViewer
  | removeViewer mode => exact h.keep (.new mode)
  | receipt streamEpoch seq result => exact h.keep (h.owes.drainFrameReceipt _ _ _)
  | ack streamEpoch seq => exact h.keep (h.owes.ackFrame _ _)
  | ackSequence seq => exact h.keep (h.owes.ackSequence _)

/-- **Every new stream starts fresh**, where no epoch is adopted in vain and the sequence counter
does not wrap before the first explicit generation. -/
theorem streams_start_fresh {mode : AckMode}
    (h : Run (Steps (Connection.step cfg)) RemembersFresh ⟨{ mode := mode }, []⟩ c) :
    c.StartsFresh := by
  have hinv : c.FreshInv := by
    refine Run.invariant (I := FreshInv) ⟨?_, .new mode⟩ (fun hI hK hR => hI.step hK hR) h
    intro earlier q later hsplit
    simp at hsplit
  exact hinv.starts

end Connection

/-! ### A spectator that gets an entity -/

def byteSenderConfig (dormancyThreshold : UInt32) : SenderConfig UInt8 where
  toReplicationConfig := byteConfig
  dormancyThreshold := dormancyThreshold
  pendingReceiptTimeoutTicks := 0
  tracksReceipts := false

def spectatorTick (tick : UInt32) (viewer : Option (NetID × Epoch))
    (results : List (Candidate UInt8)) (disposition : SendDisposition) : SenderEvent UInt8 :=
  .tick ⟨tick, none, viewer, results, [], ⟨disposition, .reliableOrdered⟩⟩

instance RemembersFresh.decide {S : Type*} (c : Connection) (e : SenderEvent S) :
    Decidable (RemembersFresh c e) := by
  cases e <;> dsimp only [RemembersFresh] <;> infer_instance

namespace Connection

theorem streams_start_fresh_spectator :
    ∃ c : Connection, c.StartsFresh ∧ c.queued.map (fun q => (q.frame.streamEpoch, q.frame.fresh)) =
      [(0, true), (5, true), (5, false)] := by
  obtain ⟨c, hrun, hc⟩ := exists_run (s := ⟨{ mode := .reliable }, []⟩)
    (Connection.step (byteSenderConfig 0)) RemembersFresh
    (fun c => c.queued.map (fun q => (q.frame.streamEpoch, q.frame.fresh)) =
      [(0, true), (5, true), (5, false)])
    [spectatorTick 1 none [byteEntity 9 1] .queued,
      spectatorTick 2 (some (7, 5)) [byteEntity 7 1, byteEntity 9 1] .queued,
      spectatorTick 3 (some (7, 5)) [byteEntity 7 1, byteEntity 9 2] .queued] (by decide +kernel)
  exact ⟨c, streams_start_fresh hrun, hc⟩

/-- The frame with which the spectator's stream changes its epoch meets backpressure. The next one
is the first that is queued under the new epoch; it is not fresh, and has a delta. -/
theorem rejected_adoption_starts_stale :
    ∃ c, Run (Steps (Connection.step (byteSenderConfig 0))) Always ⟨{ mode := .reliable }, []⟩ c ∧
      c.queued.map (fun q => (q.frame.streamEpoch, q.frame.fresh, q.frame.deltas.length)) =
        [(0, true, 0), (5, false, 1)] ∧ ¬ c.StartsFresh := by
  obtain ⟨c, hrun, hc⟩ := exists_run (s := ⟨{ mode := .reliable }, []⟩)
    (Connection.step (byteSenderConfig 0)) Always
    (fun c => c.queued.map (fun q => (q.frame.streamEpoch, q.frame.fresh, q.frame.deltas.length)) =
        [(0, true, 0), (5, false, 1)])
    [spectatorTick 1 none [byteEntity 9 1] .queued,
      spectatorTick 2 (some (7, 5)) [byteEntity 7 1, byteEntity 9 2] .backpressure,
      spectatorTick 3 (some (7, 5)) [byteEntity 7 1, byteEntity 9 3] .queued] (by decide +kernel)
  refine ⟨c, hrun, hc, fun hfresh => ?_⟩
  simp only [List.map_eq_cons_iff, List.map_eq_nil_iff, Prod.mk.injEq] at hc
  obtain ⟨p, -, hsplit, ⟨hp, -⟩, q, -, rfl, ⟨hq, hstale, -⟩, rfl⟩ := hc
  have hself := hfresh [p] q [] hsplit (by simp [hp, hq])
  exact absurd hself.fresh (by simp [hstale])

end Connection

end Mmokit.Replication
