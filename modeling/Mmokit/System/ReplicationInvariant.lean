/-
The invariant of the replication stream.

A frame that is not fresh is built right after the frame before it was acknowledged, and while it
is awaited no other frame is sent. So the client that accepts it has accepted its predecessor last,
and its view is the one that the sender built upon.
-/
import Mmokit.System.ReplicationView

namespace Mmokit.Replication

open ConnState

variable {S : Type*}

/-! ### Parts of the invariant -/

def Stream.HasAccepted (s : Stream) (k : ℕ) : Prop := ∃ a, s.accepted = some a ∧ k ≤ a

/-- A view shows the entities of a frame as they were when it was built: all that were visible and
not held back, and no others but those that were the viewer's own when they went out of sight. -/
structure Sent.Shows (sent : List Sent) (r : Sent) (view : View) : Prop where
  present : ∀ n ∈ r.visible, n ∉ r.held →
    ∃ entry, view n = some entry ∧ r.snapshots.lookup n = some entry.snapshot
  former : ∀ n entry, view n = some entry → n ∈ r.visible ∨
    ∃ r' ∈ sent, r'.frame.streamEpoch = r.frame.streamEpoch ∧ r'.selfNetID = n ∧ n ∉ r'.visible

/-- How frame number `k` of the record leads to its view. -/
structure Stream.FrameInv (decoders : UInt8 → Option DeltaEncoder) (s : Stream) (views : ℕ → View)
    (k : ℕ) (r : Sent) : Prop where
  base : r.frame.fresh = false → ∃ j rj, j + 1 = k ∧ s.sent[j]? = some rj ∧
    rj.frame.streamEpoch = r.frame.streamEpoch ∧ s.HasAccepted j
  decode : ∀ st : DecoderState, (∀ x ∈ r.seen, Entry.Fenced x.2.1 (st.authorityEpochs x.1)) →
    (r.frame.fresh = false → ∀ j, j + 1 = k → st.baselines = views j) →
    (st.applyFrame decoders r.frame).baselines = views k
  fence : ∀ (st : DecoderState) n x,
    (st.applyFrame decoders r.frame).authorityEpochs n = some x →
      st.authorityEpochs n = some x ∨ ∃ kind, (n, x, kind) ∈ r.seen
  shows : r.Shows s.sent (views k)

/-- Two sightings of an entity, the first one earlier: the same lifecycle, or a later authority. -/
def Succeeds (x y : NetID × Epoch × UInt8) : Prop :=
  x.1 = y.1 → x.2 = y.2 ∨ Serial.After y.2.1 x.2.1

/-- The sightings of a new frame come after those of all earlier ones. -/
def Continues (sent : List Sent) (new : Sent) : Prop :=
  ∀ r ∈ sent, ∀ x ∈ r.seen, ∀ y ∈ new.seen, Succeeds x y

/-- The frames are in order, and each gives its view. -/
structure Stream.Record (decoders : UInt8 → Option DeltaEncoder) (b : UInt32) (s : Stream)
    (views : ℕ → View) : Prop where
  comparable : ∀ r ∈ s.sent, Comparable b r.frame
  order : s.sent.Pairwise fun r r' => Before b r.frame r'.frame
  lifecycles : s.sent.Pairwise fun r r' => ∀ x ∈ r.seen, ∀ y ∈ r'.seen, Succeeds x y
  frames : ∀ k r, s.sent[k]? = some r → s.FrameInv decoders views k r

/-- The client has the view of its last frame. -/
structure Stream.ClientInv (s : Stream) (views : ℕ → View) : Prop where
  nothing : s.accepted = none → s.client.hasStreamEpoch = false ∧
    (∀ n, s.client.baselines n = none) ∧ ∀ n, s.client.authorityEpochs n = none
  accepted : ∀ k, s.accepted = some k → ∃ r, s.sent[k]? = some r ∧ s.client.Fences r.frame ∧
    s.client.baselines = views k
  fence : ∀ n x, s.client.authorityEpochs n = some x → ∃ j r kind, s.HasAccepted j ∧
    s.sent[j]? = some r ∧ (n, x, kind) ∈ r.seen
  acks : ∀ a ∈ s.acks, ∃ j r, s.HasAccepted j ∧ s.sent[j]? = some r ∧
    a = (r.frame.streamEpoch, r.frame.seq)

def Stream.SyncedAt (cfg : ReplicationConfig S) (s : Stream) (views : ℕ → View) (conn : ConnState)
    (j : ℕ) : Prop :=
  ∃ r, s.sent[j]? = some r ∧ r.frame.streamEpoch = conn.streamEpoch ∧
    conn.lastVisible = some r.visible ∧
    ∀ n ∈ r.visible, ∃ entry bl rep, views j n = some entry ∧
      (n, entry.authorityEpoch, entry.entityType) ∈ r.seen ∧ Agrees cfg (conn.at n) entry bl rep

/-- What is committed is what the client has. -/
structure Stream.SenderInv (cfg : ReplicationConfig S) (b : UInt32) (s : Stream)
    (views : ℕ → View) : Prop where
  window : s.conn.hasExplicitGeneration = true → Serial.InWindow b s.conn.streamEpoch
  start : s.conn.hasExplicitGeneration = false →
    s.conn.nextSeq = 0 ∧ s.conn.pending = none ∧ s.conn.lastVisible = none
  bounded : ∀ r ∈ s.sent, s.conn.hasExplicitGeneration = true ∧
    (Serial.offset b r.frame.streamEpoch < Serial.offset b s.conn.streamEpoch ∨
      r.frame.streamEpoch = s.conn.streamEpoch ∧ r.frame.seq.toNat ≤ s.conn.nextSeq.toNat)
  committed : s.conn.pending = none → s.conn.forceFresh = false → s.conn.lastVisible ≠ none →
    ∃ j, j + 1 = s.sent.length ∧ s.HasAccepted j ∧ s.SyncedAt cfg views s.conn j
  pending : ∀ p, s.conn.pending = some p → ∃ j r, j + 1 = s.sent.length ∧
    s.sent[j]? = some r ∧ r.frame.streamEpoch = p.streamEpoch ∧ r.frame.seq = p.seq ∧
    s.SyncedAt cfg views s.conn.commitPendingAttempt j

/-- The invariant of the stream. -/
structure Stream.Inv (cfg : ReplicationConfig S) (decoders : UInt8 → Option DeltaEncoder)
    (b : UInt32) (s : Stream) (views : ℕ → View) : Prop where
  record : s.Record decoders b views
  client : s.ClientInv views
  sender : s.SenderInv cfg b views

/-! ### The conditions on a run -/

/-- The generations stay within half of the number space above `b`, a generation has fewer than
`2 ^ 31` frames, and no entity goes back to an earlier authority, or changes its kind under the same
one, compared with all frames that were sent. -/
def Orderly (cfg : ReplicationConfig S) (b : UInt32) (s : Stream) : Action S → Prop
  | .tick i => Serial.InWindow b i.generation ∧
      ∀ conn, buildingConn cfg s.conn i = some conn → conn.nextSeq.toNat + 1 < 0x80000000 ∧
        Continues s.sent (sentOf cfg conn i)
  | _ => True

/-! ### Operations of the sender -/

section Sender

variable {cfg : ReplicationConfig S} {b : UInt32} {s : Stream} {views : ℕ → View}

lemma foldl_commitStaged_eq (conn : ConnState) (txn : List Staged) :
    ∃ baselines lastHash, txn.foldl commitStaged conn =
      { conn with baselines := baselines, lastHash := lastHash } := by
  induction txn generalizing conn with
  | nil => exact ⟨_, _, rfl⟩
  | cons x txn ih =>
    have hx : ∃ baselines lastHash, conn.commitStaged x =
        { conn with baselines := baselines, lastHash := lastHash } := by
      unfold commitStaged
      split <;> exact ⟨_, _, rfl⟩
    obtain ⟨bs, hs, hx⟩ := hx
    obtain ⟨bs', hs', htail⟩ := ih (conn.commitStaged x)
    exact ⟨bs', hs', by rw [List.foldl_cons, htail, hx]⟩

lemma commitPendingAttempt_spec {conn : ConnState} {p : PendingAttempt}
    (hp : conn.pending = some p) :
    (∀ n, conn.commitPendingAttempt.at n = (p.txn.foldl commitStaged conn).at n) ∧
      conn.commitPendingAttempt.lastVisible = some p.visible ∧
      conn.commitPendingAttempt.pending = none ∧
      conn.commitPendingAttempt.streamEpoch = conn.streamEpoch ∧
      conn.commitPendingAttempt.nextSeq = conn.nextSeq ∧
      conn.commitPendingAttempt.hasExplicitGeneration = conn.hasExplicitGeneration := by
  obtain ⟨bs, hs, hfold⟩ := foldl_commitStaged_eq conn p.txn
  simp [ConnState.commitPendingAttempt, hp, hfold, ConnState.clearRemoved, ConnState.at]

lemma Stream.SyncedAt.congr {conn conn' : ConnState} {j : ℕ} (h : s.SyncedAt cfg views conn j)
    (hat : ∀ n, conn'.at n = conn.at n) (hvisible : conn'.lastVisible = conn.lastVisible)
    (hepoch : conn'.streamEpoch = conn.streamEpoch) : s.SyncedAt cfg views conn' j := by
  obtain ⟨r, hr, hgen, hvis, hentries⟩ := h
  refine ⟨r, hr, hgen.trans hepoch.symm, hvisible.trans hvis, fun n hn => ?_⟩
  obtain ⟨entry, bl, rep, hview, hseen, hagrees⟩ := hentries n hn
  exact ⟨entry, bl, rep, hview, hseen, (hat n).symm ▸ hagrees⟩

lemma Stream.SenderInv.forceFresh (h : s.SenderInv cfg b views) {conn : ConnState}
    (hpending : conn.pending = none) (hforce : conn.forceFresh = true)
    (hgen : conn.hasExplicitGeneration = s.conn.hasExplicitGeneration)
    (hepoch : conn.streamEpoch = s.conn.streamEpoch) (hseq : conn.nextSeq = s.conn.nextSeq)
    (hvisible : conn.lastVisible = s.conn.lastVisible) :
    { s with conn := conn }.SenderInv cfg b views where
  window := by
    rw [hgen, hepoch]
    exact h.window
  start := by
    rw [hgen, hseq, hvisible]
    exact fun hgen => ⟨(h.start hgen).1, hpending, (h.start hgen).2.2⟩
  bounded r hr := by
    rw [hgen, hepoch, hseq]
    exact h.bounded r hr
  committed _ hfalse := by simp [hforce] at hfalse
  pending p hp := by simp [hpending] at hp

lemma Stream.SenderInv.discard (h : s.SenderInv cfg b views) :
    { s with conn := s.conn.discardPendingAttempt }.SenderInv cfg b views := by
  cases hp : s.conn.pending with
  | none => simpa [discardPendingAttempt, hp] using h
  | some p => apply h.forceFresh <;> simp [discardPendingAttempt, hp,
      markRemoved]

lemma Stream.SenderInv.omitViewer (h : s.SenderInv cfg b views) :
    { s with conn := s.conn.omitViewer }.SenderInv cfg b views := by
  apply h.forceFresh <;> cases hp : s.conn.pending <;>
    simp [ConnState.omitViewer, ConnState.discardPendingAttempt, hp, ConnState.markRemoved]

lemma Stream.SenderInv.drainFrameReceipt (h : s.SenderInv cfg b views) (streamEpoch seq : UInt32)
    (disposition : SendDisposition) :
    { s with conn := s.conn.drainFrameReceipt streamEpoch seq disposition }.SenderInv
      cfg b views := by
  unfold ConnState.drainFrameReceipt
  cases s.conn.pending with
  | none => exact h
  | some p =>
    dsimp only
    split
    · exact h
    · split
      · exact h
      · exact h.discard

lemma Stream.SenderInv.markRemoved (h : s.SenderInv cfg b views) (ids : List NetID) :
    { s with conn := s.conn.markRemoved ids }.SenderInv cfg b views where
  window := h.window
  start := h.start
  bounded := h.bounded
  committed hpending hforce hvisible := by
    obtain ⟨j, hj, hacc, hsync⟩ := h.committed hpending hforce hvisible
    exact ⟨j, hj, hacc, hsync.congr (fun _ => rfl) rfl rfl⟩
  pending p hp := by
    obtain ⟨j, r, hj, hr, hgen, hseq, hsync⟩ := h.pending p hp
    have hmarked : (s.conn.markRemoved ids).pending = some p := hp
    change s.conn.pending = some p at hp
    obtain ⟨hat, hvis, -, hepoch, -⟩ := commitPendingAttempt_spec hp
    obtain ⟨hat', hvis', -, hepoch', -⟩ := commitPendingAttempt_spec hmarked
    refine ⟨j, r, hj, hr, hgen, hseq, hsync.congr (fun n => ?_) (hvis'.trans hvis.symm)
      (hepoch'.trans hepoch.symm)⟩
    rw [hat, hat']
    exact keyed_commitStaged.foldl_congr (s := s.conn.markRemoved ids) (t := s.conn)
      (fun _ => rfl) n

lemma Stream.SenderInv.resolveStreamGeneration (h : s.SenderInv cfg b views) {generation : UInt32}
    (hwindow : Serial.InWindow b generation) :
    { s with conn := s.conn.resolveStreamGeneration generation }.SenderInv cfg b views ∧
      (s.conn.resolveStreamGeneration generation).hasExplicitGeneration = true := by
  unfold ConnState.resolveStreamGeneration
  cases hgen : s.conn.hasExplicitGeneration with
  | false =>
    -- the first generation: nothing has been sent
    obtain ⟨hseq, hpending, hvisible⟩ := h.start hgen
    have hempty : ∀ r ∈ s.sent, False := fun r hr => by simpa [hgen] using (h.bounded r hr).1
    simp only [Bool.not_false, if_true, hseq, ne_eq, not_true_eq_false, false_and, if_false]
    refine ⟨⟨fun _ => hwindow, by simp, fun r hr => (hempty r hr).elim, ?_, ?_⟩, trivial⟩
    · exact fun _ _ hne => absurd hvisible hne
    · exact fun p hp => absurd (hpending.symm.trans hp) (by simp)
  | true =>
    simp only [Bool.not_true, Bool.false_eq_true, if_false]
    split
    · exact ⟨h, hgen⟩
    split
    · exact ⟨h, hgen⟩
    -- a later generation: all frames so far belong to earlier ones
    rename_i hne hafter
    have hoffset : Serial.offset b s.conn.streamEpoch < Serial.offset b generation := by
      rw [← Serial.after_iff hwindow (h.window hgen)]
      rw [Bool.not_eq_true', Bool.not_eq_false] at hafter
      exact streamGenerationAfter_iff.mp hafter
    refine ⟨⟨fun _ => hwindow, by simp, fun r hr => ⟨rfl, .inl ?_⟩, by simp, by simp⟩, rfl⟩
    rcases (h.bounded r hr).2 with hlt | ⟨heq, -⟩
    · exact hlt.trans hoffset
    · rw [heq]
      exact hoffset

end Sender

end Mmokit.Replication
