/-
What the client shows.

A view maps each entity to what the client holds of it. As long as no authority goes back, the fence
of the decoder never stops an entry, and a frame takes views to views: the view after it depends on
the view before it only, and on nothing at all if the frame is fresh.
-/
import Mmokit.System.FrameDelivery
import Mmokit.System.ReplicationStream

namespace Mmokit.Replication

open List

variable {S : Type*} {cfg : ReplicationConfig S} {decoders : UInt8 → Option DeltaEncoder}
  {conn : ConnState} {i : TickInput S}

abbrev View := NetID → Option BaselineEntry

def nextView (cfg : ReplicationConfig S) (decoders : UInt8 → Option DeltaEncoder)
    (conn : ConnState) (i : TickInput S) (base : View) : View := fun n =>
  match (visibleEntries cfg conn i).find? fun e => e.netID = n with
  | some e => (e.clientEffect decoders (base n, none)).1
  | none =>
    if n ∈ (frameOf cfg conn i).removed ∨ n ∈ (frameOf cfg conn i).exited then none else base n

def baseView (fresh : Bool) (view : View) : View := if fresh then fun _ => none else view

/-- The fence of the client lets all entities of the frame through. -/
def FenceOpen (cfg : ReplicationConfig S) (conn : ConnState) (i : TickInput S)
    (st : DecoderState) : Prop :=
  ∀ e ∈ visibleEntries cfg conn i, Entry.Fenced e.candidate.epoch (st.authorityEpochs e.netID)

variable {base : View} {e : Entry S}

lemma nextView_of_mem (he : e ∈ visibleEntries cfg conn i) :
    nextView cfg decoders conn i base e.netID =
      (e.clientEffect decoders (base e.netID, none)).1 := by
  obtain ⟨hnodup, -⟩ := visibleEntries_spec cfg conn i
  have hfind : (visibleEntries cfg conn i).find? (fun e' => e'.netID = e.netID) = some e := by
    cases hf : (visibleEntries cfg conn i).find? (fun e' => e'.netID = e.netID) with
    | none => exact absurd (find?_eq_none.mp hf e he) (by simp)
    | some e' =>
      have hkey : e'.netID = e.netID := by simpa using find?_some hf
      rw [inj_on_of_nodup_map hnodup (mem_of_find?_eq_some hf) he hkey]
  simp [nextView, hfind]

variable {n : NetID}

lemma nextView_of_notMem (hn : n ∉ visibleOf cfg conn i) :
    nextView cfg decoders conn i base n =
      if n ∈ (frameOf cfg conn i).removed ∨ n ∈ (frameOf cfg conn i).exited then none
      else base n := by
  have hfind : (visibleEntries cfg conn i).find? (fun e' => e'.netID = n) = none := by
    rw [find?_eq_none]
    intro e he hkey
    exact hn (mem_visibleOf.mpr ⟨e, he, by simpa using hkey⟩)
  simp [nextView, hfind]

lemma Entry.Valid.clientEffect_fst (h : e.Valid cfg conn i) {x : Option BaselineEntry}
    {fence : Option Epoch} (hfence : Entry.Fenced e.candidate.epoch fence) :
    (e.clientEffect decoders (x, fence)).1 = (e.clientEffect decoders (x, none)).1 := by
  rcases h.outcome_cases with hout | hout | ⟨w, hout⟩ | hout | ⟨data, hout⟩
  · simp [Entry.clientEffect, hout]
  · simp [Entry.clientEffect, hout]
  · have hopen : Entry.Fenced (fullPayload e.rep e.candidate w).epoch (none : Option Epoch) :=
      fun _ h => absurd h (by simp)
    have hclosed : Entry.Fenced (fullPayload e.rep e.candidate w).epoch fence := hfence
    simp only [Entry.clientEffect, hout]
    rw [fullEffect_of_fenced (o := (x, fence)) hclosed, fullEffect_of_fenced (o := (x, none)) hopen]
  · simp [Entry.clientEffect, hout]
  · simp only [Entry.clientEffect, hout, deltaEffect]
    cases x with
    | none => rfl
    | some bl =>
      dsimp only
      split
      · rfl
      · cases decoders e.candidate.kind <;> rfl

variable {st : DecoderState}

lemma applyFrame_eq_nextView (hfence : FenceOpen cfg conn i st) :
    (st.applyFrame decoders (frameOf cfg conn i)).baselines =
      nextView cfg decoders conn i (baseView (frameOf cfg conn i).fresh st.baselines) := by
  obtain ⟨-, hvalid⟩ := visibleEntries_spec cfg conn i
  have hstart (n : NetID) : startAt (frameOf cfg conn i).fresh (st.at n) =
      (baseView (frameOf cfg conn i).fresh st.baselines n, st.authorityEpochs n) := by
    cases (frameOf cfg conn i).fresh <;> rfl
  funext n
  rw [baselines_applyFrame]
  by_cases hn : n ∈ visibleOf cfg conn i
  · obtain ⟨e, he, rfl⟩ := mem_visibleOf.mp hn
    rw [carries_frameOf.afterDepartures_of_mem st he, nextView_of_mem he, hstart,
      (hvalid e he).clientEffect_fst (hfence e he)]
  rw [carries_frameOf.afterDepartures_of_notMem st hn, nextView_of_notMem hn]
  split
  · rfl
  · rw [hstart]

lemma fresh_eq_false (hforce : conn.forceFresh = false) (hvisible : conn.wasVisible n = true) :
    (frameOf cfg conn i).fresh = false := by
  cases hlast : conn.lastVisible with
  | none => simp [ConnState.wasVisible, hlast] at hvisible
  | some vis => simp [frameOf, hforce, hlast]

/-- **Soundness of a frame.** If the sender and a view agree about all entities that were visible,
unless a fresh start is due, then they agree about the visible entities after the frame and its
commit, and the view shows their present snapshots, apart from those that were held back. -/
theorem frame_sound (hhash : CollisionFree cfg) (hlayout : SameLayouts cfg decoders)
    (hprior : conn.forceFresh = false → ∀ e ∈ visibleEntries cfg conn i,
      conn.wasVisible e.netID = true → ∃ entry bl rep, base e.netID = some entry ∧
        Agrees cfg (conn.at e.netID) entry bl rep ∧
        (entry.authorityEpoch = e.candidate.epoch → entry.entityType = e.candidate.kind))
    (he : e ∈ visibleEntries cfg conn i) :
    ∃ entry bl,
      nextView cfg decoders conn i (baseView (frameOf cfg conn i).fresh base) e.netID =
        some entry ∧
      entry.authorityEpoch = e.candidate.epoch ∧ entry.entityType = e.candidate.kind ∧
      Agrees cfg (e.commitEffect (conn.at e.netID)) entry bl e.rep ∧
      (e.outcome ≠ .held → entry.snapshot = e.snapshot) := by
  obtain ⟨-, hvalid⟩ := visibleEntries_spec cfg conn i
  rw [nextView_of_mem he]
  refine Entry.agrees hhash hlayout (hvalid e he) ?_ (fun _ h => absurd h (by simp))
  intro hneeds
  obtain ⟨hforce, hvisible, hepoch⟩ := of_needsFull_eq_false hneeds
  obtain ⟨entry, bl, rep, hbase, hagrees, hkind⟩ := hprior hforce e he hvisible
  have hkind' := hkind (hagrees.epoch.symm.trans (hepoch bl hagrees.baseline))
  have hrep : rep = e.rep := by
    have := hagrees.replicator
    rw [hkind', (hvalid e he).rep] at this
    exact (Option.some.inj this).symm
  subst hrep
  exact ⟨entry, bl, by simp [fresh_eq_false hforce hvisible, baseView, hbase], hkind', hagrees⟩

/-- **What a view keeps of entities that are not visible**: they were there before the frame, in a
frame that is not fresh, and either were not visible then or are the viewer's own. -/
lemma nextView_eq_some_of_notMem {entry : BaselineEntry} (hn : n ∉ visibleOf cfg conn i)
    (h : nextView cfg decoders conn i (baseView (frameOf cfg conn i).fresh base) n = some entry) :
    (frameOf cfg conn i).fresh = false ∧ base n = some entry ∧
      (conn.wasVisible n = false ∨ n = stagedSelfNetID conn i) := by
  rw [nextView_of_notMem hn] at h
  split at h
  · exact absurd h (by simp)
  rename_i hstays
  cases hfresh : (frameOf cfg conn i).fresh with
  | true => simp [hfresh, baseView] at h
  | false =>
    refine ⟨rfl, by simpa [hfresh, baseView] using h, ?_⟩
    rw [mem_departed] at hstays
    by_contra hboth
    rw [not_or, Bool.not_eq_false] at hboth
    exact hstays ⟨hboth.1, hn, .inr hboth.2⟩

/-- The order in which frames are built: by generation, and by number within a generation. -/
def Before (b : UInt32) (f g : ReplicationFrame) : Prop :=
  Serial.offset b f.streamEpoch < Serial.offset b g.streamEpoch ∨
    f.streamEpoch = g.streamEpoch ∧ f.seq.toNat < g.seq.toNat

/-- The generation and the number of a frame lie in the windows in which they can be compared. -/
def Comparable (b : UInt32) (f : ReplicationFrame) : Prop :=
  Serial.InWindow b f.streamEpoch ∧ f.seq.toNat < 0x80000000

variable {b : UInt32}

lemma Before.asymm {f g : ReplicationFrame} (h : Before b f g) : ¬ Before b g f := by
  rintro (h' | ⟨heq', h'⟩) <;> rcases h with h | ⟨heq, h⟩
  · omega
  · rw [heq] at h'
    omega
  · rw [heq'] at h
    omega
  · omega

section Record

variable {α : Type*} {frame : α → ReplicationFrame} {b : UInt32} {sent : List α}
    {j k : ℕ} {r r' : α}

lemma lt_of_before (h : sent.Pairwise fun r r' => Before b (frame r) (frame r'))
    (hj : sent[j]? = some r) (hk : sent[k]? = some r') (hlt : Before b (frame r) (frame r')) :
    j < k := by
  obtain ⟨hj', rfl⟩ := List.getElem?_eq_some_iff.mp hj
  obtain ⟨hk', rfl⟩ := List.getElem?_eq_some_iff.mp hk
  by_contra hle
  rcases Nat.lt_or_eq_of_le (not_lt.mp hle) with hkj | rfl
  · exact hlt.asymm (pairwise_iff_getElem.mp h k j hk' hj' hkj)
  · exact hlt.asymm hlt

lemma eq_of_ids (h : sent.Pairwise fun r r' => Before b (frame r) (frame r'))
    (hj : sent[j]? = some r) (hk : sent[k]? = some r')
    (hgen : (frame r).streamEpoch = (frame r').streamEpoch)
    (hseq : (frame r).seq = (frame r').seq) :
    j = k := by
  obtain ⟨hj', rfl⟩ := List.getElem?_eq_some_iff.mp hj
  obtain ⟨hk', rfl⟩ := List.getElem?_eq_some_iff.mp hk
  have hsame : ∀ f g : ReplicationFrame, f.streamEpoch = g.streamEpoch → f.seq = g.seq →
      ¬ Before b f g := by
    rintro f g hgen hseq (hlt | ⟨-, hlt⟩)
    · rw [hgen] at hlt
      omega
    · rw [hseq] at hlt
      omega
  rcases Nat.lt_trichotomy j k with hlt | heq | hgt
  · exact absurd (pairwise_iff_getElem.mp h j k hj' hk' hlt) (hsame _ _ hgen hseq)
  · exact heq
  · exact absurd (pairwise_iff_getElem.mp h k j hk' hj' hgt) (hsame _ _ hgen.symm hseq.symm)

end Record

structure DecoderState.Fences (st : DecoderState) (f : ReplicationFrame) : Prop where
  hasStreamEpoch : st.hasStreamEpoch = true
  hasLastFrameSeq : st.hasLastFrameSeq = true
  streamEpoch : st.streamEpoch = f.streamEpoch
  lastFrameSeq : st.lastFrameSeq = f.seq

lemma DecoderState.Fences.applyFrame {f g : ReplicationFrame} (h : st.Fences g) :
    (st.applyFrame decoders f).Fences g := by
  have horder := st.order_applyFrame decoders f
  simp only [DecoderState.order, Prod.mk.injEq] at horder
  obtain ⟨⟨hhas, hepoch⟩, hlast, hseq⟩ := horder
  exact ⟨hhas.trans h.hasStreamEpoch, hlast.trans h.hasLastFrameSeq, hepoch.trans h.streamEpoch,
    hseq.trans h.lastFrameSeq⟩

lemma after_iff_toNat_lt {x y : UInt32} (hx : x.toNat < 0x80000000) (hy : y.toNat < 0x80000000) :
    Serial.After x y ↔ y.toNat < x.toNat := by
  have hoffset (z : UInt32) : Serial.offset 0 z = z.toNat := by simp [Serial.offset]
  rw [Serial.after_iff (b := 0) (by simpa [Serial.InWindow, hoffset] using hx)
    (by simpa [Serial.InWindow, hoffset] using hy), hoffset, hoffset]

/-- **An accepted frame is later than the one accepted before.** It keeps the view exactly if the
generation has not changed. -/
lemma acceptFrame_spec {st' : DecoderState} {f g : ReplicationFrame} (hst : st.Fences f)
    (hf : Comparable b f) (hg : Comparable b g)
    (h : st.acceptFrame g.streamEpoch g.seq = some st') :
    Before b f g ∧ st'.Fences g ∧ st'.authorityEpochs = st.authorityEpochs ∧
      (g.streamEpoch = f.streamEpoch → st'.baselines = st.baselines) := by
  unfold DecoderState.acceptFrame at h
  simp only [hst.hasStreamEpoch, hst.hasLastFrameSeq, hst.streamEpoch, hst.lastFrameSeq,
    Bool.not_true, Bool.false_eq_true, if_false, true_and] at h
  by_cases hgen : g.streamEpoch = f.streamEpoch
  · rw [if_neg (by simpa using hgen)] at h
    split at h
    · exact absurd h (by simp)
    rename_i hafter
    rw [not_not, after_iff_toNat_lt hg.2 hf.2] at hafter
    cases h
    exact ⟨.inr ⟨hgen.symm, hafter⟩, ⟨rfl, rfl, hgen.symm, rfl⟩, rfl, fun _ => rfl⟩
  · rw [if_pos hgen] at h
    split at h
    · rename_i hafter
      rw [Serial.after_iff hg.1 hf.1] at hafter
      cases h
      exact ⟨.inl hafter, ⟨rfl, rfl, rfl, rfl⟩, rfl, fun heq => absurd heq hgen⟩
    · exact absurd h (by simp)

lemma acceptFrame_first {st' : DecoderState} {g : ReplicationFrame}
    (hst : st.hasStreamEpoch = false) (h : st.acceptFrame g.streamEpoch g.seq = some st') :
    st'.Fences g ∧ st'.authorityEpochs = st.authorityEpochs ∧ st'.baselines = st.baselines := by
  unfold DecoderState.acceptFrame at h
  rw [if_pos (by simpa using hst)] at h
  cases h
  exact ⟨⟨rfl, rfl, rfl, rfl⟩, rfl, rfl⟩

end Mmokit.Replication
