/-
The windows of an endpoint: which counters it has opened, and which messages it has received.
-/
import Mmokit.Library.SlidingWindow
import Mmokit.Net.UDPTransport

namespace Mmokit.UDP

open List BitVec

namespace ReplayWindow

variable {w : ReplayWindow} {ctr : ℕ} {seen : Set ℕ}

/-- The window has the counters of `seen`. -/
structure Knows (w : ReplayWindow) (seen : Set ℕ) : Prop where
  tracks : w.bitmap.Tracks (w.highest + 1) seen
  le_highest : ∀ n ∈ seen, n ≤ w.highest

lemma lt_of_check (h : w.check ctr = true) : w.highest < ctr + replayWindowSize := by
  unfold check at h
  split at h
  · omega
  · split at h
    · cases h
    · omega

lemma highest_commit : (w.commit ctr).highest = max w.highest ctr := by
  unfold commit
  split
  · dsimp only
    omega
  split
  · dsimp only
    omega
  · omega

lemma check_iff (h : w.Knows seen) :
    w.check ctr = true ↔ w.highest < ctr + replayWindowSize ∧ ctr ∉ seen := by
  constructor
  · intro hcheck
    refine ⟨lt_of_check hcheck, fun hmem => ?_⟩
    have hle := h.le_highest ctr hmem
    unfold check at hcheck
    rw [if_neg (by omega)] at hcheck
    split at hcheck
    · cases hcheck
    rename_i hreach
    unfold replayWindowSize at hreach
    have hbit := (and_one_shiftLeft_eq_zero w.bitmap (i := w.highest - ctr) (by omega)).mp
      (beq_iff_eq.mp hcheck)
    have hset := (h.tracks.getLsbD_iff (n := ctr) (by omega) (by omega)).mpr hmem
    rw [show w.highest + 1 - 1 - ctr = w.highest - ctr by omega, hbit] at hset
    cases hset
  · rintro ⟨hreach, hnew⟩
    unfold check
    split
    · rfl
    rw [if_neg (by omega), beq_iff_eq]
    unfold replayWindowSize at hreach
    refine (and_one_shiftLeft_eq_zero w.bitmap (i := w.highest - ctr) (by omega)).mpr ?_
    have hset := h.tracks.getLsbD_iff (n := ctr) (by omega) (by omega)
    exact Bool.eq_false_iff.mpr fun hbit => hnew (hset.mp hbit)

lemma knows_commit (h : w.Knows seen) (hcheck : w.check ctr = true) :
    (w.commit ctr).Knows (insert ctr seen) := by
  have hreach := lt_of_check hcheck
  refine ⟨?_, fun n hn => ?_⟩
  · unfold commit
    split
    · have hshift := h.tracks.shift (fun n hn => Nat.lt_succ_of_le (h.le_highest n hn))
        (d := ctr - w.highest) (j := 0) (by omega)
      have htop : w.highest + 1 + (ctr - w.highest) = ctr + 1 := by omega
      have hbits : (if replayWindowSize ≤ ctr - w.highest then 0#64
        else w.bitmap <<< (ctr - w.highest))
          = w.bitmap <<< (ctr - w.highest) := by
        split
        · exact (shiftLeft_eq_zero ‹_›).symm
        · rfl
      dsimp only
      rw [hbits, ← htop]
      have hin : w.highest + 1 + (ctr - w.highest) - 1 - 0 = ctr := by omega
      rw [hin] at hshift
      simpa using hshift
    · rw [if_pos (by omega)]
      have hmark := h.tracks.mark (n := ctr) (by omega)
      rwa [show w.highest + 1 - 1 - ctr = w.highest - ctr by omega] at hmark
  · rw [highest_commit]
    rcases Set.mem_insert_iff.mp hn with rfl | hn
    · exact le_max_right _ _
    · exact (h.le_highest n hn).trans (le_max_left _ _)

end ReplayWindow

lemma seqGreaterThan_ofNat {a b : ℕ} (hab : a < b + 32768) (hba : b < a + 32768) :
    seqGreaterThan (BitVec.ofNat 16 a) (BitVec.ofNat 16 b) = decide (b < a) := by
  have hhalf : (32768 : BitVec 16).toNat = 32768 := rfl
  unfold seqGreaterThan
  rw [Bool.eq_iff_iff]
  simp only [Bool.or_eq_true, Bool.and_eq_true, decide_eq_true_eq, lt_def, le_def,
    toNat_sub, toNat_ofNat, hhalf]
  omega

lemma Kind.shiftLeft_eq (kind : Kind) (bits : BitVec 32) (diff : ℕ) :
    kind.shiftLeft bits diff = bits <<< diff := by
  cases kind with
  | server => rfl
  | goClient => rfl
  | csharpClient =>
    change (if 32 ≤ diff then 0#32 else bits <<< (diff % 32)) = bits <<< diff
    split
    · exact (shiftLeft_eq_zero ‹_›).symm
    · rw [Nat.mod_eq_of_lt (by omega)]

/-- The receiving half of an end. -/
structure RecvView where
  recvInit : Bool
  recvSeq : BitVec 16
  recvBits : BitVec 32
  recvNumber : ℕ
  ackDirty : Bool
  delivered : List ℕ
  announced : List ℕ
  taken : List (ℕ × Payload)
  sendCtr : ℕ
  highest : ℕ

def Endpoint.recvView (e : Endpoint) : RecvView :=
  ⟨e.recvInit, e.recvSeq, e.recvBits, e.recvNumber, e.ackDirty, e.delivered, e.announced,
    e.inHand ++ e.routed, e.sendCtr, e.win.highest⟩

/-- The bits are those of the messages delivered. -/
structure RecvView.Exact (r : RecvView) : Prop where
  seq : r.recvSeq = BitVec.ofNat 16 r.recvNumber
  mem : r.recvNumber ∈ r.delivered
  le : ∀ n ∈ r.delivered, n ≤ r.recvNumber
  tracks : r.recvBits.Tracks r.recvNumber {n | n ∈ r.delivered}

namespace Endpoint

variable {e : Endpoint} {n : ℕ} {payload : Payload}

lemma handleReliable_deliver {seq : BitVec 16} {tracked : Endpoint}
    (h : e.updateRecvTracking seq n = (tracked, true)) :
    e.handleReliable seq payload n = { tracked with
      delivered := n :: e.delivered
      inHand := if payload = [] then e.inHand else (n, payload) :: e.inHand } := by
  unfold handleReliable
  rw [h]
  rfl

lemma handleReliable_skip {seq : BitVec 16} {tracked : Endpoint}
    (h : e.updateRecvTracking seq n = (tracked, false)) :
    e.handleReliable seq payload n = tracked := by
  unfold handleReliable
  rw [h]
  rfl

lemma updateRecvTracking_first (hinit : e.recvInit = false) (seq : BitVec 16) :
    e.updateRecvTracking seq n =
      ({ e with recvInit := true, recvSeq := seq, recvBits := 0#32, ackDirty := true,
                recvNumber := n }, true) := by
  unfold updateRecvTracking
  rw [if_pos (by simp [hinit])]
  rfl

lemma updateRecvTracking_above (hinit : e.recvInit = true)
    (hseq : e.recvSeq = BitVec.ofNat 16 e.recvNumber) (hlt : e.recvNumber < n)
    (hnear : n < e.recvNumber + 32768) :
    e.updateRecvTracking (BitVec.ofNat 16 n) n =
      ({ e with
          recvBits := (e.recvBits <<< (n - e.recvNumber)) ||| (1#32 <<< (n - e.recvNumber - 1))
          recvSeq := BitVec.ofNat 16 n, ackDirty := true, recvNumber := n }, true) := by
  have hdiff : (BitVec.ofNat 16 n - BitVec.ofNat 16 e.recvNumber).toNat = n - e.recvNumber :=
    BitVec.toNat_ofNat_sub hlt.le (by omega)
  have hgreater : seqGreaterThan (BitVec.ofNat 16 n) (BitVec.ofNat 16 e.recvNumber) = true := by
    rw [seqGreaterThan_ofNat hnear (by omega)]
    exact decide_eq_true hlt
  unfold updateRecvTracking
  rw [hinit, hseq, hgreater, hdiff]
  by_cases hreach : n - e.recvNumber ≤ 32
  · simp [hreach, Kind.shiftLeft_eq]
  -- both parts of the new window are shifted out
  have hbits : e.recvBits <<< (n - e.recvNumber) = 0#32 := shiftLeft_eq_zero (by omega)
  have hone : 1#32 <<< (n - e.recvNumber - 1) = 0#32 := shiftLeft_eq_zero (by omega)
  simp [hreach, hbits, hone]

lemma updateRecvTracking_below (hinit : e.recvInit = true) (hexact : e.recvView.Exact)
    (hle : n ≤ e.recvNumber) (hnear : e.recvNumber < n + 32768) :
    e.updateRecvTracking (BitVec.ofNat 16 n) n =
      if n ∉ e.delivered ∧ e.recvNumber ≤ n + 32 then
        ({ e with recvBits := e.recvBits ||| (1#32 <<< (e.recvNumber - 1 - n)), ackDirty := true },
          true)
      else ({ e with ackDirty := true }, false) := by
  have hseq : e.recvSeq = BitVec.ofNat 16 e.recvNumber := hexact.seq
  have hmem : e.recvNumber ∈ e.delivered := hexact.mem
  have htracks : e.recvBits.Tracks e.recvNumber {n | n ∈ e.delivered} := hexact.tracks
  have hdiff : (e.recvSeq - BitVec.ofNat 16 n).toNat = e.recvNumber - n := by
    rw [hseq]
    exact BitVec.toNat_ofNat_sub hle (by omega)
  have hgreater : ¬ seqGreaterThan (BitVec.ofNat 16 n) e.recvSeq = true := by
    rw [hseq, seqGreaterThan_ofNat (by omega) hnear, decide_eq_true_eq]
    omega
  have hshift : e.recvNumber - n - 1 = e.recvNumber - 1 - n := by omega
  have hnew : (0 < e.recvNumber - n ∧ e.recvNumber - n ≤ 32 ∧
      e.recvBits &&& (1#32 <<< (e.recvNumber - 1 - n)) = 0#32) ↔
        n ∉ e.delivered ∧ e.recvNumber ≤ n + 32 := by
    by_cases hlt : n < e.recvNumber
    · by_cases hreach : e.recvNumber ≤ n + 32
      · rw [and_one_shiftLeft_eq_zero _ (by omega), Bool.eq_false_iff, ne_eq,
          htracks.getLsbD_iff hlt hreach]
        constructor
        · rintro ⟨-, -, hbit⟩
          exact ⟨hbit, hreach⟩
        · rintro ⟨hbit, -⟩
          exact ⟨by omega, by omega, hbit⟩
      · exact iff_of_false (fun h => hreach (by omega)) fun h => hreach h.2
    · obtain rfl : n = e.recvNumber := by omega
      exact iff_of_false (fun h => by omega) fun h => h.1 hmem
  unfold updateRecvTracking
  rw [if_neg (by simp [hinit]), if_neg hgreater]
  dsimp only
  rw [hdiff, hshift]
  simp only [hnew]

/-- The message is recorded, and its payload is in hand. -/
structure Takes (e e' : Endpoint) (n : ℕ) (payload : Payload) : Prop where
  delivered : e'.delivered = n :: e.delivered
  inHand : e'.inHand = if payload = [] then e.inHand else (n, payload) :: e.inHand
  routed : e'.routed = e.routed
  announced : e'.announced = e.announced

/-- The message is not recorded. -/
structure Skips (e e' : Endpoint) : Prop where
  delivered : e'.delivered = e.delivered
  inHand : e'.inHand = e.inHand
  routed : e'.routed = e.routed
  announced : e'.announced = e.announced

lemma exact_above (hexact : e.recvView.Exact) (hlt : e.recvNumber < n) :
    ((e.recvBits <<< (n - e.recvNumber)) ||| (1#32 <<< (n - e.recvNumber - 1))).Tracks n
      {m | m ∈ n :: e.delivered} := by
  have hmem : e.recvNumber ∈ e.delivered := hexact.mem
  have hle : ∀ m ∈ e.delivered, m ≤ e.recvNumber := hexact.le
  -- the highest message is not in the window itself
  have hwindow : e.recvBits.Tracks e.recvNumber {m | m ∈ e.delivered ∧ m < e.recvNumber} :=
    BitVec.Tracks.congr hexact.tracks fun m hm => (and_iff_left hm).symm
  have hshift := hwindow.shift (fun m hm => hm.2) (d := n - e.recvNumber)
    (j := n - e.recvNumber - 1) (by omega)
  have htop : e.recvNumber + (n - e.recvNumber) = n := by omega
  have hpassed : e.recvNumber + (n - e.recvNumber) - 1 - (n - e.recvNumber - 1) = e.recvNumber := by
    omega
  rw [hpassed, htop] at hshift
  refine hshift.congr fun m hm => ?_
  simp only [Set.mem_insert_iff, Set.mem_ofPred_eq, mem_cons]
  constructor
  · rintro (rfl | ⟨h, -⟩)
    · exact .inr hmem
    · exact .inr h
  rintro (rfl | h)
  · exact absurd hm (lt_irrefl _)
  · rcases Nat.lt_or_eq_of_le (hle m h) with hlow | rfl
    · exact .inr ⟨h, hlow⟩
    · exact .inl rfl

/-- **The receive window**: a message is delivered if it is new and in reach of the window. -/
lemma handleReliable_spec (payload : Payload) (hinit : e.recvInit = true)
    (hexact : e.recvView.Exact)
    (habove : n < e.recvNumber + 32768) (hbelow : e.recvNumber < n + 32768) :
    let e' := e.handleReliable (BitVec.ofNat 16 n) payload n
    e'.recvInit = true ∧ e'.recvView.Exact ∧ e.recvNumber ≤ e'.recvNumber ∧
      if n ∉ e.delivered ∧ e.recvNumber ≤ n + 32 then e.Takes e' n payload else e.Skips e' := by
  have hmem : e.recvNumber ∈ e.delivered := hexact.mem
  have hle : ∀ m ∈ e.delivered, m ≤ e.recvNumber := hexact.le
  dsimp only
  rcases Nat.lt_or_ge e.recvNumber n with hlt | hge
  · have hnew : n ∉ e.delivered ∧ e.recvNumber ≤ n + 32 :=
      ⟨fun h => absurd (hle n h) (by omega), by omega⟩
    rw [handleReliable_deliver (updateRecvTracking_above hinit hexact.seq hlt habove), if_pos hnew]
    refine ⟨hinit, ⟨rfl, mem_cons_self, fun m hm => ?_, exact_above hexact hlt⟩, hlt.le,
      rfl, rfl, rfl, rfl⟩
    rcases mem_cons.mp hm with rfl | hm
    · exact le_refl _
    · exact (hle m hm).trans hlt.le
  · have htracked := updateRecvTracking_below hinit hexact hge hbelow
    by_cases hnew : n ∉ e.delivered ∧ e.recvNumber ≤ n + 32
    · have hlt : n < e.recvNumber := by
        rcases Nat.lt_or_eq_of_le hge with h | rfl
        · exact h
        · exact absurd hmem hnew.1
      rw [if_pos hnew] at htracked ⊢
      rw [handleReliable_deliver htracked]
      refine ⟨hinit, ⟨hexact.seq, mem_cons_of_mem _ hmem, fun m hm => ?_, ?_⟩, le_refl _,
        rfl, rfl, rfl, rfl⟩
      · rcases mem_cons.mp hm with rfl | hm
        · exact hge
        · exact hle m hm
      · refine (BitVec.Tracks.mark hexact.tracks hlt).congr fun m _ => ?_
        exact mem_cons.symm
    · rw [if_neg hnew] at htracked ⊢
      rw [handleReliable_skip htracked]
      exact ⟨hinit, ⟨hexact.seq, hmem, hle, hexact.tracks⟩, le_refl _, rfl, rfl, rfl, rfl⟩

lemma handleReliable_first (n : ℕ) (payload : Payload) (hinit : e.recvInit = false)
    (hnone : e.delivered = []) :
    let e' := e.handleReliable (BitVec.ofNat 16 n) payload n
    e'.recvInit = true ∧ e'.recvView.Exact ∧ e.Takes e' n payload := by
  rw [handleReliable_deliver (updateRecvTracking_first hinit _)]
  refine ⟨rfl, ⟨rfl, mem_cons_self, fun m hm => ?_, ?_⟩, rfl, rfl, rfl, rfl⟩
  · rw [hnone] at hm
    exact (mem_singleton.mp hm).le
  · rw [hnone]
    exact tracks_zero fun m hm => .inr (mem_singleton.mp hm).ge

end Endpoint

end Mmokit.UDP
