/-
The messages of one end on their way to the other: what holds along a run.

Counters bound how far the two ends can be apart. A copy of a message was sealed while the message
was in one of the 256 slots, and a packet that is opened is at most 63 counters behind; so the
highest message delivered is less than `256 + 64` above any message that arrives.
-/
import Mmokit.Net.ReceiveWindow

namespace Mmokit.UDP

open Function List Endpoint List.Subset

/-- How far a sender may be ahead of the last message that was acknowledged. An acknowledgement that
is opened is at most 63 packets behind the newest one, and the acknowledged message can move on by
so much with each of them: `64 * (maxLead + 1)` has to stay below the `2 ^ 16` sequence numbers. -/
def maxLead : ℕ := 1000

/-- The sending half of an end. -/
structure SendView where
  sent : ℕ
  sendSeq : BitVec 16
  sendBuf : ℕ → Option ReliableEntry
  sendCtr : ℕ
  highest : ℕ
  freed : List (ℕ × Payload)

def Endpoint.sendView (e : Endpoint) : SendView :=
  ⟨e.sent, e.sendSeq, e.sendBuf, e.sendCtr, e.win.highest, e.freed⟩

/-- A slot holds a message that is out. -/
structure Holds (s : SendView) (out : List Packet) (i : ℕ) (entry : ReliableEntry) : Prop where
  slot : entry.number % reliableBufSize = i
  lt_sent : entry.number < s.sent
  sent_le : s.sent ≤ entry.number + reliableBufSize
  seq : entry.seq = BitVec.ofNat 16 entry.number
  packet : ∃ c seq, ⟨c, .reliable seq entry.payload entry.number⟩ ∈ out

/-- What is out agrees with the sender. -/
structure Sent (s : SendView) (out : List Packet) : Prop where
  sendSeq : s.sendSeq = BitVec.ofNat 16 s.sent
  holds : ∀ i entry, s.sendBuf i = some entry → Holds s out i entry
  counter_le : ∀ p ∈ out, p.counter ≤ s.sendCtr
  packet : ∀ {c seq data n}, ⟨c, .reliable seq data n⟩ ∈ out →
    seq = BitVec.ofNat 16 n ∧ n < s.sent ∧ s.sent + c ≤ n + reliableBufSize + s.sendCtr
  spread : ∀ {c seq data n c' seq' data' n'}, ⟨c, .reliable seq data n⟩ ∈ out →
    ⟨c', .reliable seq' data' n'⟩ ∈ out → n' ≤ n + reliableBufSize + (c' - c)
  payload : ∀ {c seq data n c' seq' data'}, ⟨c, .reliable seq data n⟩ ∈ out →
    ⟨c', .reliable seq' data' n⟩ ∈ out → data = data'

/-- What was delivered was out. -/
structure Received (r : RecvView) (out : List Packet) : Prop where
  empty : r.recvInit = false → r.delivered = []
  exact : r.recvInit = true → r.Exact
  dirty : r.ackDirty = true → r.recvInit = true
  nodup : r.delivered.Nodup
  opened : ∀ n ∈ r.delivered, ∃ c seq data, ⟨c, .reliable seq data n⟩ ∈ out ∧ c ≤ r.highest ∧
    (data = [] ∨ (n, data) ∈ r.taken)
  taken_nodup : (r.taken.map Prod.fst).Nodup
  taken : ∀ m ∈ r.taken, m.1 ∈ r.delivered

/-- What is acknowledged was announced. -/
structure Acks (r : RecvView) (back : List Packet) : Prop where
  counter_le : ∀ p ∈ back, p.counter ≤ r.sendCtr
  announced : r.announced ⊆ r.delivered
  ack : ∀ {c seq bits top}, ⟨c, .ack seq bits top⟩ ∈ back →
    seq = BitVec.ofNat 16 top ∧ top ∈ r.announced ∧ top ≤ r.recvNumber ∧
      ∀ i < 32, bits.getLsbD i = true → i < top ∧ top - 1 - i ∈ r.announced
  mono : ∀ {c seq bits top c' seq' bits' top'}, ⟨c, .ack seq bits top⟩ ∈ back →
    ⟨c', .ack seq' bits' top'⟩ ∈ back → c ≤ c' →
      top ≤ top' ∧ top' ≤ top + (maxLead + 1) * (c' - c)

/-- What was freed was acknowledged. -/
structure Acked (s : SendView) (r : RecvView) (out back : List Packet) : Prop where
  freed : ∀ m ∈ s.freed, m.1 ∈ r.announced ∧ ∃ c seq, ⟨c, .reliable seq m.2 m.1⟩ ∈ out
  lead : s.sent ≤ maxLead ∨ ∃ m ∈ s.freed, s.sent ≤ m.1 + maxLead
  acked : ∀ m ∈ s.freed, ∃ c seq bits top, ⟨c, .ack seq bits top⟩ ∈ back ∧ c ≤ s.highest ∧
    m.1 ≤ top

/-- One direction: messages in `out`, acknowledgements in `back`. -/
structure Flow (s : SendView) (r : RecvView) (out back : List Packet) : Prop where
  sent : Sent s out
  received : Received r out
  acks : Acks r back
  acked : Acked s r out back

section Monotone

variable {s : SendView} {r : RecvView} {out out' back back' : List Packet}

variable {i : ℕ} {entry : ReliableEntry}

lemma Holds.mono (h : Holds s out i entry) (hout : out ⊆ out') : Holds s out' i entry := by
  obtain ⟨c, seq, hp⟩ := h.packet
  exact ⟨h.slot, h.lt_sent, h.sent_le, h.seq, c, seq, hout hp⟩

variable {s' : SendView}

lemma Holds.congr (h : Holds s out i entry) (hsent : s'.sent = s.sent) : Holds s' out i entry :=
  ⟨h.slot, hsent ▸ h.lt_sent, hsent ▸ h.sent_le, h.seq, h.packet⟩

lemma Received.mono (h : Received r out) (hout : out ⊆ out') : Received r out' := by
  refine ⟨h.empty, h.exact, h.dirty, h.nodup, fun n hn => ?_, h.taken_nodup, h.taken⟩
  obtain ⟨c, seq, data, hp, hrest⟩ := h.opened n hn
  exact ⟨c, seq, data, hout hp, hrest⟩

lemma Acked.mono (h : Acked s r out back) (hout : out ⊆ out') (hback : back ⊆ back') :
    Acked s r out' back' := by
  refine ⟨fun m hm => ?_, h.lead, fun m hm => ?_⟩
  · obtain ⟨hannounced, c, seq, hp⟩ := h.freed m hm
    exact ⟨hannounced, c, seq, hout hp⟩
  · obtain ⟨c, seq, bits, top, hp, hrest⟩ := h.acked m hm
    exact ⟨c, seq, bits, top, hback hp, hrest⟩

lemma Acked.congr (h : Acked s r out back) (hsent : s'.sent = s.sent)
    (hfreed : s'.freed = s.freed) (hhighest : s.highest ≤ s'.highest) : Acked s' r out back := by
  refine ⟨fun m hm => h.freed m (hfreed ▸ hm), ?_, fun m hm => ?_⟩
  · rw [hsent, hfreed]
    exact h.lead
  · obtain ⟨c, seq, bits, top, hp, hc, htop⟩ := h.acked m (hfreed ▸ hm)
    exact ⟨c, seq, bits, top, hp, hc.trans hhighest, htop⟩

end Monotone

section Sender

variable {s s' : SendView} {r : RecvView} {out back : List Packet} {new : Option Packet}

lemma mem_append_toList {p : Packet} : p ∈ out ++ new.toList ↔ p ∈ out ∨ new = some p := by
  simp [mem_append, Option.mem_toList]

/-- A copy of a message that may be sealed: the message is in reach of the slots, and its earlier
copies say the same. -/
structure Copies (s : SendView) (out : List Packet) (seq : BitVec 16) (data : Payload) (n : ℕ) :
    Prop where
  seq : seq = BitVec.ofNat 16 n
  lt_sent : n < s.sent
  sent_le : s.sent ≤ n + reliableBufSize
  payload : ∀ {c seq' data'}, ⟨c, .reliable seq' data' n⟩ ∈ out → data' = data

lemma Sent.emit (h : Sent s out) (hctr : s'.sendCtr = s.sendCtr + 1) (hle : s.sent ≤ s'.sent)
    (hlt : s'.sent ≤ s.sent + 1) (hseq : s'.sendSeq = BitVec.ofNat 16 s'.sent)
    (hholds : ∀ i entry, s'.sendBuf i = some entry → Holds s' (out ++ new.toList) i entry)
    (hcounter : ∀ p, new = some p → p.counter = s'.sendCtr)
    (hcopies : ∀ {c seq data n}, new = some ⟨c, .reliable seq data n⟩ → Copies s' out seq data n) :
    Sent s' (out ++ new.toList) where
  sendSeq := hseq
  holds := hholds
  counter_le p hp := by
    rcases mem_append_toList.mp hp with hold | hnew
    · have := h.counter_le p hold
      omega
    · exact (hcounter p hnew).le
  packet {c seq data n} hp := by
    rcases mem_append_toList.mp hp with hold | hnew
    · obtain ⟨hs, hn, hc⟩ := h.packet hold
      exact ⟨hs, by omega, by omega⟩
    have hc := hcounter _ hnew
    have hcopy := hcopies hnew
    have hreach := hcopy.sent_le
    dsimp only at hc
    exact ⟨hcopy.seq, hcopy.lt_sent, by omega⟩
  spread {c seq data n c' seq' data' n'} hp hp' := by
    rcases mem_append_toList.mp hp with hold | hnew <;>
      rcases mem_append_toList.mp hp' with hold' | hnew'
    · exact h.spread hold hold'
    · -- the new copy is of a message that had been sent or is sent now
      have hc' := hcounter _ hnew'
      have hn' := (hcopies hnew').lt_sent
      obtain ⟨-, -, hc⟩ := h.packet hold
      have hle := h.counter_le _ hold
      dsimp only at hc' hle
      omega
    · have hreach := (hcopies hnew).sent_le
      obtain ⟨-, hn', -⟩ := h.packet hold'
      omega
    · rw [hnew] at hnew'
      cases hnew'
      omega
  payload {c seq data n c' seq' data'} hp hp' := by
    rcases mem_append_toList.mp hp with hold | hnew <;>
      rcases mem_append_toList.mp hp' with hold' | hnew'
    · exact h.payload hold hold'
    · exact (hcopies hnew').payload hold
    · exact ((hcopies hnew).payload hold').symm
    · rw [hnew] at hnew'
      cases hnew'
      rfl

lemma Flow.seal (h : Flow s r out back) (hcounter : ∀ p, new = some p → p.counter = s.sendCtr + 1)
    (hbody : ∀ {c seq data n}, new ≠ some ⟨c, .reliable seq data n⟩) :
    Flow { s with sendCtr := s.sendCtr + 1 } r (out ++ new.toList) back := by
  have hout : out ⊆ out ++ new.toList := subset_append_left _ _
  refine ⟨h.sent.emit rfl (le_refl _) (Nat.le_succ _) h.sent.sendSeq (fun i entry hi => ?_) hcounter
    (fun hnew => absurd hnew hbody), h.received.mono hout, h.acks, ?_⟩
  · exact ((h.sent.holds i entry hi).mono hout).congr rfl
  · exact (h.acked.mono hout (refl _)).congr rfl rfl (le_refl _)

variable {i : ℕ} {entry : ReliableEntry}

lemma Flow.resend (h : Flow s r out back) {now : Time} (hi : s.sendBuf i = some entry)
    (hnew : ∀ p, new = some p →
      p = ⟨s.sendCtr + 1, .reliable entry.seq entry.payload entry.number⟩) :
    Flow { s with
      sendCtr := s.sendCtr + 1
      sendBuf := update s.sendBuf i (some { entry with lastSentAt := now }) } r
      (out ++ new.toList) back := by
  have hout : out ⊆ out ++ new.toList := subset_append_left _ _
  have hentry := h.sent.holds i entry hi
  refine ⟨h.sent.emit rfl (le_refl _) (Nat.le_succ _) h.sent.sendSeq (fun j other hj => ?_)
    (fun p hp => by rw [hnew p hp]) (fun hp => ?_), h.received.mono hout, h.acks, ?_⟩
  · dsimp only at hj
    by_cases hji : j = i
    · rw [hji, update_self] at hj
      cases hj
      obtain ⟨hslot, hlt, hle, hseq, hpacket⟩ := hentry.mono hout
      exact ⟨hslot.trans hji.symm, hlt, hle, hseq, hpacket⟩
    · rw [update_of_ne hji] at hj
      exact ((h.sent.holds j other hj).mono hout).congr rfl
  · cases hnew _ hp
    obtain ⟨c, seq, hfirst⟩ := hentry.packet
    exact ⟨hentry.seq, hentry.lt_sent, hentry.sent_le, fun hp' => h.sent.payload hp' hfirst⟩
  · exact (h.acked.mono hout (refl _)).congr rfl rfl (le_refl _)

lemma Sent.slot (h : Sent s out) :
    s.sendSeq.toNat % reliableBufSize = s.sent % reliableBufSize := by
  rw [h.sendSeq, BitVec.toNat_ofNat]
  unfold reliableBufSize
  omega

lemma Sent.sendSeq_succ (h : Sent s out) : s.sendSeq + 1 = BitVec.ofNat 16 (s.sent + 1) := by
  rw [h.sendSeq, BitVec.ofNat_add]
  rfl

lemma Sent.holds_succ (h : Sent s out)
    (hfree : s.sendBuf (s.sendSeq.toNat % reliableBufSize) = none) (hsent : s'.sent = s.sent + 1)
    (hi : s.sendBuf i = some entry) : Holds s' out i entry := by
  obtain ⟨hslot, hlt, hle, hseq, hpacket⟩ := h.holds i entry hi
  have hne : s.sent ≠ entry.number + reliableBufSize := by
    intro heq
    rw [h.slot, heq, Nat.add_mod_right, hslot, hi] at hfree
    cases hfree
  exact ⟨hslot, by omega, by omega, hseq, hpacket⟩

def SendView.Leads (s : SendView) : Prop :=
  s.sent < maxLead ∨ ∃ m ∈ s.freed, s.sent < m.1 + maxLead

lemma Acked.succ (h : Acked s r out back) (hlead : s.Leads) (hsent : s'.sent = s.sent + 1)
    (hfreed : s'.freed = s.freed) (hhighest : s'.highest = s.highest) : Acked s' r out back := by
  refine ⟨fun m hm => h.freed m (hfreed ▸ hm), ?_, fun m hm => ?_⟩
  · rw [hsent, hfreed]
    exact hlead
  · rw [hhighest]
    exact h.acked m (hfreed ▸ hm)

lemma Flow.send (h : Flow s r out back)
    (hfree : s.sendBuf (s.sendSeq.toNat % reliableBufSize) = none) (hlead : s.Leads)
    {data : Payload} {first last : Time} :
    Flow { s with
      sent := s.sent + 1
      sendSeq := s.sendSeq + 1
      sendCtr := s.sendCtr + 1
      sendBuf := update s.sendBuf (s.sendSeq.toNat % reliableBufSize)
        (some ⟨s.sendSeq, data, first, last, s.sent⟩) } r
      (out ++ [⟨s.sendCtr + 1, .reliable s.sendSeq data s.sent⟩]) back := by
  have hout : out ⊆ out ++ [⟨s.sendCtr + 1, .reliable s.sendSeq data s.sent⟩] :=
    subset_append_left _ _
  have hsent : Sent { s with
      sent := s.sent + 1
      sendSeq := s.sendSeq + 1
      sendCtr := s.sendCtr + 1
      sendBuf := update s.sendBuf (s.sendSeq.toNat % reliableBufSize)
        (some ⟨s.sendSeq, data, first, last, s.sent⟩) }
      (out ++ (some ⟨s.sendCtr + 1, .reliable s.sendSeq data s.sent⟩ : Option Packet).toList) := by
    refine h.sent.emit rfl (Nat.le_succ _) (le_refl _) h.sent.sendSeq_succ (fun i entry hi => ?_)
      (fun p hp => ?_) (fun hp => ?_)
    · dsimp only at hi
      by_cases hslot : i = s.sendSeq.toNat % reliableBufSize
      · rw [hslot, update_self] at hi
        cases hi
        refine ⟨?_, Nat.lt_succ_self _, ?_, h.sent.sendSeq, _, _, mem_append_right _
          (mem_singleton_self _)⟩
        · rw [hslot, h.sent.slot]
        · dsimp only [reliableBufSize]
          omega
      · rw [update_of_ne hslot] at hi
        exact (h.sent.holds_succ hfree rfl hi).mono hout
    · cases hp
      rfl
    · cases hp
      refine ⟨h.sent.sendSeq, Nat.lt_succ_self _, ?_, fun hp' => ?_⟩
      · dsimp only [reliableBufSize]
        omega
      · exact absurd (h.sent.packet hp').2.1 (lt_irrefl _)
  exact ⟨hsent, h.received.mono hout, h.acks,
    (h.acked.mono hout (refl _)).succ hlead rfl rfl rfl⟩

lemma Flow.sendFailed (h : Flow s r out back)
    (hfree : s.sendBuf (s.sendSeq.toNat % reliableBufSize) = none) (hlead : s.Leads) :
    Flow { s with sent := s.sent + 1, sendSeq := s.sendSeq + 1, sendCtr := s.sendCtr + 1 } r out
      back := by
  have hsent : Sent { s with
      sent := s.sent + 1, sendSeq := s.sendSeq + 1, sendCtr := s.sendCtr + 1 }
      (out ++ (none : Option Packet).toList) :=
    h.sent.emit rfl (Nat.le_succ _) (le_refl _) h.sent.sendSeq_succ
      (fun i entry hi => (h.sent.holds_succ hfree rfl hi).mono (subset_append_left _ _))
      (fun p hp => by cases hp) (fun hp => by cases hp)
  rw [Option.toList_none, append_nil] at hsent
  exact ⟨hsent, h.received, h.acks, h.acked.succ hlead rfl rfl rfl⟩

lemma Flow.clear (h : Flow s r out back) : Flow { s with sendBuf := fun _ => none } r out back :=
  ⟨⟨h.sent.sendSeq, (fun _ _ hi => by cases hi), h.sent.counter_le, h.sent.packet, h.sent.spread,
    h.sent.payload⟩, h.received, h.acks, h.acked.congr rfl rfl (le_refl _)⟩

lemma Flow.open (h : Flow s r out back) (c : ℕ) :
    Flow { s with highest := max s.highest c } r out back :=
  ⟨⟨h.sent.sendSeq, fun i entry hi => (h.sent.holds i entry hi).congr rfl, h.sent.counter_le,
    h.sent.packet, h.sent.spread, h.sent.payload⟩, h.received, h.acks,
    h.acked.congr rfl rfl (le_max_left _ _)⟩

variable {top : ℕ} {seq : BitVec 16} {bits : BitVec 32}

/-- **An acknowledgement frees what was delivered.** The message in a slot with a sequence number
that is acknowledged is the message that the receiver means. -/
lemma Flow.number_eq (h : Flow s r out back) {c n : ℕ} (hack : ⟨c, .ack seq bits top⟩ ∈ back)
    (hopen : s.highest < c + replayWindowSize) (hn : n ∈ r.announced) (htop : top ≤ n + 32)
    (hi : s.sendBuf i = some entry) (hseq : entry.seq = BitVec.ofNat 16 n) : entry.number = n := by
  have hentry := h.sent.holds i entry hi
  have hlt := hentry.lt_sent
  have hreach := hentry.sent_le
  obtain ⟨_, _, _, hpacket, -⟩ := h.received.opened n (h.acks.announced hn)
  have hsent := (h.sent.packet hpacket).2.1
  -- the sender is not ahead of the acknowledged message by the size of the sequence numbers
  have hahead : s.sent ≤ n + 65000 := by
    rcases h.acked.lead with hlead | ⟨m, hm, hlead⟩
    · unfold maxLead at hlead
      omega
    obtain ⟨c', seq', bits', top', hack', hc', hm'⟩ := h.acked.acked m hm
    unfold replayWindowSize at hopen
    rcases Nat.le_total c c' with hle | hle
    · have hjump := (h.acks.mono hack hack' hle).2
      unfold maxLead at hjump hlead
      omega
    · have hback := (h.acks.mono hack' hack hle).1
      unfold maxLead at hlead
      omega
  unfold reliableBufSize at hreach
  exact BitVec.ofNat_inj_of_near (hentry.seq.symm.trans hseq) (by omega) (by omega)

lemma Flow.free (h : Flow s r out back) {c : ℕ} (hack : ⟨c, .ack seq bits top⟩ ∈ back)
    (hc : c ≤ s.highest) (hi : s.sendBuf i = some entry) (hentry : entry.number ∈ r.announced)
    (htop : entry.number ≤ top) :
    Flow { s with
      sendBuf := update s.sendBuf i none
      freed := (entry.number, entry.payload) :: s.freed } r out back := by
  refine ⟨⟨h.sent.sendSeq, fun j other hj => ?_, h.sent.counter_le, h.sent.packet, h.sent.spread,
    h.sent.payload⟩, h.received, h.acks, fun m hm => ?_, ?_, fun m hm => ?_⟩
  · dsimp only at hj
    by_cases hji : j = i
    · rw [hji, update_self] at hj
      cases hj
    · rw [update_of_ne hji] at hj
      exact (h.sent.holds j other hj).congr rfl
  · rcases mem_cons.mp hm with rfl | hm
    · exact ⟨hentry, (h.sent.holds i entry hi).packet⟩
    · exact h.acked.freed m hm
  · rcases h.acked.lead with hlead | ⟨m, hm, hlead⟩
    · exact .inl hlead
    · exact .inr ⟨m, mem_cons_of_mem _ hm, hlead⟩
  · rcases mem_cons.mp hm with rfl | hm
    · exact ⟨c, seq, bits, top, hack, hc, htop⟩
    · exact h.acked.acked m hm

variable {e : Endpoint}

lemma Flow.markAcked (h : Flow e.sendView r out back) {c n : ℕ}
    (hack : ⟨c, .ack seq bits top⟩ ∈ back) (hc : c ≤ e.win.highest)
    (hopen : e.win.highest < c + replayWindowSize) (hn : n ∈ r.announced) (hle : n ≤ top)
    (htop : top ≤ n + 32) : Flow (e.markAcked (BitVec.ofNat 16 n)).sendView r out back := by
  unfold Endpoint.markAcked
  dsimp only
  split
  · exact h
  rename_i entry hi
  split
  · rename_i hseq
    have hnumber : entry.number = n := h.number_eq hack hopen hn htop hi hseq
    exact h.free hack hc hi (hnumber ▸ hn) (hnumber ▸ hle)
  · exact h

lemma Endpoint.win_markAcked (e : Endpoint) (seq : BitVec 16) : (e.markAcked seq).win = e.win := by
  unfold markAcked
  dsimp only
  split
  · rfl
  · split <;> rfl

lemma Acks.number (h : Acks r back) {c : ℕ} {seq' : BitVec 16}
    (hack : ⟨c, .ack seq bits top⟩ ∈ back) (hseq : seq' ∈ ackedSeqs seq bits) :
    ∃ n ∈ r.announced, seq' = BitVec.ofNat 16 n ∧ n ≤ top ∧ top ≤ n + 32 := by
  obtain ⟨rfl, htop, -, hbits⟩ := h.ack hack
  rcases mem_cons.mp hseq with rfl | hseq
  · exact ⟨top, htop, rfl, le_refl _, Nat.le_add_right _ _⟩
  obtain ⟨i, hi, rfl⟩ := mem_map.mp hseq
  obtain ⟨hrange, hbit⟩ := mem_filter.mp hi
  have hlt := mem_range.mp hrange
  obtain ⟨hbelow, hmem⟩ := hbits i hlt hbit
  refine ⟨top - 1 - i, hmem, ?_, by omega, by omega⟩
  have hsplit : top = top - 1 - i + 1 + i := by omega
  have hsum : BitVec.ofNat 16 top
      = BitVec.ofNat 16 (top - 1 - i) + 1#16 + BitVec.ofNat 16 i := by
    rw [← BitVec.ofNat_add, ← BitVec.ofNat_add, ← hsplit]
  rw [hsum, BitVec.add_sub_cancel]
  exact BitVec.add_sub_cancel _ _

lemma Flow.acknowledge (h : Flow e.sendView r out back) {c : ℕ}
    (hack : ⟨c, .ack seq bits top⟩ ∈ back) (hc : c ≤ e.win.highest)
    (hopen : e.win.highest < c + replayWindowSize) :
    Flow (e.handleACK seq bits).sendView r out back := by
  unfold handleACK
  have hall : ∀ seq' ∈ ackedSeqs seq bits, ∃ n ∈ r.announced, seq' = BitVec.ofNat 16 n ∧
      n ≤ top ∧ top ≤ n + 32 := fun seq' hseq' => h.acks.number hack hseq'
  generalize ackedSeqs seq bits = seqs at hall ⊢
  -- the slots are freed one after the other
  induction seqs generalizing e with
  | nil => exact h
  | cons seq' seqs ih =>
    obtain ⟨n, hn, rfl, hle, htop⟩ := hall seq' mem_cons_self
    refine ih (h.markAcked hack hc hopen hn hle htop) ?_ ?_ fun seq'' hseq'' =>
      hall seq'' (mem_cons_of_mem _ hseq'')
    · rwa [win_markAcked]
    · rwa [win_markAcked]

end Sender

section Receiver

variable {s : SendView} {r r' : RecvView} {out back : List Packet} {new : Option Packet}

lemma Flow.sealBack (h : Flow s r out back) (hctr : ∀ p, new = some p → p.counter = r.sendCtr + 1)
    (hbody : ∀ {c seq bits top}, new ≠ some ⟨c, .ack seq bits top⟩) :
    Flow s { r with sendCtr := r.sendCtr + 1 } out (back ++ new.toList) := by
  have hback : back ⊆ back ++ new.toList := subset_append_left _ _
  have hold : ∀ {c seq bits top}, ⟨c, .ack seq bits top⟩ ∈ back ++ new.toList →
      ⟨c, .ack seq bits top⟩ ∈ back := fun hp =>
    (mem_append_toList.mp hp).resolve_right hbody
  refine ⟨h.sent, ⟨h.received.empty, fun hinit => ?_, h.received.dirty, h.received.nodup,
    h.received.opened, h.received.taken_nodup, h.received.taken⟩, ⟨fun p hp => ?_,
    h.acks.announced, fun hp => h.acks.ack (hold hp), fun hp hp' =>
      h.acks.mono (hold hp) (hold hp')⟩, ?_⟩
  · obtain ⟨hseq, hmem, hle, htracks⟩ := h.received.exact hinit
    exact ⟨hseq, hmem, hle, htracks⟩
  · rcases mem_append_toList.mp hp with hp | hp
    · exact (h.acks.counter_le p hp).trans (Nat.le_succ _)
    · exact (hctr p hp).le
  · obtain ⟨hfreed, hlead, hacked⟩ := h.acked.mono (refl _) hback
    exact ⟨hfreed, hlead, hacked⟩

lemma Flow.openBack (h : Flow s r out back) (c : ℕ) :
    Flow s { r with highest := max r.highest c } out back := by
  refine ⟨h.sent, ⟨h.received.empty, fun hinit => ?_, h.received.dirty, h.received.nodup,
    fun n hn => ?_, h.received.taken_nodup, h.received.taken⟩,
    ⟨h.acks.counter_le, h.acks.announced, h.acks.ack, h.acks.mono⟩, ?_⟩
  · obtain ⟨hseq, hmem, hle, htracks⟩ := h.received.exact hinit
    exact ⟨hseq, hmem, hle, htracks⟩
  · obtain ⟨c', seq, data, hp, hc', hrouted⟩ := h.received.opened n hn
    exact ⟨c', seq, data, hp, hc'.trans (le_max_left _ _), hrouted⟩
  · exact ⟨h.acked.freed, h.acked.lead, h.acked.acked⟩

lemma Flow.lt_sent (h : Flow s r out back) {n : ℕ} (hn : n ∈ r.delivered) : n < s.sent := by
  obtain ⟨c, seq, data, hp, -⟩ := h.received.opened n hn
  exact (h.sent.packet hp).2.1

lemma Flow.sendAck (h : Flow s r out back) (hinit : r.recvInit = true) :
    Flow s { r with sendCtr := r.sendCtr + 1, ackDirty := false, announced := r.delivered } out
      (back ++ [⟨r.sendCtr + 1, .ack r.recvSeq r.recvBits r.recvNumber⟩]) := by
  have hback : back ⊆ back ++ [⟨r.sendCtr + 1, .ack r.recvSeq r.recvBits r.recvNumber⟩] :=
    subset_append_left _ _
  have hcases : ∀ {p}, p ∈ back ++ [⟨r.sendCtr + 1, .ack r.recvSeq r.recvBits r.recvNumber⟩] →
      p ∈ back ∨ p = ⟨r.sendCtr + 1, .ack r.recvSeq r.recvBits r.recvNumber⟩ := fun hp =>
    (mem_append.mp hp).imp_right mem_singleton.mp
  obtain ⟨hseq, hmem, hle, htracks⟩ := h.received.exact hinit
  refine ⟨h.sent, ⟨h.received.empty, fun _ => ⟨hseq, hmem, hle, htracks⟩,
    (fun hdirty => by cases hdirty), h.received.nodup, h.received.opened, h.received.taken_nodup,
    h.received.taken⟩, ⟨fun p hp => ?_, refl _, fun hp => ?_, fun hp hp' hcc => ?_⟩, ?_⟩
  · rcases hcases hp with hp | rfl
    · exact (h.acks.counter_le p hp).trans (Nat.le_succ _)
    · exact le_refl _
  · rcases hcases hp with hp | hp
    · obtain ⟨hseq', hmem', hle', hbits⟩ := h.acks.ack hp
      refine ⟨hseq', h.acks.announced hmem', hle', fun i hi hbit => ?_⟩
      exact ⟨(hbits i hi hbit).1, h.acks.announced (hbits i hi hbit).2⟩
    · cases hp
      exact ⟨hseq, hmem, le_refl _, fun i hi hbit => (htracks i hi).mp hbit⟩
  · rcases hcases hp with hp | hp <;> rcases hcases hp' with hp' | hp'
    · exact h.acks.mono hp hp' hcc
    · -- the new acknowledgement is above an old one
      cases hp'
      obtain ⟨-, -, htop, -⟩ := h.acks.ack hp
      have hc := h.acks.counter_le _ hp
      have hsent := h.lt_sent hmem
      refine ⟨htop, ?_⟩
      dsimp only at hc
      rcases h.acked.lead with hlead | ⟨m, hm, hlead⟩
      · unfold maxLead at hlead ⊢
        omega
      obtain ⟨c'', seq'', bits'', top'', hack, -, hm'⟩ := h.acked.acked m hm
      have hc'' := h.acks.counter_le _ hack
      dsimp only at hc''
      rcases Nat.le_total _ c'' with hge | hge
      · have hjump := (h.acks.mono hp hack hge).2
        unfold maxLead at hlead hjump ⊢
        omega
      · have hlow := (h.acks.mono hack hp hge).1
        unfold maxLead at hlead ⊢
        omega
    · cases hp
      have hc := h.acks.counter_le _ hp'
      dsimp only at hc
      omega
    · cases hp
      cases hp'
      exact ⟨le_refl _, Nat.le_add_right _ _⟩
  · obtain ⟨hfreed, hlead, hacked⟩ := h.acked.mono (refl _) hback
    exact ⟨fun m hm => (hfreed m hm).imp_left fun hin => h.acks.announced hin, hlead, hacked⟩

lemma Flow.setDirty (h : Flow s r out back) {dirty : Bool}
    (hdirty : dirty = true → r.recvInit = true) : Flow s { r with ackDirty := dirty } out back := by
  refine ⟨h.sent, ⟨h.received.empty, fun hinit => ?_, hdirty, h.received.nodup, h.received.opened,
    h.received.taken_nodup, h.received.taken⟩,
      ⟨h.acks.counter_le, h.acks.announced, h.acks.ack, h.acks.mono⟩,
    ⟨h.acked.freed, h.acked.lead, h.acked.acked⟩⟩
  obtain ⟨hseq, hmem, hle, htracks⟩ := h.received.exact hinit
  exact ⟨hseq, hmem, hle, htracks⟩

lemma Flow.near (h : Flow s r out back) (hinit : r.recvInit = true) {c n : ℕ} {seq : BitVec 16}
    {data : Payload} (hp : ⟨c, .reliable seq data n⟩ ∈ out)
    (hopen : r.highest < c + replayWindowSize) :
    n < r.recvNumber + 32768 ∧ r.recvNumber < n + 32768 := by
  obtain ⟨-, hmem, hle, -⟩ := h.received.exact hinit
  obtain ⟨-, hn, -⟩ := h.sent.packet hp
  constructor
  · rcases h.acked.lead with hlead | ⟨m, hm, hlead⟩
    · unfold maxLead at hlead
      omega
    · have hacked := hle _ (h.acks.announced (h.acked.freed m hm).1)
      unfold maxLead at hlead
      omega
  · -- the copy of the highest message was sealed at most 63 counters after this one
    obtain ⟨c', seq', data', hp', hc', -⟩ := h.received.opened _ hmem
    have hspread := h.sent.spread hp hp'
    unfold replayWindowSize at hopen
    unfold reliableBufSize at hspread
    omega

end Receiver

section Arrival

variable {s : SendView} {e e' : Endpoint} {out back : List Packet} {c n : ℕ} {seq : BitVec 16}
  {data : Payload}

lemma Acks.grow {r r' : RecvView} (h : Acks r back) (hctr : r'.sendCtr = r.sendCtr)
    (hdelivered : r.delivered ⊆ r'.delivered) (hannounced : r'.announced = r.announced)
    (htop : ∀ n ∈ r.delivered, n ≤ r.recvNumber → n ≤ r'.recvNumber) : Acks r' back := by
  refine ⟨fun p hp => hctr ▸ h.counter_le p hp, ?_, fun hp => ?_, h.mono⟩
  · rw [hannounced]
    exact fun n hn => hdelivered (h.announced hn)
  rw [hannounced]
  obtain ⟨hseq, hmem, hle, hbits⟩ := h.ack hp
  exact ⟨hseq, hmem, htop _ (h.announced hmem) hle, hbits⟩

lemma Acked.grow {r r' : RecvView} (h : Acked s r out back)
    (hannounced : r'.announced = r.announced) :
    Acked s r' out back :=
  ⟨fun m hm => hannounced ▸ h.freed m hm, h.lead, h.acked⟩

lemma Endpoint.Takes.taken (h : e.Takes e' n data) :
    e'.recvView.taken = if data = [] then e.recvView.taken else (n, data) :: e.recvView.taken := by
  change e'.inHand ++ e'.routed = _
  rw [h.inHand, h.routed]
  split <;> rfl

lemma Endpoint.Skips.taken (h : e.Skips e') : e'.recvView.taken = e.recvView.taken := by
  change e'.inHand ++ e'.routed = _
  rw [h.inHand, h.routed]
  rfl

lemma Received.takes (h : Received e.recvView out) (hp : ⟨c, .reliable seq data n⟩ ∈ out)
    (hc : c ≤ e.win.highest) (hnew : n ∉ e.delivered) (htakes : e.Takes e' n data)
    (hinit : e'.recvInit = true) (hexact : e'.recvView.Exact) (hwin : e'.win = e.win) :
    Received e'.recvView out := by
  have htaken := htakes.taken
  have hdelivered := htakes.delivered
  have hkept : e.recvView.taken ⊆ e'.recvView.taken := by
    rw [htaken]
    split
    · exact refl _
    · exact subset_cons_self _ _
  refine ⟨fun hfalse => ?_, fun _ => hexact, fun _ => hinit, ?_, fun m hm => ?_, ?_, fun m hm => ?_⟩
  · exact absurd (hinit.symm.trans hfalse) (by decide)
  · change e'.delivered.Nodup
    rw [hdelivered]
    exact nodup_cons.mpr ⟨hnew, h.nodup⟩
  · change m ∈ e'.delivered at hm
    change ∃ c seq data, _ ∧ c ≤ e'.win.highest ∧ _
    rw [hwin]
    rw [hdelivered] at hm
    rcases mem_cons.mp hm with rfl | hm
    · refine ⟨c, seq, data, hp, hc, ?_⟩
      by_cases hdata : data = []
      · exact .inl hdata
      · rw [htaken, if_neg hdata]
        exact .inr mem_cons_self
    · obtain ⟨c', seq', data', hp', hc', hcase⟩ := h.opened m hm
      exact ⟨c', seq', data', hp', hc', hcase.imp_right fun hin => hkept hin⟩
  · rw [htaken]
    split
    · exact h.taken_nodup
    rw [map_cons, nodup_cons]
    refine ⟨fun hin => ?_, h.taken_nodup⟩
    obtain ⟨m, hm, hfst⟩ := mem_map.mp hin
    have hmem : m.1 ∈ e.delivered := h.taken m hm
    rw [hfst] at hmem
    exact hnew hmem
  · change m.1 ∈ e'.delivered
    rw [hdelivered]
    rw [htaken] at hm
    split at hm
    · exact mem_cons_of_mem _ (h.taken m hm)
    · rcases mem_cons.mp hm with rfl | hm
      · exact mem_cons_self
      · exact mem_cons_of_mem _ (h.taken m hm)

lemma Received.skips (h : Received e.recvView out) (hskips : e.Skips e')
    (hinit : e'.recvInit = true)
    (hexact : e'.recvView.Exact) (hwin : e'.win = e.win) : Received e'.recvView out := by
  have htaken := hskips.taken
  have hdelivered : e'.recvView.delivered = e.recvView.delivered := hskips.delivered
  refine ⟨fun hfalse => ?_, fun _ => hexact, fun _ => hinit, ?_, fun m hm => ?_, ?_, fun m hm => ?_⟩
  · exact absurd (hinit.symm.trans hfalse) (by decide)
  · rw [hdelivered]
    exact h.nodup
  · change ∃ c seq data, _ ∧ c ≤ e'.win.highest ∧ _
    rw [hwin, htaken]
    rw [hdelivered] at hm
    exact h.opened m hm
  · rw [htaken]
    exact h.taken_nodup
  · rw [htaken] at hm
    rw [hdelivered]
    exact h.taken m hm

lemma Endpoint.sendView_handleReliable (e : Endpoint) (seq : BitVec 16) (data : Payload) (n : ℕ) :
    (e.handleReliable seq data n).sendView = e.sendView ∧
      (e.handleReliable seq data n).win = e.win ∧
      (e.handleReliable seq data n).closed = e.closed := by
  have htracked : (e.updateRecvTracking seq n).1.sendView = e.sendView ∧
      (e.updateRecvTracking seq n).1.win = e.win ∧
      (e.updateRecvTracking seq n).1.closed = e.closed := by
    unfold updateRecvTracking
    split
    · exact ⟨rfl, rfl, rfl⟩
    split
    · exact ⟨rfl, rfl, rfl⟩
    · dsimp only
      split <;> exact ⟨rfl, rfl, rfl⟩
  unfold handleReliable
  dsimp only
  split
  · exact htracked
  · exact htracked

/-- **A message arrives**: it is delivered exactly if it was not delivered before and no message
more than 32 later was. -/
lemma Flow.receive (h : Flow s e.recvView out back) (hp : ⟨c, .reliable seq data n⟩ ∈ out)
    (hc : c ≤ e.win.highest) (hopen : e.win.highest < c + replayWindowSize) :
    Flow s (e.handleReliable seq data n).recvView out back ∧
      if n ∉ e.delivered ∧ ∀ m ∈ e.delivered, m ≤ n + 32 then
        e.Takes (e.handleReliable seq data n) n data
      else e.Skips (e.handleReliable seq data n) := by
  obtain ⟨hview, hwin, -⟩ := e.sendView_handleReliable seq data n
  have hctr : (e.handleReliable seq data n).sendCtr = e.sendCtr := congrArg SendView.sendCtr hview
  obtain ⟨rfl, -, -⟩ := h.sent.packet hp
  have hflow : ∀ {e' : Endpoint}, Received e'.recvView out → e'.sendCtr = e.sendCtr →
      e.delivered ⊆ e'.delivered → e'.announced = e.announced →
      (∀ m ∈ e.delivered, m ≤ e.recvNumber → m ≤ e'.recvNumber) → Flow s e'.recvView out back :=
    fun hreceived hctr hsub hannounced htop =>
      ⟨h.sent, hreceived, h.acks.grow hctr hsub hannounced htop, h.acked.grow hannounced⟩
  cases hrecv : e.recvInit with
  | false =>
    have hnone : e.delivered = [] := h.received.empty hrecv
    obtain ⟨hinit, hexact, htakes⟩ := handleReliable_first n data hrecv hnone
    have hnew : n ∉ e.delivered ∧ ∀ m ∈ e.delivered, m ≤ n + 32 := by
      rw [hnone]
      exact ⟨not_mem_nil, fun m hm => absurd hm not_mem_nil⟩
    rw [if_pos hnew]
    refine ⟨hflow (h.received.takes hp hc hnew.1 htakes hinit hexact hwin) hctr ?_
      htakes.announced ?_,
      htakes⟩
    · rw [hnone]
      exact nil_subset _
    · rw [hnone]
      exact fun m hm => absurd hm not_mem_nil
  | true =>
    obtain ⟨habove, hbelow⟩ := h.near hrecv hp hopen
    have hold := h.received.exact hrecv
    obtain ⟨hinit, hexact, htop, hcases⟩ := handleReliable_spec data hrecv hold habove hbelow
    have hreach : e.recvNumber ≤ n + 32 ↔ ∀ m ∈ e.delivered, m ≤ n + 32 :=
      ⟨fun hle m hm => (hold.le m hm).trans hle, fun hall => hall _ hold.mem⟩
    by_cases hnew : n ∉ e.delivered ∧ ∀ m ∈ e.delivered, m ≤ n + 32
    · rw [if_pos ⟨hnew.1, hreach.mpr hnew.2⟩] at hcases
      rw [if_pos hnew]
      refine ⟨hflow (h.received.takes hp hc hnew.1 hcases hinit hexact hwin) hctr ?_
        hcases.announced fun m _ hm => hm.trans htop, hcases⟩
      rw [hcases.delivered]
      exact subset_cons_self _ _
    · rw [if_neg fun hold => hnew ⟨hold.1, hreach.mp hold.2⟩] at hcases
      rw [if_neg hnew]
      refine ⟨hflow (h.received.skips hcases hinit hexact hwin) hctr ?_
        hcases.announced fun m _ hm => hm.trans htop, hcases⟩
      rw [hcases.delivered]
      exact refl _

end Arrival

end Mmokit.UDP
