/-
What the reliable channel over UDP guarantees.

The 256 slots stop a sender that runs ahead. But a write that fails takes a sequence number and
frees the slot, so failed writes can carry the sender around the `2 ^ 16` sequence numbers.
-/
import Mmokit.Net.ReliableFlow

namespace Mmokit.UDP

open Function List Option Endpoint

namespace Endpoint

variable {e e' e'' : Endpoint} {new new' : List Packet} {now : Time}

/-- Both flows of the end survive. -/
structure Keeps (e e' : Endpoint) (new : List Packet) : Prop where
  left : ∀ {r out back}, Flow e.sendView r out back → Flow e'.sendView r (out ++ new) back
  right : ∀ {s out back}, Flow s e.recvView out back → Flow s e'.recvView out (back ++ new)

lemma Keeps.refl : Keeps e e [] :=
  ⟨fun h => by rwa [append_nil], fun h => by rwa [append_nil]⟩

lemma Keeps.trans (h : Keeps e e' new) (h' : Keeps e' e'' new') : Keeps e e'' (new ++ new') := by
  refine ⟨fun hflow => ?_, fun hflow => ?_⟩
  · rw [← append_assoc]
    exact h'.left (h.left hflow)
  · rw [← append_assoc]
    exact h'.right (h.right hflow)

lemma sealWithHeader_eq (h : e.sendCtr + 1 < 2 ^ 64) (body : Body) :
    e.sealWithHeader body = ({ e with sendCtr := e.sendCtr + 1 },
      if maxCounter < e.sendCtr + 1 then none else some ⟨e.sendCtr + 1, body⟩) := by
  unfold sealWithHeader
  rw [Nat.mod_eq_of_lt h]

lemma sealSend_cases (h : e.sendCtr + 1 < 2 ^ 64) (now : Time) (ok : Bool) (body : Body) :
    (∃ t, ok = true ∧ e.sealSend now ok body =
      ({ e with sendCtr := e.sendCtr + 1, lastSend := t }, .queued, [⟨e.sendCtr + 1, body⟩])) ∨
    ∃ d, d ≠ .queued ∧ (e.closed = true ∨ ok = false ∨ maxCounter < e.sendCtr + 1) ∧
      e.sealSend now ok body = ({ e with sendCtr := e.sendCtr + 1 }, d, []) := by
  unfold sealSend
  rw [sealWithHeader_eq h]
  by_cases hmax : maxCounter < e.sendCtr + 1
  · rw [if_pos hmax]
    exact .inr ⟨.failed, by decide, .inr (.inr hmax), rfl⟩
  rw [if_neg hmax]
  dsimp only
  split
  · exact .inr ⟨.closed, by decide, .inl ‹_›, rfl⟩
  · split
    · exact .inl ⟨now, ‹_›, rfl⟩
    · exact .inr ⟨.failed, by decide, .inr (.inl (Bool.eq_false_iff.mpr ‹_›)), rfl⟩

lemma sealSend_spec (h : e.sendCtr + 1 < 2 ^ 64) (now : Time) (ok : Bool) (body : Body) :
    ∃ t, ∃ packet : Option Packet, (e.sealSend now ok body).2.2 = packet.toList ∧
      (∀ p, packet = some p → p = ⟨e.sendCtr + 1, body⟩) ∧
      (e.sealSend now ok body).1 = { e with sendCtr := e.sendCtr + 1, lastSend := t } := by
  rcases sealSend_cases h now ok body with ⟨t, -, heq⟩ | ⟨d, -, -, heq⟩
  · refine ⟨t, some ⟨e.sendCtr + 1, body⟩, ?_, fun p hp => (some.inj hp).symm, ?_⟩
    · rw [heq]
      rfl
    · rw [heq]
  · refine ⟨e.lastSend, none, ?_, fun p hp => ?_, ?_⟩
    · rw [heq]
      rfl
    · cases hp
    · rw [heq]

lemma flow_sealBack {s : SendView} {out back : List Packet} (packet : Option Packet) (body : Body)
    (hflow : Flow s e.recvView out back) (hnew : ∀ p, packet = some p → p = ⟨e.sendCtr + 1, body⟩)
    (hack : ∀ seq bits top, body ≠ .ack seq bits top) :
    Flow s { e.recvView with sendCtr := e.sendCtr + 1 } out (back ++ packet.toList) := by
  refine hflow.sealBack (fun p hp => by rw [hnew p hp]; rfl) fun hp => ?_
  have hbody := congrArg Packet.body (hnew _ hp)
  exact hack _ _ _ hbody.symm

lemma keeps_sealed {packet : Option Packet} (body : Body)
    (hnew : ∀ p, packet = some p → p = ⟨e.sendCtr + 1, body⟩)
    (hreliable : ∀ seq data n, body ≠ .reliable seq data n)
    (hack : ∀ seq bits top, body ≠ .ack seq bits top)
    (hs : e'.sendView = { e.sendView with sendCtr := e.sendCtr + 1 })
    (hr : e'.recvView = { e.recvView with sendCtr := e.sendCtr + 1 }) :
    Keeps e e' packet.toList := by
  refine ⟨fun hflow => ?_, fun hflow => ?_⟩
  · rw [hs]
    refine hflow.seal (fun p hp => by rw [hnew p hp]; rfl) fun hp => ?_
    have hbody := congrArg Packet.body (hnew _ hp)
    exact hreliable _ _ _ hbody.symm
  · rw [hr]
    exact flow_sealBack packet body hflow hnew hack

lemma keeps_sealSend (h : e.sendCtr + 1 < 2 ^ 64) (ok : Bool) {body : Body}
    (hreliable : ∀ seq data n, body ≠ .reliable seq data n)
    (hack : ∀ seq bits top, body ≠ .ack seq bits top) :
    Keeps e (e.sealSend now ok body).1 (e.sealSend now ok body).2.2 := by
  obtain ⟨t, packet, hpackets, hnew, heq⟩ := sealSend_spec h now ok body
  rw [hpackets, heq]
  exact keeps_sealed body hnew hreliable hack rfl rfl

lemma keeps_lost : Keeps e { e with sendCtr := e.sendCtr + 1 } (none : Option Packet).toList :=
  keeps_sealed .disconnect (fun p hp => by cases hp) (fun _ _ _ h => by cases h)
    (fun _ _ _ h => by cases h) rfl rfl

lemma keeps_sendUnreliable (h : e.sendCtr + 1 < 2 ^ 64) (ok : Bool) (data : Payload) :
    Keeps e (e.sendUnreliable now ok data).1 (e.sendUnreliable now ok data).2.2 := by
  unfold sendUnreliable
  split
  · exact Keeps.refl
  · exact keeps_sealSend h ok (fun _ _ _ h => by cases h) (fun _ _ _ h => by cases h)

lemma keeps_close (h : e.sendCtr + 1 < 2 ^ 64) : Keeps e e.close.1 e.close.2 := by
  unfold close
  split
  · exact Keeps.refl
  let cleared : Endpoint := { e with closed := true, sendBuf := fun _ => none }
  have hclear : Keeps e cleared [] :=
    ⟨fun hflow => by rw [append_nil]; exact hflow.clear,
      fun hflow => by rw [append_nil]; exact hflow⟩
  have hctr : cleared.sendCtr + 1 < 2 ^ 64 := h
  rw [sealWithHeader_eq hctr]
  refine hclear.trans (keeps_sealed .disconnect (fun p hp => ?_) (fun _ _ _ h => by cases h)
    (fun _ _ _ h => by cases h) rfl rfl)
  split at hp
  · cases hp
  · exact (some.inj hp).symm

lemma keeps_writeFailed (h : e.sendCtr + 1 < 2 ^ 64) :
    Keeps e e.writeFailed.1 e.writeFailed.2 := by
  unfold writeFailed
  split
  · exact keeps_close h
  · exact Keeps.refl
  · exact Keeps.refl

lemma keeps_keepalive (h : e.sendCtr + 2 < 2 ^ 64) (now : Time) (ok : Bool) :
    Keeps e (e.keepalive now ok).1 (e.keepalive now ok).2 := by
  unfold keepalive
  split
  · dsimp only
    split
    · exact keeps_sealSend (by omega) ok (fun _ _ _ h => by cases h) (fun _ _ _ h => by cases h)
    · rename_i hfailed
      rcases sealSend_cases (e := e) (by omega) now ok (.unreliable [])
        with ⟨t, -, heq⟩ | ⟨d, -, -, heq⟩
      · rw [heq] at hfailed
        exact absurd rfl hfailed
      · rw [heq]
        exact keeps_lost.trans (keeps_writeFailed h)
  · exact Keeps.refl

lemma keeps_route : Keeps e e.route [] :=
  ⟨fun hflow => by rw [append_nil]; exact hflow, fun hflow => by rw [append_nil]; exact hflow⟩

def TakesNumber (e : Endpoint) : Prop :=
  e.closed = false ∧ e.sendBuf (e.sendSeq.toNat % reliableBufSize) = none

def sending (e : Endpoint) (now : Time) (data : Payload) : Endpoint :=
  { e with
    sendSeq := e.sendSeq + 1
    sent := e.sent + 1
    sendCtr := e.sendCtr + 1
    sendBuf := update e.sendBuf (e.sendSeq.toNat % reliableBufSize)
      (some ⟨e.sendSeq, data, now, now, e.sent⟩) }

def failing (e : Endpoint) (k : ℕ) : Endpoint :=
  { e with
    sendSeq := e.sendSeq + BitVec.ofNat 16 k
    sendCtr := e.sendCtr + k
    sent := e.sent + k }

lemma failing_zero (e : Endpoint) : e.failing 0 = e := by
  unfold failing
  simp

lemma failing_succ (e : Endpoint) (k : ℕ) : (e.failing k).failing 1 = e.failing (k + 1) := by
  unfold failing
  rw [BitVec.add_assoc, ← BitVec.ofNat_add, Nat.add_assoc, Nat.add_assoc]

lemma sendReliable_cases (h : e.sendCtr + 1 < 2 ^ 64) (now : Time) (ok : Bool) (data : Payload) :
    (∃ d, ¬ e.TakesNumber ∧ e.sendReliable now ok data = (e, d, [])) ∨
    (∃ t, e.TakesNumber ∧ ok = true ∧ e.sendReliable now ok data =
      ({ e.sending now data with lastSend := t }, .queued,
        [⟨e.sendCtr + 1, .reliable e.sendSeq data e.sent⟩])) ∨
    ∃ d, e.TakesNumber ∧ (ok = false ∨ maxCounter < e.sendCtr + 1) ∧
      e.sendReliable now ok data = (e.failing 1, d, []) := by
  unfold sendReliable
  split
  · rename_i hclosed
    exact .inl ⟨.closed, fun htakes => by simp [htakes.1] at hclosed, rfl⟩
  rename_i hclosed
  dsimp only
  split
  · rename_i hused
    exact .inl ⟨.backpressure, fun htakes => by simp [htakes.2] at hused, rfl⟩
  rename_i hused
  have hfree : e.sendBuf (e.sendSeq.toNat % reliableBufSize) = none :=
    not_isSome_iff_eq_none.mp hused
  have htakes : e.TakesNumber := ⟨Bool.eq_false_iff.mpr hclosed, hfree⟩
  let staged : Endpoint := { e with
    sendSeq := e.sendSeq + 1
    sent := e.sent + 1
    sendBuf := update e.sendBuf (e.sendSeq.toNat % reliableBufSize)
      (some ⟨e.sendSeq, data, now, now, e.sent⟩) }
  have hctr : staged.sendCtr + 1 < 2 ^ 64 := h
  rcases sealSend_cases hctr now ok (.reliable e.sendSeq data e.sent) with
    ⟨t, hok, heq⟩ | ⟨d, hd, hwhy, heq⟩
  · rw [heq]
    exact .inr (.inl ⟨t, htakes, hok, rfl⟩)
  rw [heq, if_neg hd]
  refine .inr (.inr ⟨d, htakes, hwhy.resolve_left hclosed, ?_⟩)
  -- the slot is as it was before
  have hback : update (update e.sendBuf (e.sendSeq.toNat % reliableBufSize)
      (some ⟨e.sendSeq, data, now, now, e.sent⟩)) (e.sendSeq.toNat % reliableBufSize) none
        = e.sendBuf := by
    rw [update_idem, update_eq_self_iff, hfree]
  rw [hback]
  rfl

lemma keeps_sendReliable (h : e.sendCtr + 1 < 2 ^ 64) (hleads : e.TakesNumber → e.sendView.Leads)
    (now : Time) (ok : Bool) (data : Payload) :
    Keeps e (e.sendReliable now ok data).1 (e.sendReliable now ok data).2.2 := by
  rcases sendReliable_cases h now ok data with
    ⟨d, -, heq⟩ | ⟨t, htakes, -, heq⟩ | ⟨d, htakes, -, heq⟩
  · rw [heq]
    exact Keeps.refl
  · rw [heq]
    refine ⟨fun hflow => hflow.send htakes.2 (hleads htakes), fun hflow => ?_⟩
    exact flow_sealBack (some _) _ hflow (fun p hp => (some.inj hp).symm)
      (fun _ _ _ h => by cases h)
  · rw [heq]
    refine ⟨fun hflow => ?_, fun hflow => ?_⟩
    · rw [append_nil]
      exact hflow.sendFailed htakes.2 (hleads htakes)
    · exact flow_sealBack none .disconnect hflow (fun p hp => by cases hp)
        (fun _ _ _ h => by cases h)

lemma keeps_resend (h : e.sendCtr + 1 < 2 ^ 64) (now : Time) (ok : Bool) {i : ℕ}
    {entry : ReliableEntry} (hi : e.sendBuf i = some entry) :
    let result := e.sealSend now ok (.reliable entry.seq entry.payload entry.number)
    Keeps e { result.1 with
      sendBuf := update result.1.sendBuf i (some { entry with lastSentAt := now }) }
      result.2.2 ∧ result.1.sendCtr = e.sendCtr + 1 := by
  obtain ⟨t, packet, hpackets, hnew, heq⟩ :=
    sealSend_spec h now ok (.reliable entry.seq entry.payload entry.number)
  dsimp only
  rw [hpackets, heq]
  refine ⟨⟨fun hflow => hflow.resend hi hnew, fun hflow => ?_⟩, rfl⟩
  exact flow_sealBack packet _ hflow hnew (fun _ _ _ h => by cases h)

lemma keeps_retransmit (now : Time) (ok : ℕ → Bool) (slots : List ℕ)
    (h : e.sendCtr + slots.length < 2 ^ 64) :
    Keeps e (retransmit now ok slots e).1 (retransmit now ok slots e).2.2 ∧
      (retransmit now ok slots e).1.sendCtr ≤ e.sendCtr + slots.length := by
  induction slots generalizing e with
  | nil => exact ⟨Keeps.refl, le_refl _⟩
  | cons i slots ih =>
    rw [length_cons] at h ⊢
    -- a slot that is passed over
    have hskip : Keeps e (retransmit now ok slots e).1 (retransmit now ok slots e).2.2 ∧
        (retransmit now ok slots e).1.sendCtr ≤ e.sendCtr + (slots.length + 1) := by
      obtain ⟨hkeeps, hctr⟩ := ih (e := e) (by omega)
      exact ⟨hkeeps, by omega⟩
    unfold retransmit
    split
    · exact hskip
    rename_i entry hi
    split
    · exact ⟨Keeps.refl, Nat.le_add_right _ _⟩
    split
    · dsimp only
      split
      · rename_i hfailed
        rcases sealSend_cases (e := e) (by omega) now (ok i)
          (.reliable entry.seq entry.payload entry.number) with ⟨t, -, heq⟩ | ⟨d, -, -, heq⟩
        · rw [heq] at hfailed
          exact absurd rfl hfailed.2
        · rw [heq]
          exact ⟨keeps_lost, by dsimp only; omega⟩
      obtain ⟨hresend, hctr⟩ := keeps_resend (by omega) now (ok i) hi
      obtain ⟨hrest, hbound⟩ := ih (e := { (e.sealSend now (ok i)
        (.reliable entry.seq entry.payload entry.number)).1 with sendBuf := _ })
        (by dsimp only; omega)
      refine ⟨hresend.trans hrest, ?_⟩
      dsimp only at hbound ⊢
      omega
    · exact hskip

lemma keeps_maintain (h : e.sendCtr ≤ maxCounter) (now : Time) (ok : ℕ → Bool) :
    Keeps e (e.maintain now ok).1 (e.maintain now ok).2 := by
  unfold maxCounter at h
  unfold maintain
  split
  · exact keeps_close (by omega)
  have hlength : (range reliableBufSize).length = 256 := by
    rw [length_range]
    rfl
  obtain ⟨hkeeps, hctr⟩ := keeps_retransmit now ok (range reliableBufSize) (e := e)
    (by omega)
  dsimp only
  split
  · exact hkeeps
  · exact hkeeps.trans (keeps_close (by omega))

lemma keeps_lostACK (dirty : Bool) (hdirty : e.ackDirty = true) :
    Keeps e { e with ackDirty := dirty, sendCtr := e.sendCtr + 1 } [] := by
  refine ⟨fun hflow => keeps_lost.left hflow, fun hflow => ?_⟩
  exact (keeps_lost.right hflow).setDirty fun _ => hflow.received.dirty hdirty

lemma keeps_sendACK (h : e.sendCtr + 2 < 2 ^ 64) (now : Time) (ok : Bool) :
    Keeps e (e.sendACK now ok).1 (e.sendACK now ok).2 := by
  unfold sendACK
  split
  · rename_i hdirty
    let taken : Endpoint := { e with ackDirty := false }
    have hctr : taken.sendCtr + 1 < 2 ^ 64 := Nat.lt_of_succ_lt h
    rcases sealSend_cases hctr now ok (.ack e.recvSeq e.recvBits e.recvNumber) with
      ⟨t, -, heq⟩ | ⟨d, hd, -, heq⟩
    · rw [heq]
      refine ⟨fun hflow => ?_, fun hflow => hflow.sendAck (hflow.received.dirty hdirty)⟩
      let packet : Option Packet := some ⟨e.sendCtr + 1, .ack e.recvSeq e.recvBits e.recvNumber⟩
      have hsealed : Flow { e.sendView with sendCtr := e.sendCtr + 1 } _ (_ ++ packet.toList) _ :=
        hflow.seal (fun p hp => by rw [← some.inj hp]; rfl) fun hp => by
          cases some.inj hp
      exact hsealed
    · rw [heq]
      cases d with
      | queued => exact absurd rfl hd
      | closed => exact keeps_lostACK false hdirty
      | backpressure => exact (keeps_lostACK true hdirty).trans (keeps_writeFailed h)
      | failed => exact (keeps_lostACK true hdirty).trans (keeps_writeFailed h)
  · exact Keeps.refl

lemma highest_commit_lt {w : ReplayWindow} {c : ℕ} (h : w.check c = true) :
    (w.commit c).highest < c + replayWindowSize ∧ c ≤ (w.commit c).highest := by
  have hlt := ReplayWindow.lt_of_check h
  rw [ReplayWindow.highest_commit]
  unfold replayWindowSize at hlt ⊢
  omega

lemma recvView_markAcked (seq : BitVec 16) : (e.markAcked seq).recvView = e.recvView := by
  unfold markAcked
  dsimp only
  split
  · rfl
  · split <;> rfl

lemma recvView_handleACK (seq : BitVec 16) (bits : BitVec 32) :
    (e.handleACK seq bits).recvView = e.recvView := by
  unfold handleACK
  generalize ackedSeqs seq bits = seqs
  induction seqs generalizing e with
  | nil => rfl
  | cons seq' seqs ih => rw [foldl_cons, ih, recvView_markAcked]

def Opens (e : Endpoint) (packet : Packet) : Prop :=
  e.closed = false ∧ packet.counter ≠ 0 ∧ e.win.check packet.counter = true

instance (e : Endpoint) (packet : Packet) : Decidable (e.Opens packet) :=
  inferInstanceAs (Decidable (_ ∧ _ ∧ _))

def opened (e : Endpoint) (now : Time) (packet : Packet) : Endpoint :=
  { e with win := e.win.commit packet.counter, lastRecv := max e.lastRecv now }

lemma recordPacket_of_opens {packet : Packet} (h : e.Opens packet) (now : Time) :
    e.recordPacket now packet = match packet.body with
      | .unreliable _ => (e.opened now packet, [])
      | .reliable seq payload number =>
        ((e.opened now packet).handleReliable seq payload number, [])
      | .ack ackSeq ackBits _ => ((e.opened now packet).handleACK ackSeq ackBits, [])
      | .disconnect =>
        match e.kind with
        | .server => { e with win := e.win.commit packet.counter }.close
        | .goClient | .csharpClient => (e, []) := by
  obtain ⟨hclosed, hzero, hcheck⟩ := h
  unfold recordPacket
  rw [if_neg (by simp [hclosed, hzero, hcheck])]
  rfl

lemma recordPacket_of_not_opens {packet : Packet} (h : ¬ e.Opens packet) (now : Time) :
    e.recordPacket now packet = (e, []) := by
  unfold recordPacket
  rw [if_pos]
  by_cases hclosed : e.closed = true
  · exact .inl hclosed
  by_cases hzero : packet.counter = 0
  · exact .inr (.inl hzero)
  · refine .inr (.inr (Bool.eq_false_iff.mpr fun hcheck => h ⟨?_, hzero, hcheck⟩))
    exact Bool.eq_false_iff.mpr hclosed

lemma sendView_commit (c : ℕ) : { e with win := e.win.commit c }.sendView =
    { e.sendView with highest := max e.sendView.highest c } := by
  unfold sendView
  rw [ReplayWindow.highest_commit]

lemma recvView_commit (c : ℕ) : { e with win := e.win.commit c }.recvView =
    { e.recvView with highest := max e.recvView.highest c } := by
  unfold recvView
  rw [ReplayWindow.highest_commit]

lemma flow_recordPacket_left {r : RecvView} {out back : List Packet} {packet : Packet}
    (hflow : Flow e.sendView r out back) (hp : packet ∈ back) (hctr : e.sendCtr + 1 < 2 ^ 64)
    (now : Time) : Flow (e.recordPacket now packet).1.sendView r
      (out ++ (e.recordPacket now packet).2) back := by
  by_cases hopens : e.Opens packet
  · have hcommit : Flow { e with win := e.win.commit packet.counter }.sendView r out back := by
      rw [sendView_commit]
      exact hflow.open packet.counter
    obtain ⟨hlt, hle⟩ := highest_commit_lt hopens.2.2
    rw [recordPacket_of_opens hopens]
    obtain ⟨c, body⟩ := packet
    cases body with
    | unreliable payload =>
      rw [append_nil]
      exact hcommit
    | reliable seq payload number =>
      rw [append_nil]
      rw [(sendView_handleReliable _ _ _ _).1]
      exact hcommit
    | ack seq bits top =>
      rw [append_nil]
      exact Flow.acknowledge (e := e.opened now ⟨c, .ack seq bits top⟩) hcommit hp hle hlt
    | disconnect =>
      dsimp only
      split
      · exact (keeps_close (e := { e with win := e.win.commit c }) hctr).left hcommit
      · rwa [append_nil]
      · rwa [append_nil]
  · rw [recordPacket_of_not_opens hopens, append_nil]
    exact hflow

lemma flow_recordPacket_right {s : SendView} {out back : List Packet} {packet : Packet}
    (hflow : Flow s e.recvView out back) (hp : packet ∈ out) (hctr : e.sendCtr + 1 < 2 ^ 64)
    (now : Time) : Flow s (e.recordPacket now packet).1.recvView out
      (back ++ (e.recordPacket now packet).2) := by
  by_cases hopens : e.Opens packet
  · have hcommit : Flow s { e with win := e.win.commit packet.counter }.recvView out back := by
      rw [recvView_commit]
      exact hflow.openBack packet.counter
    obtain ⟨hlt, hle⟩ := highest_commit_lt hopens.2.2
    rw [recordPacket_of_opens hopens]
    obtain ⟨c, body⟩ := packet
    cases body with
    | unreliable payload =>
      rw [append_nil]
      exact hcommit
    | reliable seq payload number =>
      rw [append_nil]
      exact (Flow.receive
        (e := e.opened now ⟨c, .reliable seq payload number⟩) hcommit hp hle hlt).1
    | ack seq bits top =>
      rw [append_nil]
      rw [recvView_handleACK]
      exact hcommit
    | disconnect =>
      dsimp only
      split
      · exact (keeps_close (e := { e with win := e.win.commit c }) hctr).right hcommit
      · rwa [append_nil]
      · rwa [append_nil]
  · rw [recordPacket_of_not_opens hopens, append_nil]
    exact hflow

/-! ### What is in hand -/

/-- What the reader has in hand, and what was acknowledged. -/
def hand (e : Endpoint) : List (ℕ × Payload) × List ℕ := (e.inHand, e.announced)

@[simp] lemma hand_sealSend (now : Time) (ok : Bool) (body : Body) :
    (e.sealSend now ok body).1.hand = e.hand := by
  unfold sealSend sealWithHeader
  split <;> rename_i heq <;> obtain ⟨rfl, -⟩ := Prod.mk.inj heq
  · rfl
  · split
    · rfl
    · split <;> rfl

@[simp] lemma hand_close : e.close.1.hand = e.hand := by
  unfold close
  split <;> rfl

@[simp] lemma hand_writeFailed : e.writeFailed.1.hand = e.hand := by
  unfold writeFailed
  split <;> simp

lemma hand_sendReliable (now : Time) (ok : Bool) (data : Payload) :
    (e.sendReliable now ok data).1.hand = e.hand := by
  unfold sendReliable
  split
  · rfl
  dsimp only
  split
  · rfl
  split
  · exact hand_sealSend (e := { e with sendSeq := _, sent := _, sendBuf := _ }) ..
  · exact hand_sealSend (e := { e with sendSeq := _, sent := _, sendBuf := _ }) ..

lemma hand_sendUnreliable (now : Time) (ok : Bool) (data : Payload) :
    (e.sendUnreliable now ok data).1.hand = e.hand := by
  unfold sendUnreliable
  split
  · rfl
  · exact hand_sealSend ..

lemma hand_retransmit (now : Time) (ok : ℕ → Bool) (slots : List ℕ) :
    (retransmit now ok slots e).1.hand = e.hand := by
  induction slots generalizing e with
  | nil => rfl
  | cons i slots ih =>
    unfold retransmit
    split
    · exact ih
    split
    · rfl
    split
    · dsimp only
      split
      · exact hand_sealSend ..
      · rw [ih]
        exact hand_sealSend ..
    · exact ih

lemma hand_maintain (now : Time) (ok : ℕ → Bool) : (e.maintain now ok).1.hand = e.hand := by
  unfold maintain
  split
  · exact hand_close
  dsimp only
  split
  · exact hand_retransmit ..
  · rw [hand_close, hand_retransmit]

lemma hand_keepalive (now : Time) (ok : Bool) : (e.keepalive now ok).1.hand = e.hand := by
  unfold keepalive
  split
  · dsimp only
    split <;> simp
  · rfl

lemma inHand_sendACK (now : Time) (ok : Bool) : (e.sendACK now ok).1.inHand = e.inHand := by
  unfold sendACK
  split
  · have hseal := congrArg Prod.fst (hand_sealSend (e := { e with ackDirty := false }) now ok
      (.ack e.recvSeq e.recvBits e.recvNumber))
    dsimp only
    split
    · exact hseal
    · exact hseal
    all_goals exact (congrArg Prod.fst hand_writeFailed).trans hseal
  · rfl

lemma hand_handleACK (seq : BitVec 16) (bits : BitVec 32) :
    (e.handleACK seq bits).hand = e.hand := by
  unfold handleACK
  generalize ackedSeqs seq bits = seqs
  induction seqs generalizing e with
  | nil => rfl
  | cons seq' seqs ih =>
    rw [foldl_cons, ih]
    unfold markAcked
    dsimp only
    split
    · rfl
    · split <;> rfl

/-- A packet leaves what is in hand alone, or it is a message that was not delivered before. -/
lemma hand_recordPacket {s : SendView} {out back : List Packet} {packet : Packet}
    (hflow : Flow s e.recvView out back) (hp : packet ∈ out) (now : Time) :
    (e.recordPacket now packet).1.hand = e.hand ∨ ∃ n data, n ∉ e.delivered ∧
      (e.recordPacket now packet).1.inHand = (n, data) :: e.inHand ∧
      (e.recordPacket now packet).1.announced = e.announced := by
  by_cases hopens : e.Opens packet
  swap
  · rw [recordPacket_of_not_opens hopens]
    exact .inl rfl
  rw [recordPacket_of_opens hopens]
  have hcommit : Flow s { e with win := e.win.commit packet.counter }.recvView out back := by
    rw [recvView_commit]
    exact hflow.openBack packet.counter
  obtain ⟨hlt, hle⟩ := highest_commit_lt hopens.2.2
  obtain ⟨c, body⟩ := packet
  cases body with
  | unreliable payload => exact .inl rfl
  | reliable seq data n =>
    have hreceive :=
      (Flow.receive (e := e.opened now ⟨c, .reliable seq data n⟩) hcommit hp hle hlt).2
    split at hreceive
    · rename_i hnew
      by_cases hdata : data = []
      · refine .inl (Prod.ext ?_ hreceive.announced)
        exact hreceive.inHand.trans (if_pos hdata)
      · exact .inr ⟨n, data, hnew.1, hreceive.inHand.trans (if_neg hdata), hreceive.announced⟩
    · exact .inl (Prod.ext hreceive.inHand hreceive.announced)
  | ack seq bits top => exact .inl (hand_handleACK seq bits)
  | disconnect =>
    dsimp only
    split
    · exact .inl hand_close
    · exact .inl rfl
    · exact .inl rfl

end Endpoint

namespace Link

variable {s s₀ t : Link} {p : Side} {a : Side × Act}

lemma peer_peer (p : Side) : p.peer.peer = p := by cases p <;> rfl

def Sound (s : Link) : Prop :=
  ∀ p : Side, Flow (s.ends p).sendView (s.ends p.peer).recvView (s.net p) (s.net p.peer)

/-- The end seals no more packets than it has counters, and it takes a sequence number only if the
last message that was acknowledged is less than `maxLead` behind. -/
def Paced (s : Link) (a : Side × Act) : Prop :=
  (s.ends a.1).sendCtr ≤ maxCounter ∧
    match a.2 with
    | .sendReliable _ _ _ => (s.ends a.1).TakesNumber → (s.ends a.1).sendView.Leads
    | _ => True

lemma Side.peer_ne (p : Side) : p.peer ≠ p := by cases p <;> decide

lemma act_receive {now : Time} {i : ℕ} {r : Endpoint × List Packet}
    (h : s.act p (.receive now i) = some r) : (s.ends p).inHand = [] ∧
      ((s.net p.peer)[i]?).map ((s.ends p).recordPacket now) = some r := by
  change (if (s.ends p).inHand = [] then ((s.net p.peer)[i]?).map ((s.ends p).recordPacket now)
    else none) = some r at h
  split at h
  · exact ⟨‹_›, h⟩
  · cases h

lemma Sound.act (hs : s.Sound) {act : Act} (hK : s.Paced (p, act)) {e' : Endpoint}
    {new : List Packet} (h : s.act p act = some (e', new)) :
    Flow e'.sendView (s.ends p.peer).recvView (s.net p ++ new) (s.net p.peer) ∧
      Flow (s.ends p.peer).sendView e'.recvView (s.net p.peer) (s.net p ++ new) := by
  obtain ⟨hmax, hlead⟩ := hK
  have hctr' : (s.ends p).sendCtr + 2 < 2 ^ 64 := by
    dsimp only [maxCounter] at hmax
    omega
  have hctr := Nat.lt_of_succ_lt hctr'
  have hout := hs p
  have hin := hs p.peer
  rw [peer_peer] at hin
  have hkeeps : (s.ends p).Keeps e' new → Flow e'.sendView (s.ends p.peer).recvView
      (s.net p ++ new) (s.net p.peer) ∧ Flow (s.ends p.peer).sendView e'.recvView (s.net p.peer)
        (s.net p ++ new) := fun hk => ⟨hk.left hout, hk.right hin⟩
  cases act with
  | sendReliable now ok data =>
    cases h
    exact hkeeps (keeps_sendReliable hctr hlead now ok data)
  | sendUnreliable now ok data =>
    cases h
    exact hkeeps (keeps_sendUnreliable hctr ok data)
  | maintain now ok =>
    change (if (s.ends p).closed then none else some ((s.ends p).maintain now ok)) =
      some (e', new) at h
    split at h
    · cases h
    have heq := some.inj h
    have hk : (s.ends p).Keeps ((s.ends p).maintain now ok).1 ((s.ends p).maintain now ok).2 :=
      keeps_maintain hmax now ok
    rw [heq] at hk
    exact hkeeps hk
  | sendACK now ok =>
    change (if (s.ends p).mute then none else some ((s.ends p).sendACK now ok)) =
      some (e', new) at h
    split at h
    · cases h
    have hk := keeps_sendACK hctr' now ok
    rw [some.inj h] at hk
    exact hkeeps hk
  | keepalive now ok =>
    change (if (s.ends p).mute then none else some ((s.ends p).keepalive now ok)) =
      some (e', new) at h
    split at h
    · cases h
    have hk := keeps_keepalive hctr' now ok
    rw [some.inj h] at hk
    exact hkeeps hk
  | route =>
    cases h
    exact hkeeps keeps_route
  | receive now i =>
    obtain ⟨packet, hpacket, heq⟩ := map_eq_some_iff.mp (act_receive h).2
    have hmem := mem_of_getElem? hpacket
    have hleft := flow_recordPacket_left hout hmem hctr now
    have hright := flow_recordPacket_right hin hmem hctr now
    rw [heq] at hleft hright
    exact ⟨hleft, hright⟩
  | close =>
    have heq := some.inj h
    have hk := keeps_close hctr
    rw [heq] at hk
    exact hkeeps hk

lemma Sound.step (hs : s.Sound) (hK : s.Paced a) (h : Steps step s a t) : t.Sound := by
  obtain ⟨p, act⟩ := a
  obtain ⟨⟨e', new⟩, hact, rfl⟩ := map_eq_some_iff.mp h
  obtain ⟨hleft, hright⟩ := hs.act hK hact
  intro q
  by_cases hq : q = p
  · subst hq
    have hne := Side.peer_ne q
    simp only [update_self, update_of_ne hne]
    exact hleft
  · have hpeer : q = p.peer := by
      cases q <;> cases p <;> first | rfl | exact absurd rfl hq
    subst hpeer
    rw [peer_peer]
    simp only [update_self, update_of_ne hq]
    exact hright

/-- Two new ends. -/
structure Begins (s : Link) : Prop where
  ends : ∀ p, ∃ kind t t', s.ends p = { kind := kind, lastRecv := t, lastSend := t' }
  net : ∀ p, s.net p = []

lemma Begins.sound (h : s.Begins) : s.Sound := by
  intro p
  obtain ⟨kind, t, t', hp⟩ := h.ends p
  obtain ⟨kind', u, u', hq⟩ := h.ends p.peer
  rw [h.net, h.net, hp, hq]
  constructor
  · exact ⟨rfl, (fun _ _ hi => by cases hi), (fun _ hp => by cases hp), (fun hp => by cases hp),
      (fun hp => by cases hp), (fun hp => by cases hp)⟩
  · exact ⟨fun _ => rfl, (fun hinit => by cases hinit), (fun hdirty => by cases hdirty),
      nodup_nil, (fun _ hn => by cases hn), nodup_nil, (fun _ hm => by cases hm)⟩
  · exact ⟨(fun _ hp => by cases hp), nil_subset _, (fun hp => by cases hp),
      (fun hp => by cases hp)⟩
  · exact ⟨(fun _ hm => by cases hm), .inl (Nat.zero_le _), (fun _ hm => by cases hm)⟩

lemma link_sound_of_run (h₀ : s₀.Begins) (h : Run (Steps step) Paced s₀ s) : s.Sound :=
  Run.invariant (I := Sound) h₀.sound (fun hs hK hstep => hs.step hK hstep) h

/-- What is freed was taken by the peer: it was handed on, or it is in hand. -/
lemma taken_of_freed (hs : s.Sound) {m : ℕ × Payload} (hm : m ∈ (s.ends p).freed) :
    m.1 ∈ (s.ends p.peer).announced ∧
      (m.2 = [] ∨ m ∈ (s.ends p.peer).inHand ++ (s.ends p.peer).routed) := by
  have hflow := hs p
  obtain ⟨hannounced, c, seq, hpacket⟩ := hflow.acked.freed m hm
  obtain ⟨c', seq', data, hpacket', -, htaken⟩ :=
    hflow.received.opened m.1 (hflow.acks.announced hannounced)
  -- every copy of the message says the same
  obtain rfl : m.2 = data := hflow.sent.payload hpacket hpacket'
  exact ⟨hannounced, htaken⟩

/-- An acknowledgement is sent with nothing in hand. -/
def HandsOnFirst (s : Link) (a : Side × Act) : Prop :=
  match a.2 with
  | .sendACK _ _ => (s.ends a.1).inHand = []
  | _ => True

/-- What is in hand was not acknowledged. -/
def Settled (s : Link) : Prop := ∀ p, ∀ m ∈ (s.ends p).inHand, m.1 ∉ (s.ends p).announced

lemma Settled.act (hs : s.Settled) (hsound : s.Sound) {act : Act} (hK : s.HandsOnFirst (p, act))
    {e' : Endpoint} {new : List Packet} (h : s.act p act = some (e', new)) :
    ∀ m ∈ e'.inHand, m.1 ∉ e'.announced := by
  have hkeep : e'.hand = (s.ends p).hand → ∀ m ∈ e'.inHand, m.1 ∉ e'.announced := by
    intro heq
    obtain ⟨hin, hann⟩ := Prod.mk.inj heq
    rw [hin, hann]
    exact hs p
  cases act with
  | sendReliable now ok data =>
    cases h
    exact hkeep (hand_sendReliable now ok data)
  | sendUnreliable now ok data =>
    cases h
    exact hkeep (hand_sendUnreliable now ok data)
  | maintain now ok =>
    change (if (s.ends p).closed then none else some ((s.ends p).maintain now ok)) =
      some (e', new) at h
    split at h
    · cases h
    have heq := hand_maintain (e := s.ends p) now ok
    rw [some.inj h] at heq
    exact hkeep heq
  | sendACK now ok =>
    change (if (s.ends p).mute then none else some ((s.ends p).sendACK now ok)) =
      some (e', new) at h
    split at h
    · cases h
    have heq := inHand_sendACK (e := s.ends p) now ok
    rw [some.inj h, show (s.ends p).inHand = [] from hK] at heq
    rw [heq]
    exact fun m hm => absurd hm not_mem_nil
  | keepalive now ok =>
    change (if (s.ends p).mute then none else some ((s.ends p).keepalive now ok)) =
      some (e', new) at h
    split at h
    · cases h
    have heq := hand_keepalive (e := s.ends p) now ok
    rw [some.inj h] at heq
    exact hkeep heq
  | route =>
    cases h
    exact fun m hm => absurd hm not_mem_nil
  | receive now i =>
    obtain ⟨hempty, h⟩ := act_receive h
    obtain ⟨packet, hpacket, heq⟩ := map_eq_some_iff.mp h
    have hin := hsound p.peer
    rw [peer_peer] at hin
    rcases hand_recordPacket hin (mem_of_getElem? hpacket) now
      with hsame | ⟨n, data, hnew, hin', hann⟩
    · rw [heq] at hsame
      exact hkeep hsame
    · -- a message that is taken was not delivered before
      rw [heq] at hin' hann
      rw [hin', hann, hempty]
      intro m hm hmem
      rw [mem_singleton.mp hm] at hmem
      exact hnew (hin.acks.announced hmem)
  | close =>
    have heq := hand_close (e := s.ends p)
    rw [some.inj h] at heq
    exact hkeep heq

lemma Settled.step (hs : s.Settled) (hsound : s.Sound) (hK : s.HandsOnFirst a)
    (h : Steps step s a t) : t.Settled := by
  obtain ⟨p, act⟩ := a
  obtain ⟨⟨e', new⟩, hact, rfl⟩ := map_eq_some_iff.mp h
  intro q
  by_cases hq : q = p
  · subst hq
    simp only [update_self]
    exact hs.act hsound hK hact
  · simp only [update_of_ne hq]
    exact hs q

/-- **At most once, and acknowledged only if delivered.** In every run that is paced and in which no
acknowledgement is sent with a message in hand, no message is handed on twice, and a slot is freed
on an acknowledgement only if its message was handed on, or is empty. -/
theorem delivered_of_run (h₀ : s₀.Begins)
    (h : Run (Steps step) (fun s a => s.Paced a ∧ s.HandsOnFirst a) s₀ s) (p : Side) :
    ((s.ends p.peer).routed.map Prod.fst).Nodup ∧
      ∀ m ∈ (s.ends p).freed, m.2 = [] ∨ m ∈ (s.ends p.peer).routed := by
  have hbegin : s₀.Settled := fun p m hm => by
    obtain ⟨_, _, _, hp⟩ := h₀.ends p
    rw [hp] at hm
    cases hm
  obtain ⟨hsound, hsettled⟩ : s.Sound ∧ s.Settled := h.invariant (I := fun s => s.Sound ∧ s.Settled)
    ⟨h₀.sound, hbegin⟩ fun hs hK hstep => ⟨hs.1.step hK.1 hstep, hs.2.step hs.1 hK.2 hstep⟩
  refine ⟨?_, fun m hm => ?_⟩
  · have htaken : (((s.ends p.peer).inHand ++ (s.ends p.peer).routed).map Prod.fst).Nodup :=
      (hsound p).received.taken_nodup
    rw [map_append] at htaken
    exact (nodup_append.mp htaken).2.1
  · obtain ⟨hannounced, htaken⟩ := taken_of_freed hsound hm
    refine htaken.imp_right fun hmem => (mem_append.mp hmem).resolve_left fun hin => ?_
    exact hsettled p.peer m hin hannounced

def session : Link where
  ends p := { kind := if p = .a then .server else .csharpClient, lastRecv := 0, lastSend := 0 }
  net _ := []

lemma begins_session : session.Begins := ⟨fun _ => ⟨_, _, _, rfl⟩, fun _ => rfl⟩

theorem delivered_of_run_message :
    ∃ s, Run (Steps step) (fun s a => s.Paced a ∧ s.HandsOnFirst a) session s ∧
      (0, [7]) ∈ (s.ends .a).freed ∧ (0, [7]) ∈ (s.ends .b).routed := by
  have hrun : Run (Steps step) (fun s a => s.Paced a ∧ s.HandsOnFirst a) session session := .refl
  have hsent := hrun.get (a := (.a, .sendReliable 0 true [7]))
    ⟨⟨by decide, fun _ => .inl (by decide)⟩, trivial⟩ rfl
  have harrived := hsent.get (a := (.b, .receive 0 0)) ⟨⟨by decide, trivial⟩, trivial⟩ rfl
  have hrouted := harrived.get (a := (.b, .route)) ⟨⟨by decide +kernel, trivial⟩, trivial⟩ rfl
  have hacked := hrouted.get (a := (.b, .sendACK 0 true)) ⟨⟨by decide +kernel, trivial⟩, rfl⟩ rfl
  have hfreed := hacked.get (a := (.a, .receive 0 0)) ⟨⟨by decide +kernel, trivial⟩, trivial⟩ rfl
  refine ⟨_, hfreed, ?_, ?_⟩
  · decide +kernel
  · refine ((delivered_of_run begins_session hfreed .a).2 (0, [7]) ?_).resolve_left (by decide)
    decide +kernel

/-- **Freed before it is handed on.** The acknowledgement may be sent, and arrive, between the lock
and `routePayload`. -/
theorem freed_in_hand : ∃ s, Run (Steps step) Always session s ∧
    (0, [7]) ∈ (s.ends .a).freed ∧ (s.ends .b).routed = [] :=
  exists_run step Always _
    [(.a, .sendReliable 0 true [7]), (.b, .receive 0 0), (.b, .sendACK 0 true),
    (.a, .receive 0 0)] (by decide +kernel)

def failing (s : Link) (k : ℕ) : Link :=
  { s with ends := update s.ends .a ((s.ends .a).failing k) }

lemma failing_step (s : Link) (k : ℕ) (htakes : ∀ k, ((s.ends .a).failing k).TakesNumber)
    (hctr : (s.ends .a).sendCtr + k + 1 < 2 ^ 64) (data : Payload) :
    Steps step (s.failing k) (.a, .sendReliable 0 false data) (s.failing (k + 1)) := by
  have hnow : (s.failing k).ends .a = (s.ends .a).failing k := by
    change update s.ends .a ((s.ends .a).failing k) .a = (s.ends .a).failing k
    rw [update_self]
  rcases sendReliable_cases (e := (s.ends .a).failing k) hctr 0 false data with
    ⟨d, hrefused, -⟩ | ⟨t, -, hok, -⟩ | ⟨d, -, -, heq⟩
  · exact absurd (htakes k) hrefused
  · cases hok
  rw [failing_succ] at heq
  change some _ = some _
  rw [hnow, heq]
  dsimp only
  rw [append_nil, update_eq_self]
  unfold failing
  rw [update_idem]

lemma run_failing (s : Link) (k : ℕ) (htakes : ∀ k, ((s.ends .a).failing k).TakesNumber)
    (hctr : (s.ends .a).sendCtr + k < 2 ^ 64) (data : Payload) :
    Run (Steps step) Always s (s.failing k) := by
  induction k with
  | zero =>
    have hsame : s.failing 0 = s := by
      unfold failing
      rw [failing_zero, update_eq_self]
    rw [hsame]
    exact .refl
  | succ k ih => exact (ih (by omega)).tail trivial (failing_step s k htakes hctr data)

def afterFirst : Link :=
  (execute step Always session [(.a, .sendReliable 0 true [7]), (.b, .receive 0 0),
    (.b, .route), (.b, .sendACK 0 true), (.a, .receive 0 0)]).getD session

lemma run_afterFirst : Run (Steps step) Always session afterFirst := by
  have hsome : (execute step Always session [(.a, .sendReliable 0 true [7]), (.b, .receive 0 0),
      (.b, .route), (.b, .sendACK 0 true), (.a, .receive 0 0)]).isSome = true := by decide +kernel
  obtain ⟨s, hs⟩ := isSome_iff_exists.mp hsome
  have hfirst : afterFirst = s := by
    unfold afterFirst
    rw [hs]
    rfl
  rw [hfirst]
  exact run_of_execute _ hs

lemma takesNumber_afterFirst (k : ℕ) : ((afterFirst.ends .a).failing k).TakesNumber := by
  have hopen : (afterFirst.ends .a).closed = false := by decide +kernel
  refine ⟨hopen, ?_⟩
  generalize ((afterFirst.ends .a).failing k).sendSeq.toNat % reliableBufSize = i
  change update (update (fun _ => none) 0
    (some (⟨0, [7], 0, 0, 0⟩ : ReliableEntry))) 0 none i = none
  rw [update_idem, update_eq_self]

/-- **Failed writes lose a message.** After 65535 failed writes the next message has the sequence
number of the first one, which was delivered: the receiver takes it for a copy, and its
acknowledgement frees the slot. -/
theorem failed_writes_lose : ∃ s, Run (Steps step) Always session s ∧
    (65536, [8]) ∈ (s.ends .a).freed ∧ 65536 ∉ (s.ends .b).routed.map Prod.fst := by
  have hfailed := run_failing afterFirst 65535 takesNumber_afterFirst (by decide +kernel) [7]
  obtain ⟨s, hrun, hs⟩ := exists_run (s := afterFirst.failing 65535) step Always
    (fun s => (65536, [8]) ∈ (s.ends .a).freed ∧ 65536 ∉ (s.ends .b).routed.map Prod.fst)
    [(.a, .sendReliable 0 true [8]), (.b, .receive 0 1), (.b, .route), (.b, .sendACK 0 true),
      (.a, .receive 0 1)]
    (by decide +kernel)
  exact ⟨s, (run_afterFirst.trans hfailed).trans hrun, hs⟩

end Link

end Mmokit.UDP
