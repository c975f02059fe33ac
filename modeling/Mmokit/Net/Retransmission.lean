/-
Retransmissions of the reliable channel over UDP.

The sender holds up to 256 messages, but the receiver can tell a message from those that it has
delivered only if it lies at most 32 below the highest of them. A message that is overtaken by more
is never delivered, whatever the sender does, until it times out and ends the session.
-/
import Mmokit.Net.ReliableDelivery

namespace Mmokit.UDP

def Endpoint.Delivers (e : Endpoint) (n : ℕ) (data : Payload) : Prop :=
  n ∈ e.delivered ∧ (data = [] ∨ (n, data) ∈ e.routed)

lemma Endpoint.Takes.delivers {e e' : Endpoint} {n : ℕ} {data : Payload} (h : e.Takes e' n data) :
    e'.route.Delivers n data := by
  refine ⟨?_, ?_⟩
  · change n ∈ e'.delivered
    rw [h.delivered]
    exact List.mem_cons_self
  by_cases hdata : data = []
  · exact .inl hdata
  · change _ ∨ _ ∈ e'.inHand ++ e'.routed
    rw [h.inHand, if_neg hdata]
    exact .inr List.mem_cons_self

namespace Link

variable {s s₀ : Link} {p : Side} {c n : ℕ} {seq : BitVec 16} {data : Payload}

lemma takes_or_skips (h₀ : s₀.Begins) (h : Run (Steps step) Paced s₀ s)
    (hp : ⟨c, .reliable seq data n⟩ ∈ s.net p) (hnew : n ∉ (s.ends p.peer).delivered)
    (hopens : (s.ends p.peer).Opens ⟨c, .reliable seq data n⟩) (now : Time) :
    let e' := ((s.ends p.peer).recordPacket now ⟨c, .reliable seq data n⟩).1
    if ∀ m ∈ (s.ends p.peer).delivered, m ≤ n + 32 then (s.ends p.peer).Takes e' n data
    else (s.ends p.peer).Skips e' := by
  let opened := (s.ends p.peer).opened now ⟨c, .reliable seq data n⟩
  have hcommit : Flow (s.ends p).sendView opened.recvView (s.net p) (s.net p.peer) := by
    have hflow := (link_sound_of_run h₀ h p).openBack c
    rwa [← Endpoint.recvView_commit] at hflow
  obtain ⟨hlt, hle⟩ := Endpoint.highest_commit_lt hopens.2.2
  have hreceive := (Flow.receive (e := opened) hcommit hp hle hlt).2
  dsimp only
  rw [Endpoint.recordPacket_of_opens hopens]
  split
  · rename_i hreach
    rw [if_pos ⟨hnew, hreach⟩] at hreceive
    exact ⟨hreceive.delivered, hreceive.inHand, hreceive.routed, hreceive.announced⟩
  · rename_i hreach
    rw [if_neg fun hboth => hreach hboth.2] at hreceive
    exact ⟨hreceive.delivered, hreceive.inHand, hreceive.routed, hreceive.announced⟩

/-- **When a retransmission is effective.** In every run that is paced, a copy of a message that was
not delivered before is delivered when it is opened exactly if no message more than 32 later was
delivered. -/
theorem delivers_iff (h₀ : s₀.Begins) (h : Run (Steps step) Paced s₀ s)
    (hp : ⟨c, .reliable seq data n⟩ ∈ s.net p) (hnew : n ∉ (s.ends p.peer).delivered)
    (hopens : (s.ends p.peer).Opens ⟨c, .reliable seq data n⟩) (now : Time) :
    ((s.ends p.peer).handlePacket now ⟨c, .reliable seq data n⟩).1.Delivers n data ↔
      ∀ m ∈ (s.ends p.peer).delivered, m ≤ n + 32 := by
  have hcases := takes_or_skips h₀ h hp hnew hopens now
  split at hcases
  · rename_i hreach
    exact iff_of_true hcases.delivers hreach
  rename_i hreach
  refine iff_of_false (fun hdelivers => hnew ?_) hreach
  rw [← hcases.delivered]
  exact hdelivers.1

theorem delivers_iff_overtaken : ∃ s, Run (Steps step) Paced session s ∧
    1 ∈ (s.ends .b).delivered ∧
      ((s.ends .b).handlePacket 0 ⟨1, .reliable 0 [7] 0⟩).1.Delivers 0 [7] := by
  have hrun : Run (Steps step) Paced session session := .refl
  have hfirst := hrun.get (a := (.a, .sendReliable 0 true [7]))
    ⟨by decide, fun _ => .inl (by decide)⟩ rfl
  have hsecond := hfirst.get (a := (.a, .sendReliable 0 true [8]))
    ⟨by decide +kernel, fun _ => .inl (by decide +kernel)⟩ rfl
  have harrived := hsecond.get (a := (.b, .receive 0 1)) ⟨by decide +kernel, trivial⟩ rfl
  refine ⟨_, harrived, by decide +kernel, ?_⟩
  refine (delivers_iff (p := .a) begins_session harrived ?_ ?_ ⟨?_, ?_, ?_⟩ 0).mpr ?_
  all_goals decide +kernel

/-- **A retransmission that is ignored.** Of 34 messages the last one arrives first; the copy of the
first message that is sent again is opened, and not delivered, though the sender holds the message.
-/
theorem retransmission_ignored : ∃ s, Run (Steps step) Always session s ∧
    ⟨35, .reliable 0 [7] 0⟩ ∈ s.net .a ∧
    ((s.ends .a).sendBuf 0).map ReliableEntry.number = some 0 ∧
    0 ∉ (s.ends .b).delivered ∧ (s.ends .b).Opens ⟨35, .reliable 0 [7] 0⟩ ∧
    0 ∉ ((s.ends .b).handlePacket 100000000 ⟨35, .reliable 0 [7] 0⟩).1.delivered :=
  exists_run step Always _
    (List.replicate 34 (.a, .sendReliable 0 true [7]) ++
      [(.b, .receive 0 33), (.a, .maintain 100000000 fun _ => true)]) (by decide +kernel)

end Link

end Mmokit.UDP
