/-
Which packets a session opens (`Open` in `pkg/net/udpcrypto/udpcrypto.go`, `OpenPacket` in
`csharp/Mmokit.Sdk.Core/UdpSession.cs`).

A packet is its counter and whether it authenticates. The window is asked first, then the packet is
authenticated, and only then the counter is recorded. The two sessions differ in how they shift: C#
takes the distance modulo the width of the word.
-/
import Mmokit.Net.ReceiveWindow

namespace Mmokit.UDP

open ReplayWindow

namespace ReplayWindow

/-- `Open`: the window, the authentication, the record. -/
def openPacket (w : ReplayWindow) (ctr : ℕ) (authentic : Bool) : Bool × ReplayWindow :=
  if ctr = 0 then (false, w)
  else if w.check ctr then
    if authentic then (true, w.commit ctr) else (false, w)
  else (false, w)

/-- C#: has the counter not been seen? -/
def replayCheckLocked (w : ReplayWindow) (counter : ℕ) : Bool :=
  if w.highest < counter then true
  else
    let diff := w.highest - counter
    if replayWindowSize ≤ diff then false else w.bitmap &&& (1#64 <<< (diff % 64)) == 0#64

/-- C#: records a counter. -/
def replayCommitLocked (w : ReplayWindow) (counter : ℕ) : ReplayWindow :=
  if w.highest < counter then
    let shift := counter - w.highest
    ⟨counter, (if replayWindowSize ≤ shift then 0#64 else w.bitmap <<< (shift % 64)) ||| 1#64⟩
  else
    let diff := w.highest - counter
    if diff < replayWindowSize then { w with bitmap := w.bitmap ||| (1#64 <<< (diff % 64)) } else w

/-- C#: the same order of checks. -/
def openPacketCSharp (w : ReplayWindow) (counter : ℕ) (authentic : Bool) : Bool × ReplayWindow :=
  if counter = 0 then (false, w)
  else if w.replayCheckLocked counter then
    if authentic then (true, w.replayCommitLocked counter) else (false, w)
  else (false, w)

variable {w : ReplayWindow}

lemma replayCheckLocked_eq (w : ReplayWindow) (ctr : ℕ) :
    w.replayCheckLocked ctr = w.check ctr := by
  unfold replayCheckLocked check
  by_cases hreach : replayWindowSize ≤ w.highest - ctr
  · simp only [hreach, if_true]
  · have hmod : (w.highest - ctr) % 64 = w.highest - ctr := Nat.mod_eq_of_lt (not_le.mp hreach)
    simp only [hreach, hmod]

lemma replayCommitLocked_eq (w : ReplayWindow) (ctr : ℕ) :
    w.replayCommitLocked ctr = w.commit ctr := by
  unfold replayCommitLocked commit
  have hmod (d : ℕ) (hd : d < replayWindowSize) : d % 64 = d := Nat.mod_eq_of_lt hd
  split
  · by_cases hshift : replayWindowSize ≤ ctr - w.highest
    · simp only [hshift, if_true]
    · simp only [hmod _ (not_le.mp hshift)]
  · by_cases hdiff : w.highest - ctr < replayWindowSize
    · simp only [hmod _ hdiff]
    · simp only [hdiff, if_false]

lemma openPacketCSharp_eq : openPacketCSharp = openPacket := by
  funext w ctr authentic
  unfold openPacketCSharp openPacket
  rw [replayCheckLocked_eq, replayCommitLocked_eq]

lemma openPacket_fst {ctr : ℕ} {authentic : Bool} :
    (w.openPacket ctr authentic).1 = true ↔ ctr ≠ 0 ∧ w.check ctr = true ∧ authentic = true := by
  unfold openPacket
  split_ifs <;> simp_all

end ReplayWindow

/-- A session with the counters that it has accepted. -/
structure Receiver where
  win : ReplayWindow := ⟨0, 0⟩
  accepted : List ℕ := []

namespace Receiver

/-- A packet arrives. -/
def receive (opens : ReplayWindow → ℕ → Bool → Bool × ReplayWindow) (r : Receiver)
    (p : ℕ × Bool) : Receiver :=
  let o := opens r.win p.1 p.2
  { win := o.2, accepted := if o.1 then p.1 :: r.accepted else r.accepted }

/-- The session after these packets. -/
def after (opens : ReplayWindow → ℕ → Bool → Bool × ReplayWindow) (packets : List (ℕ × Bool)) :
    Receiver :=
  packets.foldl (receive opens) {}

/-- The window knows what was accepted. -/
structure Sound (r : Receiver) : Prop where
  knows : r.win.Knows {n | n ∈ r.accepted}
  highest : r.win.highest = 0 ∨ r.win.highest ∈ r.accepted

lemma Sound.receive {r : Receiver} (h : r.Sound) (p : ℕ × Bool) :
    (r.receive openPacket p).Sound := by
  obtain ⟨ctr, authentic⟩ := p
  by_cases hopen : (r.win.openPacket ctr authentic).1 = true
  · obtain ⟨hctr, hcheck, rfl⟩ := openPacket_fst.mp hopen
    have hstep : r.receive openPacket (ctr, true) =
        ⟨r.win.commit ctr, ctr :: r.accepted⟩ := by
      simp [Receiver.receive, openPacket, hctr, hcheck]
    rw [hstep]
    refine ⟨?_, .inr ?_⟩
    · convert knows_commit h.knows hcheck using 1
      ext n
      simp
    -- the highest counter is the new one, or it was accepted before
    change (r.win.commit ctr).highest ∈ _
    rw [highest_commit, List.mem_cons]
    rcases le_total r.win.highest ctr with hle | hle
    · exact .inl (max_eq_right hle)
    · rw [max_eq_left hle]
      refine .inr (h.highest.resolve_left ?_)
      omega
  · have hstep : r.receive openPacket (ctr, authentic) = r := by
      unfold openPacket at hopen
      unfold Receiver.receive openPacket
      split_ifs at hopen ⊢ <;> simp_all
    rwa [hstep]

lemma sound_after (packets : List (ℕ × Bool)) : (after openPacket packets).Sound := by
  unfold after
  have hstart : Sound {} :=
    ⟨⟨BitVec.tracks_zero fun n hn => absurd hn (by simp), fun n hn => absurd hn (by simp)⟩,
      .inl rfl⟩
  generalize ({} : Receiver) = r at hstart ⊢
  induction packets generalizing r with
  | nil => exact hstart
  | cons p packets ih => exact ih _ (hstart.receive p)

/-- **The replay window is exact.** After any calls, a packet is accepted iff it authenticates, its
counter is not zero, was not accepted before and is less than 64 below all that were; else the
window stays as it is. The C# session is in the same state after the same calls. -/
theorem replay_window_exact (packets : List (ℕ × Bool)) (ctr : ℕ) (authentic : Bool) :
    after openPacketCSharp packets = after openPacket packets ∧
    let r := after openPacket packets
    ((r.win.openPacket ctr authentic).1 = true ↔ authentic = true ∧ ctr ≠ 0 ∧ ctr ∉ r.accepted ∧
      ∀ n ∈ r.accepted, n < ctr + 64) ∧
    ((r.win.openPacket ctr authentic).1 = false → (r.win.openPacket ctr authentic).2 = r.win) ∧
    r.win.openPacketCSharp ctr authentic = r.win.openPacket ctr authentic := by
  refine ⟨by rw [openPacketCSharp_eq], ?_⟩
  intro r
  have hr : r.Sound := sound_after packets
  refine ⟨?_, ?_, by rw [openPacketCSharp_eq]⟩
  · rw [openPacket_fst, check_iff hr.knows]
    have hreach : ctr ≠ 0 → (r.win.highest < ctr + replayWindowSize ↔
        ∀ n ∈ r.accepted, n < ctr + 64) := by
      intro hctr
      constructor
      · exact fun hlt n hn => (hr.knows.le_highest n hn).trans_lt hlt
      intro hall
      rcases hr.highest with hzero | hmem
      · unfold replayWindowSize
        omega
      · exact hall _ hmem
    constructor
    · rintro ⟨hctr, ⟨hlt, hnew⟩, hauth⟩
      exact ⟨hauth, hctr, hnew, (hreach hctr).mp hlt⟩
    · rintro ⟨hauth, hctr, hnew, hall⟩
      exact ⟨hctr, ⟨(hreach hctr).mpr hall, hnew⟩, hauth⟩
  · unfold openPacket
    split_ifs <;> simp

end Receiver

end Mmokit.UDP
