/-
Moving an authority past the handover protocol.

A peer that takes part in no handover is *dormant*. Somebody may copy the authority of a dormant
holder to another peer, under the next epoch, and from then on no longer count the holder: the
holder is *retired*.
-/
import Mmokit.Library.HandoverSingle

open Serial

namespace Handover

open Config

variable {ι : Type*} {b : UInt32} {s t : Config ι} {act : Act ι} {c d : ι}

/-- Nothing is under way at the party. -/
structure Peer.Dormant (p : Peer ι) : Prop where
  offer : p.offer = none
  armed : p.armed = 0
  queue : p.queue = 0

def Act.Wakes (c : ι) : Act ι → Prop
  | .cross c' => c' = c
  | .accept _ d _ => d = c
  | _ => False

lemma Peer.Dormant.ne (hc : (s.peer c).Dormant) :
    (∀ {x}, (s.peer d).offer = some x → d ≠ c) ∧ (∀ {k}, (s.peer d).armed = k + 1 → d ≠ c) ∧
      ∀ {e q}, (s.peer d).queue = e ::ₘ q → d ≠ c := by
  refine ⟨fun out => ?_, fun calm => ?_, fun hq => ?_⟩
  · rintro rfl
    simp [hc.offer] at out
  · rintro rfl
    simp [hc.armed] at calm
  · rintro rfl
    simp [hc.queue] at hq

lemma Peer.Regular.of_dormant {p : Peer ι} (h : p.Regular b) (hp : p.Dormant) {o : Option UInt32}
    (ho : ∀ {e}, o = some e → InWindow b e) : ({ p with holds := o } : Peer ι).Regular b :=
  ⟨by simp [hp.offer], by simp [hp.armed], h.armed_le, h.armed_of_offer, ho, h.queue_window,
    h.ledger_sound, h.ledger_window⟩

lemma Settled.head_of_dormant {e : UInt32} (h : Settled b s) (hold : (s.peer c).holds = some e)
    (hc : (s.peer c).Dormant) : HolderHead b s c e := by
  have hfresh : ¬ s.Spent c := by
    simp [Config.Spent, hc.armed, hc.offer]
  obtain ⟨c', M, hh | hh⟩ := h.head
  · obtain rfl : c = c' := by
      by_contra hne
      exact hfresh (hh.spent c hne (by simp [hold]))
    obtain rfl : M = e := Option.some.inj (hh.holds.symm.trans hold)
    exact hh
  · exact absurd (hh.spent c (by simp [hold])) hfresh

lemma Settled.card_queue_le (h : Settled b s) (c : ι) : (s.peer c).queue.card ≤ 1 := by
  obtain ⟨c', M, hh | hh⟩ := h.head
  · simp [hh.queue c]
  · by_cases hc : c = c'
    · simp [hc, hh.queue]
    · simp [hh.queue_other c hc]

/-- **Where no offer and no release is pending, the authority is at one place**: it is held there,
or it is queued there. -/
theorem Settled.unique_place (h : Settled b s) (hoff : ∀ c, (s.peer c).offer = none)
    (harm : ∀ c, (s.peer c).armed = 0) :
    ∃! c, (s.peer c).holds ≠ none ∨ (s.peer c).queue ≠ 0 := by
  have hspent : ∀ c, ¬ s.Spent c := by
    intro c
    simp [Config.Spent, hoff, harm]
  obtain ⟨c, M, hh | hh⟩ := h.head
  · refine ⟨c, .inl (by simp [hh.holds]), ?_⟩
    rintro d (hd | hd)
    · by_contra hne
      exact hspent d (hh.spent d hne hd)
    · exact absurd (hh.queue d) hd
  · refine ⟨c, .inr (by simp [hh.queue]), ?_⟩
    rintro d (hd | hd)
    · exact absurd (hh.spent d hd) (hspent d)
    · by_contra hne
      exact hd (hh.queue_other d hne)

section Retire

variable [DecidableEq ι]

def Config.retire (s : Config ι) (c : ι) : Config ι :=
  s.set c { s.peer c with holds := none } s.net

@[simp] lemma Config.retire_net : (s.retire c).net = s.net := rfl
@[simp] lemma Config.retire_peer_self :
    (s.retire c).peer c = { s.peer c with holds := none } := set_peer_self ..

@[simp] lemma Config.retire_peer_of_ne (h : d ≠ c) : (s.retire c).peer d = s.peer d :=
  set_peer_of_ne h ..

lemma Config.retire_congr {β : Type*} (f : Peer ι → β)
    (hf : ∀ p : Peer ι, f { p with holds := none } = f p) :
    f ((s.retire c).peer d) = f (s.peer d) :=
  set_congr f (hf _)

lemma Config.retire_of_none (h : (s.peer c).holds = none) : s.retire c = s := by
  have hpeer : ({ s.peer c with holds := none } : Peer ι) = s.peer c := by
    rw [← h]
  rw [retire, hpeer, set, Function.update_eq_self]

lemma Config.retire_set_of_ne (h : d ≠ c) (p : Peer ι) (net : Set (Packet ι)) :
    (s.set d p net).retire c = (s.retire c).set d p net := by
  refine Config.ext ?_ rfl
  simp only [Config.retire, Config.set, Function.update_of_ne h.symm]
  exact Function.update_comm h _ _ _

/-- **A step that does not wake a dormant peer** leaves it as it is. -/
theorem Step.peer_dormant (h : Step s act t) (hc : (s.peer c).Dormant) (hw : ¬ act.Wakes c) :
    t.peer c = s.peer c := by
  cases h with
  | cross | accept => exact set_peer_of_ne (fun h => hw h.symm) ..
  | resend | reack | lose => rfl
  | abandon out => exact set_peer_of_ne (hc.ne.1 out).symm ..
  | @expire c' hold =>
    by_cases hcc : c = c'
    · subst hcc
      simp [← hc.offer]
    · exact set_peer_of_ne hcc ..
  | arm hin out hnet => exact set_peer_of_ne (hc.ne.1 out).symm ..
  | release calm | disarm calm => exact set_peer_of_ne (hc.ne.2.1 calm).symm ..
  | take hq | absorb hq => exact set_peer_of_ne (hc.ne.2.2 hq).symm ..

/-- **A step that does not wake the retired peer is a step of the others.** -/
theorem Step.retire (h : Step s act t) (hc : (s.peer c).Dormant) (hw : ¬ act.Wakes c) :
    Step (s.retire c) act (t.retire c) := by
  -- the peer that acts is another one, and looks the same after the retirement
  have hother {c' : ι} (hne : c' ≠ c) (p : Peer ι) (net : Set (Packet ι)) :
      (s.set c' p net).retire c = (s.retire c).set c' p net ∧ s.peer c' = (s.retire c).peer c' :=
    ⟨retire_set_of_ne hne p net, (retire_peer_of_ne hne).symm⟩
  cases h with
  | @cross c' d' e net hold idle calm hnet =>
    have hne : c' ≠ c := hw
    obtain ⟨hset, hpeer⟩ := hother hne _ _
    rw [hset, hpeer]
    exact .cross (hpeer ▸ hold) (hpeer ▸ idle) (hpeer ▸ calm) hnet
  | resend out hnet =>
    obtain ⟨-, hpeer⟩ := hother (hc.ne.1 out) (s.peer c) s.net
    exact .resend (hpeer ▸ out) hnet
  | abandon out =>
    obtain ⟨hset, hpeer⟩ := hother (hc.ne.1 out) _ _
    rw [hset, hpeer]
    exact .abandon (hpeer ▸ out)
  | @expire c' hold =>
    by_cases hcc : c' = c
    · -- the peer holds nothing and has no offer: nothing happens
      subst hcc
      have hpeer : ({ s.peer c' with offer := none } : Peer ι) = s.peer c' := by
        rw [← hc.offer]
      have hsame : s.set c' (s.peer c') s.net = s := by
        simp [Config.set]
      have hstep : Step s (.expire c') _ := .expire hold
      rw [hpeer, hsame] at hstep ⊢
      rwa [retire_of_none hold]
    · obtain ⟨hset, hpeer⟩ := hother hcc _ _
      rw [hset, hpeer]
      exact .expire (hpeer ▸ hold)
  | @accept a d' e net hin hnew hnet =>
    have hne : d' ≠ c := hw
    obtain ⟨hset, hpeer⟩ := hother hne _ _
    rw [hset, hpeer]
    exact .accept hin (hpeer ▸ hnew) hnet
  | @reack a d' e net hin hold hnet =>
    have hledger : ((s.retire c).peer d').ledger = (s.peer d').ledger :=
      retire_congr Peer.ledger fun _ => rfl
    exact .reack hin (hledger ▸ hold) hnet
  | arm hin out hnet =>
    obtain ⟨hset, hpeer⟩ := hother (hc.ne.1 out) _ _
    rw [hset, hpeer]
    exact .arm hin (hpeer ▸ out) hnet
  | release calm hold =>
    obtain ⟨hset, hpeer⟩ := hother (hc.ne.2.1 calm) _ _
    rw [hset, hpeer]
    exact .release (hpeer ▸ calm) (hpeer ▸ hold)
  | disarm calm hold =>
    obtain ⟨hset, hpeer⟩ := hother (hc.ne.2.1 calm) _ _
    rw [hset, hpeer]
    exact .disarm (hpeer ▸ calm) (hpeer ▸ hold)
  | take hq hold =>
    obtain ⟨hset, hpeer⟩ := hother (hc.ne.2.2 hq) _ _
    rw [hset, hpeer]
    exact .take (hpeer ▸ hq) (hpeer ▸ hold)
  | absorb hq hold =>
    obtain ⟨hset, hpeer⟩ := hother (hc.ne.2.2 hq) _ _
    rw [hset, hpeer]
    exact .absorb (hpeer ▸ hq) (hpeer ▸ hold)
  | lose hnet => exact .lose hnet

lemma Settling.retire (h : Settling b s act) (hw : ¬ act.Wakes c) :
    Settling b (s.retire c) act := by
  have hledger (d : ι) : ((s.retire c).peer d).ledger = (s.peer d).ledger :=
    retire_congr Peer.ledger fun _ => rfl
  have hoffer (d : ι) : ((s.retire c).peer d).offer = (s.peer d).offer :=
    retire_congr Peer.offer fun _ => rfl
  cases act with
  | cross c' =>
    have hne : c' ≠ c := hw
    simpa only [Settling, Orderly, retire_peer_of_ne hne] using h
  | abandon c' => simpa only [Settling, hoffer, hledger, retire_net] using h
  | accept a d' e => simpa only [Settling, hledger] using h
  | _ => exact h

def Config.relocate (s : Config ι) (c d : ι) (e : UInt32) : Config ι :=
  (s.retire c).set d { s.peer d with holds := some (e + 1) } s.net

lemma Config.relocate_congr {β : Type*} (f : Peer ι → β) {e : UInt32} (hne : d ≠ c)
    (hf : ∀ (p : Peer ι) (h : Option UInt32), f { p with holds := h } = f p) (x : ι) :
    f ((s.relocate c d e).peer x) = f (s.peer x) := by
  rw [relocate, set_congr f, retire_congr f fun p => hf p none]
  rw [retire_peer_of_ne hne, hf]

/-- **The copy becomes the head.** The authority of a dormant holder moves to a dormant peer that
holds nothing, under the next epoch. -/
theorem Settled.relocate {e : UInt32} (h : Settled b s) (hne : d ≠ c)
    (hold : (s.peer c).holds = some e) (hc : (s.peer c).Dormant) (hd : (s.peer d).Dormant)
    (hwin : offset b e + 1 < 0x80000000) : Settled b (s.relocate c d e) := by
  have hledger := relocate_congr (s := s) (e := e) Peer.ledger hne fun _ _ => rfl
  have hoffer := relocate_congr (s := s) (e := e) Peer.offer hne fun _ _ => rfl
  have harmed := relocate_congr (s := s) (e := e) Peer.armed hne fun _ _ => rfl
  have hqueue := relocate_congr (s := s) (e := e) Peer.queue hne fun _ _ => rfl
  have hacc (x : ι) (e' : UInt32) : (s.relocate c d e).Accepted x e' ↔ s.Accepted x e' := by
    rw [Config.Accepted, Config.Accepted, hledger]
  have hspent (x : ι) : (s.relocate c d e).Spent x ↔ s.Spent x := by
    simp only [Config.Spent, harmed, hoffer, hacc]
  have hself : ((s.relocate c d e).peer d).holds = some (e + 1) := by
    simp [Config.relocate]
  have hother {x : ι} (hx : x ≠ d) (hxh : ((s.relocate c d e).peer x).holds ≠ none) :
      x ≠ c ∧ (s.peer x).holds ≠ none := by
    rw [Config.relocate, Config.set_peer_of_ne hx] at hxh
    have hxc : x ≠ c := by
      rintro rfl
      simp at hxh
    exact ⟨hxc, by simpa [hxc] using hxh⟩
  have hh := h.head_of_dormant hold hc
  have hstep := offset_succ hwin
  refine ⟨?_, fun x => ?_, fun hin => ?_, fun hin => ?_, d, e + 1, .inl ⟨hself, ?_, fun x => ?_,
    fun x hx hxh => ?_, fun ha => ?_, fun _ _ _ ha => ?_⟩⟩
  · have hret : (s.retire c).Regular b :=
      h.regular.set ((h.regular.peer c).of_dormant hc (by simp)) h.regular.net
    refine hret.set ((h.regular.peer d).of_dormant hd ?_) h.regular.net
    rintro _ ⟨⟩
    exact inWindow_succ hwin
  · rw [hledger]
    exact h.ordered x
  · rw [hacc, hoffer]
    exact h.offers hin
  · rw [hacc]
    exact h.answers hin
  · simp [Config.Spent, harmed, hoffer, hd.armed, hd.offer]
  · rw [hqueue]
    exact hh.queue x
  · obtain ⟨hxc, hxs⟩ := hother hx hxh
    exact (hspent x).mpr (hh.spent x hxc hxs)
  · have := hh.bound ((hacc _ _).mp ha)
    omega
  · have := hh.bound ((hacc _ _).mp ha)
    omega

end Retire

end Handover
