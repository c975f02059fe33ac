/-
The handover protocol has a single authority once it is quiet.

At any time there is one *head*: a peer that holds the authority and whose offer, if it has one,
was not accepted yet, or else a queued authority. Every other holder is *spent*, its offer was
accepted and only its release is missing.
-/
import Mmokit.Library.Handover

open Serial

namespace Handover

open Config

variable {ι : Type*} {b : UInt32} {s t : Config ι} {act : Act ι}

/-- The conditions of an orderly run, and the two under which repeats do no harm: an offer is given
up only if nobody accepted it and no copy of it is under way, and an offer that its receiver
accepted before reaches it only while the receiver remembers. -/
def Settling (b : UInt32) (s : Config ι) : Act ι → Prop
  | .abandon c => ∀ d e, (s.peer c).offer = some (d, e) →
      e ∉ (s.peer d).ledger.accepted ∧ .offer c d e ∉ s.net
  | .accept _ d e => e ∈ (s.peer d).ledger.accepted → e ∈ (s.peer d).ledger.since
  | a => Orderly b s a

lemma Settling.orderly (h : Settling b s act) : Orderly b s act := by
  cases act with
  | cross | absorb => exact h
  | _ => trivial

def Config.Accepted (s : Config ι) (d : ι) (e : UInt32) : Prop :=
  e ∈ (s.peer d).ledger.accepted

/-- The offer of `c` was accepted; only the release of `c` is missing. -/
def Config.Spent (s : Config ι) (c : ι) : Prop :=
  (s.peer c).armed ≠ 0 ∨ ∃ d e, (s.peer c).offer = some (d, e) ∧ s.Accepted d e

/-- `c` holds the authority under the epoch `M` and is not spent, and everybody else is. -/
structure HolderHead (b : UInt32) (s : Config ι) (c : ι) (M : UInt32) : Prop where
  holds : (s.peer c).holds = some M
  fresh : ¬ s.Spent c
  queue : ∀ d, (s.peer d).queue = 0
  spent : ∀ d ≠ c, (s.peer d).holds ≠ none → s.Spent d
  bound : ∀ {d e}, s.Accepted d e → offset b e ≤ offset b M
  bound_offer : (s.peer c).offer ≠ none → ∀ {d e}, s.Accepted d e → offset b e < offset b M

/-- The authority of epoch `M` is queued at `c`, and all holders are spent. -/
structure QueuedHead (b : UInt32) (s : Config ι) (c : ι) (M : UInt32) : Prop where
  queue : (s.peer c).queue = {M}
  queue_other : ∀ d ≠ c, (s.peer d).queue = 0
  spent : ∀ d, (s.peer d).holds ≠ none → s.Spent d
  bound : ∀ {d e}, s.Accepted d e → offset b e ≤ offset b M

/-- There is one head, and every message under way is explained. -/
structure Settled (b : UInt32) (s : Config ι) : Prop where
  regular : s.Regular b
  ordered : ∀ c, (s.peer c).ledger.Ordered
  offers : ∀ {a d e}, .offer a d e ∈ s.net → s.Accepted d e ∨ (s.peer a).offer = some (d, e)
  answers : ∀ {d a e}, .accept d a e ∈ s.net → s.Accepted d e
  head : ∃ c M, HolderHead b s c M ∨ QueuedHead b s c M

lemma Config.Fresh.settled {owner : ι} (h : s.Fresh owner b) : Settled b s where
  regular := h.regular
  ordered c := h.ledger c ▸ Ledger.ordered_empty
  offers h' := by simp [h.net] at h'
  answers h' := by simp [h.net] at h'
  head := by
    refine ⟨owner, b, .inl ⟨h.holds_owner, ?_, h.queue, ?_, ?_, ?_⟩⟩
    · simp [Config.Spent, h.armed, h.offer]
    · intro d hd hne
      exact absurd (h.holds_other d hd) hne
    · intro d e he
      simp [Config.Accepted, h.ledger] at he
    · intro hne
      exact absurd (h.offer owner) hne

/-- **Once everything is quiet, exactly one peer holds the authority.** -/
theorem Settled.unique (h : Settled b s) (hoff : ∀ c, (s.peer c).offer = none)
    (harm : ∀ c, (s.peer c).armed = 0) (hq : ∀ c, (s.peer c).queue = 0) :
    ∃! c, (s.peer c).holds ≠ none := by
  have hspent : ∀ c, ¬ s.Spent c := by
    intro c hc
    simp [Config.Spent, hoff, harm] at hc
  obtain ⟨c, M, hh | hh⟩ := h.head
  · refine ⟨c, by simp [hh.holds], fun d hd => ?_⟩
    by_contra hne
    exact hspent d (hh.spent d hne hd)
  · have := hh.queue
    simp [hq c] at this

lemma Settled.head_of_waiting (h : Settled b s) {a d : ι} {e : UInt32}
    (out : (s.peer a).offer = some (d, e)) (hnot : ¬ s.Accepted d e) : HolderHead b s a e := by
  have hne : (s.peer a).offer ≠ none := by simp [out]
  have hold : (s.peer a).holds = some e := (h.regular.peer a).offer_holds out
  have hfresh : ¬ s.Spent a := by
    rintro (harm | ⟨d', e', out', hacc⟩)
    · exact harm ((h.regular.peer a).armed_of_offer hne)
    · obtain ⟨rfl, rfl⟩ : d = d' ∧ e = e' := by simpa [out] using out'
      exact hnot hacc
  obtain ⟨c, M, hh | hh⟩ := h.head
  · obtain rfl : a = c := by
      by_contra hac
      exact hfresh (hh.spent a hac (by simp [hold]))
    obtain rfl : M = e := Option.some.inj (hh.holds.symm.trans hold)
    exact hh
  · exact absurd (hh.spent a (by simp [hold])) hfresh

lemma Settled.accepted_of_knows (h : Settled b s) {a d : ι} {e : UInt32}
    (hin : .offer a d e ∈ s.net) (hk : (s.peer d).ledger.Knows e) : s.Accepted d e := by
  by_contra hnot
  have out := (h.offers hin).resolve_left hnot
  have hh := h.head_of_waiting out hnot
  -- the mark lies below the epoch of the waiting offer
  obtain ⟨m, hm, hem⟩ := hk
  have hd := h.regular.peer d
  have hmem : s.Accepted d m := hd.ledger_sound.mark_mem hm
  have hlt := hh.bound_offer (by simp [out]) hmem
  rw [not_after_iff (h.regular.net hin) (hd.ledger_window m hmem)] at hem
  omega

lemma Settled.head_of_accept (h : Settled b s) {a d : ι} {e : UInt32}
    (hact : e ∈ (s.peer d).ledger.accepted → e ∈ (s.peer d).ledger.since)
    (hin : .offer a d e ∈ s.net) (hnew : ¬ (s.peer d).ledger.Knows e) :
    (s.peer a).offer = some (d, e) ∧ ¬ s.Accepted d e ∧ HolderHead b s a e := by
  have hd := h.regular.peer d
  have hnot : ¬ s.Accepted d e := fun hacc =>
    hnew (Ledger.knows_of_mem_since hd.ledger_sound (h.ordered d) hd.ledger_window (hact hacc))
  have out := (h.offers hin).resolve_left hnot
  exact ⟨out, hnot, h.head_of_waiting out hnot⟩

lemma Settled.withNet {net : Set (Packet ι)} (h : Settled b s)
    (hreg : (Config.mk s.peer net).Regular b)
    (hoff : ∀ {a d e}, .offer a d e ∈ net → s.Accepted d e ∨ (s.peer a).offer = some (d, e))
    (hans : ∀ {d a e}, .accept d a e ∈ net → s.Accepted d e) : Settled b ⟨s.peer, net⟩ := by
  refine ⟨hreg, h.ordered, hoff, hans, ?_⟩
  obtain ⟨c, M, hh | hh⟩ := h.head
  · exact ⟨c, M, .inl ⟨hh.holds, hh.fresh, hh.queue, hh.spent, hh.bound, hh.bound_offer⟩⟩
  · exact ⟨c, M, .inr ⟨hh.queue, hh.queue_other, hh.spent, hh.bound⟩⟩

section Step

variable [DecidableEq ι] {c d : ι} {p : Peer ι} {net : Set (Packet ι)} {e : UInt32}

lemma accepted_set_iff (hp : p.ledger.accepted = (s.peer c).ledger.accepted) :
    (s.set c p net).Accepted d e ↔ s.Accepted d e := by
  by_cases hd : d = c
  · simp [Config.Accepted, hd, hp]
  · simp [Config.Accepted, set_peer_of_ne hd]

lemma spent_set_iff_of_ne (hp : p.ledger.accepted = (s.peer c).ledger.accepted) (hd : d ≠ c) :
    (s.set c p net).Spent d ↔ s.Spent d := by
  simp only [Config.Spent, set_peer_of_ne hd, accepted_set_iff hp]

lemma Settled.holderHead (h : Settled b s) (hold : (s.peer c).holds = some e)
    (hfresh : ¬ s.Spent c) : HolderHead b s c e := by
  obtain ⟨c', M, hh | hh⟩ := h.head
  · obtain rfl : c = c' := by
      by_contra hne
      exact hfresh (hh.spent c hne (by simp [hold]))
    obtain rfl : M = e := Option.some.inj (hh.holds.symm.trans hold)
    exact hh
  · exact absurd (hh.spent c (by simp [hold])) hfresh

lemma Settled.cross (h : Settled b s) (hold : (s.peer c).holds = some e)
    (idle : (s.peer c).offer = none) (calm : (s.peer c).armed = 0)
    (hwin : offset b e + 1 < 0x80000000) (hnet : net ⊆ insert (.offer c d (e + 1)) s.net)
    (hp : p = { s.peer c with holds := some (e + 1), offer := some (d, e + 1) })
    (hreg : (s.set c p net).Regular b) : Settled b (s.set c p net) := by
  have hh := h.holderHead hold (by simp [Config.Spent, idle, calm])
  have hsucc : offset b (e + 1) = offset b e + 1 := offset_succ hwin
  have hl : p.ledger.accepted = (s.peer c).ledger.accepted := by simp [hp]
  have hbound : ∀ {d' e'}, (s.set c p net).Accepted d' e' → offset b e' < offset b (e + 1) := by
    intro d' e' hacc
    have := hh.bound ((accepted_set_iff hl).mp hacc)
    omega
  refine ⟨hreg, forall_set (P := fun p => p.ledger.Ordered) h.ordered
    (by simpa [hp] using h.ordered c), ?_, ?_,
    c, e + 1, .inl ⟨by simp [hp], ?_, ?_, ?_, fun hacc => Nat.le_of_lt (hbound hacc),
      fun _ _ _ hacc => hbound hacc⟩⟩
  · intro a d' e' hin
    rcases hnet hin with heq | hin
    · cases heq
      exact .inr (by simp [hp])
    refine (h.offers hin).imp (accepted_set_iff hl).mpr fun out => ?_
    have hac : a ≠ c := by
      rintro rfl
      simp [idle] at out
    rwa [set_peer_of_ne hac]
  · intro d' a e' hin
    exact (accepted_set_iff hl).mpr (h.answers ((hnet hin).resolve_left (by simp)))
  · -- nobody can have accepted the epoch that was just made
    rintro (harm | ⟨d', e', out, hacc⟩)
    · simp [hp, calm] at harm
    · obtain ⟨rfl, rfl⟩ : d = d' ∧ e + 1 = e' := by simpa [hp] using out
      have := hbound hacc
      omega
  · exact forall_set (P := fun p => p.queue = 0) hh.queue (by simpa [hp] using hh.queue c)
  · intro d' hd' hne
    rw [set_peer_of_ne hd'] at hne
    exact (spent_set_iff_of_ne hl hd').mpr (hh.spent d' hd' hne)

lemma Settled.abandon (h : Settled b s) (out : (s.peer c).offer = some (d, e))
    (hnot : ¬ s.Accepted d e) (hgone : .offer c d e ∉ s.net)
    (hp : p = { s.peer c with offer := none }) (hreg : (s.set c p s.net).Regular b) :
    Settled b (s.set c p s.net) := by
  have hh := h.head_of_waiting out hnot
  have calm : (s.peer c).armed = 0 := (h.regular.peer c).armed_of_offer (by simp [out])
  have hl : p.ledger.accepted = (s.peer c).ledger.accepted := by simp [hp]
  refine ⟨hreg, forall_set (P := fun p => p.ledger.Ordered) h.ordered
    (by simpa [hp] using h.ordered c), ?_, ?_,
    c, e, .inl ⟨by simpa [hp] using hh.holds, ?_, ?_, ?_, ?_, ?_⟩⟩
  · intro a d' e' hin
    refine (h.offers hin).imp (accepted_set_iff hl).mpr fun out' => ?_
    have hac : a ≠ c := by
      rintro rfl
      obtain ⟨rfl, rfl⟩ : d = d' ∧ e = e' := by simpa [out] using out'
      exact hgone hin
    rwa [set_peer_of_ne hac]
  · exact fun hin => (accepted_set_iff hl).mpr (h.answers hin)
  · simp [Config.Spent, hp, calm]
  · exact forall_set (P := fun p => p.queue = 0) hh.queue (by simpa [hp] using hh.queue c)
  · intro d' hd' hne
    rw [set_peer_of_ne hd'] at hne
    exact (spent_set_iff_of_ne hl hd').mpr (hh.spent d' hd' hne)
  · exact fun hacc => hh.bound ((accepted_set_iff hl).mp hacc)
  · intro hne
    simp [hp] at hne

lemma Settled.accept {a : ι} (h : Settled b s)
    (hact : e ∈ (s.peer d).ledger.accepted → e ∈ (s.peer d).ledger.since)
    (hin : .offer a d e ∈ s.net) (hnew : ¬ (s.peer d).ledger.Knows e)
    (hnet : net ⊆ insert (.accept d a e) s.net)
    (hp : p = { s.peer d with
      queue := e ::ₘ (s.peer d).queue, ledger := (s.peer d).ledger.accept e })
    (hreg : (s.set d p net).Regular b) : Settled b (s.set d p net) := by
  obtain ⟨out, hnot, hh⟩ := h.head_of_accept hact hin hnew
  have hd := h.regular.peer d
  have hpacc : p.ledger.accepted = e :: (s.peer d).ledger.accepted := by simp [hp]
  have hnow : (s.set d p net).Accepted d e := by simp [Config.Accepted, hpacc]
  have hmono : ∀ {d' e'}, s.Accepted d' e' → (s.set d p net).Accepted d' e' := by
    intro d' e' hacc
    by_cases hd' : d' = d
    · subst hd'
      simpa [Config.Accepted, hpacc] using .inr hacc
    · rwa [Config.Accepted, set_peer_of_ne hd']
  have hback : ∀ {d' e'}, (s.set d p net).Accepted d' e' →
      d' = d ∧ e' = e ∨ s.Accepted d' e' := by
    intro d' e' hacc
    by_cases hd' : d' = d
    · subst hd'
      rw [Config.Accepted, set_peer_self, hpacc, List.mem_cons] at hacc
      exact hacc.imp_left fun heq => ⟨rfl, heq⟩
    · rw [Config.Accepted, set_peer_of_ne hd'] at hacc
      exact .inr hacc
  have hoffer : ∀ c', ((s.set d p net).peer c').offer = (s.peer c').offer :=
    fun c' => set_congr Peer.offer (by simp [hp])
  have harmed : ∀ c', ((s.set d p net).peer c').armed = (s.peer c').armed :=
    fun c' => set_congr Peer.armed (by simp [hp])
  have hholds : ∀ c', ((s.set d p net).peer c').holds = (s.peer c').holds :=
    fun c' => set_congr Peer.holds (by simp [hp])
  have hspent : ∀ {c'}, s.Spent c' → (s.set d p net).Spent c' := by
    rintro c' (harm | ⟨d', e', out', hacc⟩)
    · exact .inl (by rwa [harmed])
    · exact .inr ⟨d', e', by rwa [hoffer], hmono hacc⟩
  refine ⟨hreg, forall_set (P := fun p => p.ledger.Ordered) h.ordered ?_, ?_, ?_, d, e,
     .inr ⟨?_, ?_, ?_, ?_⟩⟩
  · -- the epoch of the head's offer is newer than everything that was accepted
    rw [show p.ledger = (s.peer d).ledger.accept e by simp [hp]]
    refine List.Pairwise.cons (fun x hx => ?_) (h.ordered d)
    rw [after_iff (h.regular.net hin) (hd.ledger_window x hx)]
    exact hh.bound_offer (by simp [out]) hx
  · intro a' d' e' hin'
    rw [hoffer]
    exact (h.offers ((hnet hin').resolve_left (by simp))).imp_left hmono
  · intro d' a' e' hin'
    rcases hnet hin' with heq | hin'
    · cases heq
      exact hnow
    · exact hmono (h.answers hin')
  · simp [hp, hh.queue d]
  · intro d' hd'
    rw [set_peer_of_ne hd']
    exact hh.queue d'
  · intro c' hne
    rw [hholds] at hne
    by_cases hc : c' = a
    · subst hc
      exact .inr ⟨d, e, by rwa [hoffer], hnow⟩
    · exact hspent (hh.spent c' hc hne)
  · intro d' e' hacc
    rcases hback hacc with ⟨-, rfl⟩ | hacc
    · exact Nat.le_refl _
    · exact hh.bound hacc

lemma Settled.spent_step (h : Settled b s) (hspent : s.Spent c)
    (hwait : ∀ {d e}, (s.peer c).offer = some (d, e) → s.Accepted d e)
    (hl : p.ledger.accepted = (s.peer c).ledger.accepted) (hq : p.queue = (s.peer c).queue)
    (hdone : p.holds ≠ none → p.armed ≠ 0) (hnet : net ⊆ s.net)
    (hreg : (s.set c p net).Regular b) : Settled b (s.set c p net) := by
  have hdone' : ((s.set c p net).peer c).holds ≠ none → (s.set c p net).Spent c := by
    intro hne
    rw [set_peer_self] at hne
    exact .inl (by simpa using hdone hne)
  have hqueue : ∀ d', ((s.set c p net).peer d').queue = (s.peer d').queue :=
    fun d' => set_congr Peer.queue hq
  have hspent' : ∀ d', ((s.set c p net).peer d').holds ≠ none →
      ((s.peer d').holds ≠ none → s.Spent d') → (s.set c p net).Spent d' := by
    intro d' hne hd'
    by_cases hdc : d' = c
    · subst hdc
      exact hdone' hne
    · rw [set_peer_of_ne hdc] at hne
      exact (spent_set_iff_of_ne hl hdc).mpr (hd' hne)
  refine ⟨hreg, forall_set (P := fun p => p.ledger.Ordered) h.ordered ?_, ?_, ?_, ?_⟩
  · rw [Ledger.Ordered, hl]
    exact h.ordered c
  · intro a d' e' hin
    rw [accepted_set_iff hl]
    rcases h.offers (hnet hin) with hacc | out
    · exact .inl hacc
    by_cases hac : a = c
    · subst hac
      exact .inl (hwait out)
    · rw [set_peer_of_ne hac]
      exact .inr out
  · exact fun hin => (accepted_set_iff hl).mpr (h.answers (hnet hin))
  · obtain ⟨c', M, hh | hh⟩ := h.head
    · have hne : c' ≠ c := by
        rintro rfl
        exact hh.fresh hspent
      refine ⟨c', M, .inl ⟨?_, ?_, ?_, ?_, ?_, ?_⟩⟩
      · rw [set_peer_of_ne hne]
        exact hh.holds
      · rw [spent_set_iff_of_ne hl hne]
        exact hh.fresh
      · intro d'
        rw [hqueue]
        exact hh.queue d'
      · exact fun d' hd' hne' => hspent' d' hne' (hh.spent d' hd')
      · exact fun hacc => hh.bound ((accepted_set_iff hl).mp hacc)
      · rw [set_peer_of_ne hne]
        exact fun hoff _ _ hacc => hh.bound_offer hoff ((accepted_set_iff hl).mp hacc)
    · refine ⟨c', M, .inr ⟨?_, ?_, ?_, ?_⟩⟩
      · rw [hqueue]
        exact hh.queue
      · intro d' hd'
        rw [hqueue]
        exact hh.queue_other d' hd'
      · exact fun d' hne' => hspent' d' hne' (hh.spent d')
      · exact fun hacc => hh.bound ((accepted_set_iff hl).mp hacc)

lemma Settled.take {q : Multiset UInt32} (h : Settled b s) (hq : (s.peer c).queue = e ::ₘ q)
    (hold : (s.peer c).holds = none) (hp : p = { s.peer c with holds := some e, queue := q })
    (hreg : (s.set c p s.net).Regular b) : Settled b (s.set c p s.net) := by
  obtain ⟨hoff, harm⟩ := (h.regular.peer c).not_engaged hold
  have hl : p.ledger.accepted = (s.peer c).ledger.accepted := by simp [hp]
  obtain ⟨c', M, hh | hh⟩ := h.head
  · simp [hh.queue c] at hq
  obtain rfl : c = c' := by
    by_contra hne
    simp [hh.queue_other c hne] at hq
  have hsingle : e ::ₘ q = {M} := hq.symm.trans hh.queue
  obtain rfl : e = M := Multiset.mem_singleton.mp (hsingle ▸ Multiset.mem_cons_self e q)
  obtain rfl : q = 0 := (Multiset.cons_inj_right e).mp hsingle
  refine ⟨hreg, forall_set (P := fun p => p.ledger.Ordered) h.ordered
    (by simpa [hp] using h.ordered c), ?_, ?_,
    c, e, .inl ⟨by simp [hp], ?_, ?_, ?_, ?_, ?_⟩⟩
  · intro a d' e' hin
    rw [accepted_set_iff hl, set_congr Peer.offer (by simp [hp])]
    exact h.offers hin
  · exact fun hin => (accepted_set_iff hl).mpr (h.answers hin)
  · simp [Config.Spent, hp, hoff, harm]
  · intro d'
    by_cases hd' : d' = c
    · simp [hd', hp]
    · rw [set_peer_of_ne hd']
      exact hh.queue_other d' hd'
  · intro d' hd' hne
    rw [set_peer_of_ne hd'] at hne
    exact (spent_set_iff_of_ne hl hd').mpr (hh.spent d' hne)
  · exact fun hacc => hh.bound ((accepted_set_iff hl).mp hacc)
  · intro hne
    simp [hp, hoff] at hne

theorem Settled.step (h : Settled b s) (hact : Settling b s act) (hstep : Step s act t) :
    Settled b t := by
  have hreg := h.regular.step hact.orderly hstep
  cases hstep with
  | cross hold idle calm hnet => exact h.cross hold idle calm (hact _ hold) hnet rfl hreg
  | resend out hnet =>
    refine h.withNet hreg (fun hin => ?_) fun hin => h.answers ((hnet hin).resolve_left (by simp))
    rcases hnet hin with heq | hin
    · cases heq
      exact .inr out
    · exact h.offers hin
  | abandon out =>
    obtain ⟨hnot, hgone⟩ := hact _ _ out
    exact h.abandon out hnot hgone rfl hreg
  | @expire c hold =>
    -- a peer that holds nothing has no offer, so nothing changes
    have hsame : { s.peer c with offer := none } = s.peer c :=
      Peer.ext rfl ((h.regular.peer c).not_engaged hold).1.symm rfl rfl rfl
    rw [Config.set, hsame, Function.update_eq_self] at hreg ⊢
    exact h.withNet hreg h.offers h.answers
  | accept hin hnew hnet => exact h.accept hact hin hnew hnet rfl hreg
  | reack hin hold hnet =>
    refine h.withNet hreg (fun hin' => h.offers ((hnet hin').resolve_left (by simp))) fun hin' => ?_
    rcases hnet hin' with heq | hin'
    · cases heq
      exact h.accepted_of_knows hin hold
    · exact h.answers hin'
  | arm hin out hnet =>
    have hacc := h.answers hin
    refine h.spent_step (.inr ⟨_, _, out, hacc⟩) (fun out' => ?_) rfl rfl (by simp) hnet hreg
    obtain ⟨rfl, rfl⟩ : _ ∧ _ := Prod.mk.inj (Option.some.inj (out.symm.trans out'))
    exact hacc
  | @release c k calm hold =>
    have harm : (s.peer c).armed ≠ 0 := by simp [calm]
    refine h.spent_step (.inl harm) (fun out => ?_) rfl rfl (by simp) (Set.Subset.refl _) hreg
    exact absurd ((h.regular.peer c).armed_of_offer (by simp [out])) harm
  | disarm calm hold => exact absurd hold ((h.regular.peer _).armed_holds (by simp [calm]))
  | take hq hold => exact h.take hq hold rfl hreg
  | absorb => exact hact.elim
  | lose hnet =>
    exact h.withNet hreg (fun hin => h.offers (hnet hin)) fun hin => h.answers (hnet hin)

theorem Settled.run {owner : ι} (h₀ : s.Fresh owner b) (h : Run Step (Settling b) s t) :
    Settled b t :=
  h.invariant h₀.settled fun hI hK hR => hI.step hK hR

end Step

end Handover
