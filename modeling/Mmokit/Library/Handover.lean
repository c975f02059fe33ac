/-
Handing a single authority over between peers, across a network that loses, duplicates, delays and
reorders messages.

A peer that holds the authority under some epoch raises the epoch and *offers* it to another peer.
The other peer queues the offer, answers with an acceptance and later takes the authority up. The
offering peer keeps the authority until an acceptance arrives; that arms its release, which comes
some time after. Offers may be repeated and may be given up, and a receiver recognises repeats with
a `Ledger`.
-/
import Mmokit.Library.Ledger
import Mmokit.Library.Runs
import Mathlib.Data.Multiset.AddSub
import Mathlib.Data.Set.Insert

open Serial

namespace Handover

variable {ι : Type*}

/-- What a party knows. -/
@[ext]
structure Peer (ι : Type*) where
  /-- The epoch under which the peer holds the authority, if it does. -/
  holds : Option UInt32
  /-- The offer that waits for its acceptance: to whom, and under which epoch. -/
  offer : Option (ι × UInt32)
  /-- How many releases are armed. -/
  armed : ℕ
  /-- The epochs that were accepted and not yet taken up. -/
  queue : Multiset UInt32
  /-- The receiver's record of accepted offers. -/
  ledger : Ledger

/-- The messages. -/
inductive Packet (ι : Type*)
  | offer (src dst : ι) (epoch : UInt32)
  | accept (src dst : ι) (epoch : UInt32)
deriving DecidableEq

/-- The parties and the network. -/
@[ext]
structure Config (ι : Type*) where
  peer : ι → Peer ι
  net : Set (Packet ι)

/-- The moves. -/
inductive Act (ι : Type*)
  /-- `c` offers the authority under the next epoch. -/
  | cross (c : ι)
  /-- `c` repeats its offer. -/
  | resend (c : ι)
  /-- `c` gives its offer up and keeps the authority. -/
  | abandon (c : ι)
  /-- `c` drops an offer although it holds nothing. -/
  | expire (c : ι)
  /-- `d` accepts the offer of `a`. -/
  | accept (a d : ι) (e : UInt32)
  /-- `d` takes the offer of `a` for a repeat and answers again. -/
  | reack (a d : ι) (e : UInt32)
  /-- The acceptance of its offer reaches `a`. -/
  | arm (a : ι)
  /-- An armed release of `c` fires. -/
  | release (c : ι)
  /-- `c` takes a queued authority up. -/
  | take (c : ι)
  /-- `c` already holds the authority and drops a queued one. -/
  | absorb (c : ι)
  /-- Messages disappear. -/
  | lose

section Steps

variable [DecidableEq ι]

def Config.set (s : Config ι) (c : ι) (p : Peer ι) (net : Set (Packet ι)) : Config ι :=
  ⟨Function.update s.peer c p, net⟩

@[simp] lemma Config.set_peer_self (s : Config ι) (c : ι) (p : Peer ι) (net : Set (Packet ι)) :
    (s.set c p net).peer c = p := Function.update_self ..

@[simp] lemma Config.set_peer_of_ne {s : Config ι} {c d : ι} (h : d ≠ c) (p : Peer ι)
    (net : Set (Packet ι)) : (s.set c p net).peer d = s.peer d := Function.update_of_ne h ..

@[simp] lemma Config.set_net (s : Config ι) (c : ι) (p : Peer ι) (net : Set (Packet ι)) :
    (s.set c p net).net = net := rfl

/-- What the peers and the network can do. The messages after a step are bounded from above only:
any of them may be lost at any time, and none is ever lost for good by being delivered. -/
inductive Step (s : Config ι) : Act ι → Config ι → Prop
  | cross {c d : ι} {e : UInt32} {net : Set (Packet ι)} (hold : (s.peer c).holds = some e)
      (idle : (s.peer c).offer = none) (calm : (s.peer c).armed = 0)
      (hnet : net ⊆ insert (.offer c d (e + 1)) s.net) :
      Step s (.cross c)
        (s.set c { s.peer c with holds := some (e + 1), offer := some (d, e + 1) } net)
  | resend {c d : ι} {e : UInt32} {net : Set (Packet ι)} (out : (s.peer c).offer = some (d, e))
      (hnet : net ⊆ insert (.offer c d e) s.net) : Step s (.resend c) ⟨s.peer, net⟩
  | abandon {c d : ι} {e : UInt32} (out : (s.peer c).offer = some (d, e)) :
      Step s (.abandon c) (s.set c { s.peer c with offer := none } s.net)
  | expire {c : ι} (hold : (s.peer c).holds = none) :
      Step s (.expire c) (s.set c { s.peer c with offer := none } s.net)
  | accept {a d : ι} {e : UInt32} {net : Set (Packet ι)} (hin : .offer a d e ∈ s.net)
      (hnew : ¬ (s.peer d).ledger.Knows e) (hnet : net ⊆ insert (.accept d a e) s.net) :
      Step s (.accept a d e)
        (s.set d { s.peer d with
          queue := e ::ₘ (s.peer d).queue, ledger := (s.peer d).ledger.accept e } net)
  | reack {a d : ι} {e : UInt32} {net : Set (Packet ι)} (hin : .offer a d e ∈ s.net)
      (hold : (s.peer d).ledger.Knows e) (hnet : net ⊆ insert (.accept d a e) s.net) :
      Step s (.reack a d e) ⟨s.peer, net⟩
  | arm {a d : ι} {e : UInt32} {net : Set (Packet ι)} (hin : .accept d a e ∈ s.net)
      (out : (s.peer a).offer = some (d, e)) (hnet : net ⊆ s.net) :
      Step s (.arm a)
        (s.set a { s.peer a with offer := none, armed := (s.peer a).armed + 1 } net)
  | release {c : ι} {k : ℕ} (calm : (s.peer c).armed = k + 1)
      (hold : (s.peer c).holds ≠ none) :
      Step s (.release c)
        (s.set c { s.peer c with
          holds := none, armed := k, ledger := (s.peer c).ledger.forget } s.net)
  | disarm {c : ι} {k : ℕ} (calm : (s.peer c).armed = k + 1) (hold : (s.peer c).holds = none) :
      Step s (.release c) (s.set c { s.peer c with armed := k } s.net)
  | take {c : ι} {e : UInt32} {q : Multiset UInt32} (hq : (s.peer c).queue = e ::ₘ q)
      (hold : (s.peer c).holds = none) :
      Step s (.take c) (s.set c { s.peer c with holds := some e, queue := q } s.net)
  | absorb {c : ι} {e : UInt32} {q : Multiset UInt32} (hq : (s.peer c).queue = e ::ₘ q)
      (hold : (s.peer c).holds ≠ none) :
      Step s (.absorb c) (s.set c { s.peer c with queue := q } s.net)
  | lose {net : Set (Packet ι)} (hnet : net ⊆ s.net) : Step s .lose ⟨s.peer, net⟩

lemma Config.forall_set {P : Peer ι → Prop} {s : Config ι} {c : ι} {p : Peer ι}
    {net : Set (Packet ι)} (h : ∀ c', P (s.peer c')) (hp : P p) (c' : ι) :
    P ((s.set c p net).peer c') := by
  by_cases hc : c' = c
  · rwa [hc, Config.set_peer_self]
  · rw [Config.set_peer_of_ne hc]
    exact h c'

lemma Config.set_congr {β : Type*} (f : Peer ι → β) {s : Config ι} {c c' : ι} {p : Peer ι}
    {net : Set (Packet ι)} (hp : f p = f (s.peer c)) :
    f ((s.set c p net).peer c') = f (s.peer c') := by
  by_cases hc : c' = c
  · rw [hc, Config.set_peer_self, hp]
  · rw [Config.set_peer_of_ne hc]

end Steps

def Config.Held (s : Config ι) : Prop :=
  ∃ c, (s.peer c).holds ≠ none ∨ (s.peer c).queue ≠ 0

/-- One party has the authority, and nothing is under way. -/
structure Config.Fresh (s : Config ι) (owner : ι) (b : UInt32) : Prop where
  holds_owner : (s.peer owner).holds = some b
  holds_other : ∀ c ≠ owner, (s.peer c).holds = none
  offer : ∀ c, (s.peer c).offer = none
  armed : ∀ c, (s.peer c).armed = 0
  queue : ∀ c, (s.peer c).queue = 0
  ledger : ∀ c, (s.peer c).ledger = .empty
  net : s.net = ∅

/-- No queued authority is dropped, and the epochs stay in the window that starts at `b`. -/
def Orderly (b : UInt32) (s : Config ι) : Act ι → Prop
  | .cross c => ∀ e, (s.peer c).holds = some e → offset b e + 1 < 0x80000000
  | .absorb _ => False
  | _ => True

/-! ### What holds of every peer by itself -/

/-- The facts about one peer that no step breaks, as long as the run is orderly. -/
structure Peer.Regular (b : UInt32) (p : Peer ι) : Prop where
  offer_holds : ∀ {d e}, p.offer = some (d, e) → p.holds = some e
  armed_holds : p.armed ≠ 0 → p.holds ≠ none
  armed_le : p.armed ≤ 1
  armed_of_offer : p.offer ≠ none → p.armed = 0
  holds_window : ∀ {e}, p.holds = some e → InWindow b e
  queue_window : ∀ e ∈ p.queue, InWindow b e
  ledger_sound : p.ledger.Sound
  ledger_window : p.ledger.Within b

/-- All epochs can be compared. -/
structure Config.Regular (b : UInt32) (s : Config ι) : Prop where
  peer : ∀ c, (s.peer c).Regular b
  net : ∀ {a d e}, .offer a d e ∈ s.net → InWindow b e

def Peer.Engaged (p : Peer ι) : Prop := p.offer ≠ none ∨ p.armed ≠ 0

lemma Peer.Regular.not_engaged {b : UInt32} {p : Peer ι} (h : p.Regular b)
    (hold : p.holds = none) : p.offer = none ∧ p.armed = 0 := by
  constructor
  · by_contra hne
    obtain ⟨⟨d, e⟩, hoff⟩ := Option.ne_none_iff_exists'.mp hne
    simp [h.offer_holds hoff] at hold
  · by_contra hne
    exact h.armed_holds hne hold

lemma Config.Fresh.regular {s : Config ι} {owner : ι} {b : UInt32} (h : s.Fresh owner b) :
    s.Regular b where
  peer c := by
    refine ⟨?_, ?_, ?_, ?_, fun he => ?_, ?_, ?_, ?_⟩
    · simp [h.offer c]
    · simp [h.armed c]
    · simp [h.armed c]
    · simp [h.offer c]
    · by_cases hc : c = owner
      · rw [hc, h.holds_owner, Option.some.injEq] at he
        exact he ▸ inWindow_self b
      · simp [h.holds_other c hc] at he
    · simp [h.queue c]
    · exact h.ledger c ▸ Ledger.sound_empty
    · simp [h.ledger c, Ledger.Within]
  net h' := by simp [h.net] at h'

section Regular

variable [DecidableEq ι] {b : UInt32} {s t : Config ι} {act : Act ι}

lemma Config.Regular.set (h : s.Regular b) {c : ι} {p : Peer ι} {net : Set (Packet ι)}
    (hp : p.Regular b) (hnet : ∀ {a d e}, .offer a d e ∈ net → InWindow b e) :
    (s.set c p net).Regular b :=
  ⟨Config.forall_set h.peer hp, hnet⟩

lemma inWindow_succ {e : UInt32} (h : offset b e + 1 < 0x80000000) : InWindow b (e + 1) := by
  rw [InWindow, offset_succ h]
  exact h

theorem Config.Regular.step (h : s.Regular b) (hact : Orderly b s act) (hstep : Step s act t) :
    t.Regular b := by
  cases hstep with
  | @cross c d e net hold idle calm hnet =>
    have hwin := inWindow_succ (hact e hold)
    have hc := h.peer c
    refine h.set ⟨?_, ?_, hc.armed_le, fun _ => calm, ?_, hc.queue_window, hc.ledger_sound,
      hc.ledger_window⟩ fun hin => ?_
    · rintro _ _ ⟨⟩
      rfl
    · intro _
      simp
    · rintro _ ⟨⟩
      exact hwin
    rcases hnet hin with heq | hin
    · cases heq
      exact hwin
    · exact h.net hin
  | @resend c d e net out hnet =>
    refine ⟨h.peer, fun hin => ?_⟩
    rcases hnet hin with heq | hin
    · cases heq
      exact (h.peer c).holds_window ((h.peer c).offer_holds out)
    · exact h.net hin
  | @abandon c d e out =>
    have hc := h.peer c
    exact h.set ⟨nofun, hc.armed_holds, hc.armed_le, fun hn => absurd rfl hn, hc.holds_window,
      hc.queue_window, hc.ledger_sound, hc.ledger_window⟩ h.net
  | @expire c hold =>
    have hc := h.peer c
    exact h.set ⟨nofun, hc.armed_holds, hc.armed_le, fun hn => absurd rfl hn, hc.holds_window,
      hc.queue_window, hc.ledger_sound, hc.ledger_window⟩ h.net
  | @accept a d e net hin hnew hnet =>
    have hd := h.peer d
    have hwin := h.net hin
    refine h.set ⟨hd.offer_holds, hd.armed_holds, hd.armed_le, hd.armed_of_offer, hd.holds_window,
      fun x hx => ?_, hd.ledger_sound.accept, hd.ledger_window.accept hwin⟩ fun hin' => ?_
    · rcases Multiset.mem_cons.mp hx with rfl | hx
      · exact hwin
      · exact hd.queue_window x hx
    · rcases hnet hin' with heq | hin'
      · cases heq
      · exact h.net hin'
  | @reack a d e net hin hold hnet =>
    refine ⟨h.peer, fun hin' => ?_⟩
    rcases hnet hin' with heq | hin'
    · cases heq
    · exact h.net hin'
  | @arm a d e net hin out hnet =>
    have ha := h.peer a
    have hzero : (s.peer a).armed = 0 := ha.armed_of_offer (by simp [out])
    refine h.set ⟨nofun, fun _ => ?_, ?_, fun hn => absurd rfl hn, ha.holds_window,
      ha.queue_window, ha.ledger_sound, ha.ledger_window⟩ fun hin' => h.net (hnet hin')
    · simp [ha.offer_holds out]
    · simp [hzero]
  | @release c k calm hold =>
    have hc := h.peer c
    have hk : k = 0 := by
      have := hc.armed_le
      omega
    have hoff : (s.peer c).offer = none := by
      by_contra hne
      simp [hc.armed_of_offer hne] at calm
    exact h.set ⟨by simp [hoff], by simp [hk], by simp [hk], by simp [hoff], nofun,
      hc.queue_window, Ledger.sound_forget, hc.ledger_window⟩ h.net
  | @disarm c k calm hold =>
    exact absurd hold ((h.peer c).armed_holds (by simp [calm]))
  | @take c e q hq hold =>
    have hc := h.peer c
    obtain ⟨hoff, -⟩ := hc.not_engaged hold
    have hmem : ∀ x ∈ e ::ₘ q, InWindow b x := hq ▸ hc.queue_window
    refine h.set ⟨by simp [hoff], by simp, hc.armed_le, by simp [hoff], ?_,
      fun x hx => hmem x (Multiset.mem_cons_of_mem hx), hc.ledger_sound, hc.ledger_window⟩ h.net
    rintro _ ⟨⟩
    exact hmem e (Multiset.mem_cons_self e q)
  | absorb hq hold => exact hact.elim
  | lose hnet => exact ⟨h.peer, fun hin => h.net (hnet hin)⟩

end Regular

/-! ### The authority never disappears

A peer that holds the authority under the epoch `e` and a queued authority of epoch `e` both bid
for its continuation. A bid counts twice the offset of `e`, and one more unless it comes from a
holder that has offered the authority on. The highest bid never falls, since a release needs an
acceptance, and an acceptance needs a higher bid at the other end. -/

section Kept

variable {b : UInt32} {s t : Config ι} {act : Act ι} {w : ℕ}

def Peer.Bids (b : UInt32) (p : Peer ι) (w : ℕ) : Prop :=
  (∃ e, p.holds = some e ∧ (w ≤ 2 * offset b e ∨ ¬ p.Engaged ∧ w ≤ 2 * offset b e + 1)) ∨
    ∃ e ∈ p.queue, w ≤ 2 * offset b e + 1

def Config.Bids (b : UInt32) (s : Config ι) (w : ℕ) : Prop := ∃ c, (s.peer c).Bids b w

/-- What may lead this peer to a release, or to an acceptance, is outbid: `B w` says that somebody
bids at least `w`. -/
structure Peer.Outbid (b : UInt32) (B : ℕ → Prop) (p : Peer ι) : Prop where
  armed : ∀ {e}, p.armed ≠ 0 → p.holds = some e → B (2 * offset b e + 1)
  mark : ∀ {m}, p.ledger.mark = some m → B (2 * offset b m + 1)

/-- Whatever may lead to a release is outbid already. -/
structure Kept (b : UInt32) (s : Config ι) : Prop where
  regular : s.Regular b
  start : s.Bids b 1
  peer : ∀ c, (s.peer c).Outbid b (s.Bids b)
  accept : ∀ {d a e}, .accept d a e ∈ s.net → s.Bids b (2 * offset b e + 1)

lemma Peer.Outbid.mono {B B' : ℕ → Prop} {p : Peer ι} (h : p.Outbid b B)
    (hB : ∀ {w}, B w → B' w) : p.Outbid b B' :=
  ⟨fun hne he => hB (h.armed hne he), fun hm => hB (h.mark hm)⟩

lemma Config.Bids.anti {v : ℕ} (h : s.Bids b w) (hv : v ≤ w) : s.Bids b v := by
  obtain ⟨c, ⟨e, he, hw | ⟨hn, hw⟩⟩ | ⟨e, he, hw⟩⟩ := h
  · exact ⟨c, .inl ⟨e, he, .inl (hv.trans hw)⟩⟩
  · exact ⟨c, .inl ⟨e, he, .inr ⟨hn, hv.trans hw⟩⟩⟩
  · exact ⟨c, .inr ⟨e, he, hv.trans hw⟩⟩

lemma Peer.Bids.disengage {p q : Peer ι} (h : p.Bids b w) (hh : q.holds = p.holds)
    (hq : q.queue = p.queue) (he : q.Engaged → p.Engaged) : q.Bids b w := by
  rcases h with ⟨e, hpe, hw⟩ | ⟨e, hmem, hw⟩
  · refine .inl ⟨e, hh ▸ hpe, ?_⟩
    rcases hw with hw | ⟨hn, hw⟩
    · exact .inl hw
    · exact .inr ⟨mt he hn, hw⟩
  · exact .inr ⟨e, hq ▸ hmem, hw⟩

lemma Config.Fresh.kept {owner : ι} (h : s.Fresh owner b) : Kept b s where
  regular := h.regular
  start := ⟨owner, .inl ⟨b, h.holds_owner, .inr
    ⟨by simp [Peer.Engaged, h.offer, h.armed], by simp⟩⟩⟩
  peer c := ⟨fun hne => by simp [h.armed] at hne, fun hm => by simp [h.ledger, Ledger.empty] at hm⟩
  accept h' := by simp [h.net] at h'

lemma Kept.held (h : Kept b s) : s.Held := by
  obtain ⟨c, ⟨e, he, -⟩ | ⟨e, he, -⟩⟩ := h.start
  · exact ⟨c, .inl (by simp [he])⟩
  · exact ⟨c, .inr fun h0 => by simp [h0] at he⟩

variable [DecidableEq ι]

lemma Config.Bids.set (h : s.Bids b w) {c : ι} {p : Peer ι} {net : Set (Packet ι)}
    (hp : (s.peer c).Bids b w → p.Bids b w) : (s.set c p net).Bids b w := by
  obtain ⟨c', hc'⟩ := h
  refine ⟨c', ?_⟩
  by_cases hc : c' = c
  · subst hc
    rw [Config.set_peer_self]
    exact hp hc'
  · rwa [Config.set_peer_of_ne hc]

/-- A release that is outbid lowers no bid that matters: the higher bid stands elsewhere. -/
lemma Kept.bids_release (h : Kept b s) {c : ι} {k : ℕ} (calm : (s.peer c).armed = k + 1)
    (hw : s.Bids b w) :
    (s.set c { s.peer c with
      holds := none, armed := k, ledger := (s.peer c).ledger.forget } s.net).Bids b w := by
  have hne : (s.peer c).armed ≠ 0 := by simp [calm]
  obtain ⟨e, he⟩ := Option.ne_none_iff_exists'.mp ((h.regular.peer c).armed_holds hne)
  -- the bid `v` is at least `w`, and it is not what `c` bids as a holder
  have key : ∀ v, w ≤ v → 2 * offset b e + 1 ≤ v → s.Bids b v →
      (s.set c { s.peer c with
        holds := none, armed := k, ledger := (s.peer c).ledger.forget } s.net).Bids b w := by
    rintro v hwv hev ⟨c', hc'⟩
    by_cases hc : c' = c
    · subst hc
      rcases hc' with ⟨x, hx, hb⟩ | ⟨x, hx, hb⟩
      · obtain rfl : e = x := by simpa [he] using hx
        rcases hb with hb | ⟨hn, -⟩
        · omega
        · exact absurd (.inr hne) hn
      · refine ⟨c', ?_⟩
        rw [Config.set_peer_self]
        exact .inr ⟨x, hx, hwv.trans hb⟩
    · refine (Config.Bids.anti (w := v) ⟨c', ?_⟩ hwv)
      rwa [Config.set_peer_of_ne hc]
  have hhigh := (h.peer c).armed hne he
  rcases Nat.le_total w (2 * offset b e + 1) with hle | hle
  · exact key _ hle (Nat.le_refl _) hhigh
  · exact key _ (Nat.le_refl _) hle hw

theorem Kept.bids_step (h : Kept b s) (hact : Orderly b s act) (hstep : Step s act t)
    (hw : s.Bids b w) : t.Bids b w := by
  cases hstep with
  | @cross c d e net hold idle calm hnet =>
    refine hw.set fun hp => ?_
    have hsucc : offset b (e + 1) = offset b e + 1 := offset_succ (hact e hold)
    rcases hp with ⟨x, hx, hb⟩ | hq
    · obtain rfl : e = x := by simpa [hold] using hx
      refine .inl ⟨e + 1, rfl, .inl ?_⟩
      omega
    · exact .inr hq
  | resend out hnet => exact hw
  | abandon out =>
    exact hw.set fun hp => hp.disengage rfl rfl fun he => .inr (he.resolve_left (by simp))
  | expire hold =>
    exact hw.set fun hp => hp.disengage rfl rfl fun he => .inr (he.resolve_left (by simp))
  | accept hin hnew hnet =>
    refine hw.set fun hp => ?_
    rcases hp with hp | ⟨x, hx, hb⟩
    · exact .inl hp
    · exact .inr ⟨x, Multiset.mem_cons_of_mem hx, hb⟩
  | reack hin hold hnet => exact hw
  | arm hin out hnet =>
    exact hw.set fun hp => hp.disengage rfl rfl fun _ => .inl (by simp [out])
  | release calm hold => exact h.bids_release calm hw
  | disarm calm hold => exact absurd hold ((h.regular.peer _).armed_holds (by simp [calm]))
  | @take c e q hq hold =>
    obtain ⟨hoff, harm⟩ := (h.regular.peer c).not_engaged hold
    refine hw.set fun hp => ?_
    rcases hp with ⟨x, hx, hb⟩ | ⟨x, hx, hb⟩
    · simp [hold] at hx
    rw [hq] at hx
    rcases Multiset.mem_cons.mp hx with rfl | hx
    · exact .inl ⟨x, rfl, .inr ⟨by simp [Peer.Engaged, hoff, harm], hb⟩⟩
    · exact .inr ⟨x, hx, hb⟩
  | absorb hq hold => exact hact.elim
  | lose hnet => exact hw

lemma Kept.accept_step (h : Kept b s) (hact : Orderly b s act) (hstep : Step s act t) {d a : ι}
    {e : UInt32} (hin : .accept d a e ∈ t.net) : t.Bids b (2 * offset b e + 1) := by
  have old : .accept d a e ∈ s.net → t.Bids b (2 * offset b e + 1) :=
    fun hin => h.bids_step hact hstep (h.accept hin)
  cases hstep with
  | cross hold idle calm hnet => exact old ((hnet hin).resolve_left (by simp))
  | resend out hnet => exact old ((hnet hin).resolve_left (by simp))
  | accept hoff hnew hnet =>
    rcases hnet hin with heq | hin
    · cases heq
      exact ⟨d, .inr ⟨e, by simp, Nat.le_refl _⟩⟩
    · exact old hin
  | reack hoff hold hnet =>
    rcases hnet hin with heq | hin
    · -- the repeat is not newer than the mark, and the mark is outbid
      cases heq
      obtain ⟨m, hm, hem⟩ := hold
      have hd := h.regular.peer d
      rw [not_after_iff (h.regular.net hoff) (hd.ledger_window m (hd.ledger_sound.mark_mem hm))]
        at hem
      exact ((h.peer d).mark hm).anti (by omega)
    · exact old hin
  | arm hacc out hnet => exact old (hnet hin)
  | lose hnet => exact old (hnet hin)
  | absorb => exact hact.elim
  | abandon | expire | release | disarm | take => exact old hin

theorem Kept.step (h : Kept b s) (hact : Orderly b s act) (hstep : Step s act t) : Kept b t := by
  have hbids : ∀ {w}, s.Bids b w → t.Bids b w := fun hw => h.bids_step hact hstep hw
  have hpeer : ∀ c, (s.peer c).Outbid b (t.Bids b) := fun c => (h.peer c).mono hbids
  refine ⟨h.regular.step hact hstep, hbids h.start, ?_, h.accept_step hact hstep⟩
  cases hstep with
  | @cross c d e net hold idle calm hnet =>
    exact Config.forall_set hpeer ⟨fun hne => absurd calm hne, (hpeer c).mark⟩
  | resend => exact hpeer
  | @abandon c => exact Config.forall_set hpeer ⟨(hpeer c).armed, (hpeer c).mark⟩
  | @expire c => exact Config.forall_set hpeer ⟨(hpeer c).armed, (hpeer c).mark⟩
  | @accept a d e net hin hnew hnet =>
    refine Config.forall_set hpeer ⟨(hpeer d).armed, ?_⟩
    rintro m ⟨⟩
    exact ⟨d, .inr ⟨e, by simp, Nat.le_refl _⟩⟩
  | reack => exact hpeer
  | @arm a d e net hin out hnet =>
    refine Config.forall_set hpeer ⟨fun _ he => ?_, (hpeer a).mark⟩
    have hold := (h.regular.peer a).offer_holds out
    obtain rfl : e = _ := Option.some.inj (hold.symm.trans he)
    exact hbids (h.accept hin)
  | release => exact Config.forall_set hpeer ⟨fun _ he => by simp at he, fun hm => by simp at hm⟩
  | disarm calm hold => exact absurd hold ((h.regular.peer _).armed_holds (by simp [calm]))
  | @take c e q hq hold =>
    obtain ⟨-, harm⟩ := (h.regular.peer c).not_engaged hold
    exact Config.forall_set hpeer ⟨fun hne => absurd harm hne, (hpeer c).mark⟩
  | absorb => exact hact.elim
  | lose => exact hpeer

/-- **The authority survives every orderly run.** -/
theorem Kept.run {owner : ι} (h₀ : s.Fresh owner b) (h : Run Step (Orderly b) s t) : t.Held :=
  (h.invariant h₀.kept fun hI hK hR => hI.step hK hR).held

end Kept

end Handover
