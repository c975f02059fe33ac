/-
The protocol of a handoff, as one netID sees it at its source.

A handoff is offered, accepted, taken by a tick and then demoted; until it is taken it may be
cancelled, and an offer may be given up. `Status.next` is this protocol, without the maps that the
source keeps; `Legal` is the set of histories that obey it.
-/
import Mathlib.Data.List.Induction
import Mmokit.Universe.NetIDIndex

namespace Mmokit

open List

structure Handoff (M : Type*) where
  netID : NetID
  epoch : Epoch
  commitTick : UInt64
  destCellID : M
deriving DecidableEq

inductive HandoffEvent (M : Type*)
  /-- The handoff is sent to its destination. -/
  | offered (h : Handoff M)
  /-- A message of acceptance comes in, from any cell and about any handoff. -/
  | acked (netID : NetID) (epoch : Epoch) (commitTick : UInt64) (fromCellID : M)
  /-- The offer is given up: the entity is gone, or the destination is. -/
  | abandoned (netID : NetID)
  /-- The merge orchestrator cancels what goes to these cells. -/
  | cancelled (destCellIDs : List M)
  /-- A tick takes the demotes that are due. -/
  | taken (tick : UInt64)
  /-- The entity is demoted. -/
  | demoted (netID : NetID) (destCellID : M) (tick : UInt64)
deriving DecidableEq

inductive HandoffStatus (M : Type*)
  | idle
  | offered (h : Handoff M)
  | accepted (h : Handoff M)
  | taken (h : Handoff M) (tick : UInt64)
deriving DecidableEq

namespace HandoffStatus

variable {M : Type*} [DecidableEq M] {n : NetID}

/-- **The protocol.** Only a message that agrees with the offer in all parts is its acceptance, and
a cancellation reaches what no tick has taken. -/
def next (n : NetID) (s : HandoffStatus M) : HandoffEvent M → HandoffStatus M
  | .offered h => if h.netID = n then offered h else s
  | .acked netID epoch commitTick fromCellID =>
    match s with
    | offered h =>
      if netID = n ∧ h = ⟨netID, epoch, commitTick, fromCellID⟩ then accepted h else offered h
    | s => s
  | .abandoned netID =>
    match s with
    | offered h => if netID = n then idle else offered h
    | s => s
  | .cancelled destCellIDs =>
    match s with
    | offered h => if h.destCellID ∈ destCellIDs then idle else offered h
    | accepted h => if h.destCellID ∈ destCellIDs then idle else accepted h
    | s => s
  | .taken tick =>
    match s with
    | accepted h => if h.commitTick ≤ tick then taken h tick else accepted h
    | s => s
  | .demoted netID _ _ => if netID = n then idle else s

def after (n : NetID) (events : List (HandoffEvent M)) : HandoffStatus M :=
  events.foldl (next n) idle

@[simp] lemma after_nil : after n ([] : List (HandoffEvent M)) = idle := rfl
@[simp] lemma after_concat (events : List (HandoffEvent M)) (e : HandoffEvent M) :
    after n (events ++ [e]) = next n (after n events) e := by
  rw [after, foldl_append]
  rfl

end HandoffStatus

/-- What the protocol allows after a history: offers when nothing is outstanding, and the demote of
a handoff that a tick, at or after its commit tick, has taken. -/
def HandoffEvent.Allowed {M : Type*} [DecidableEq M]
    (events : List (HandoffEvent M)) : HandoffEvent M → Prop
  | .offered h => HandoffStatus.after h.netID events = .idle
  | .demoted netID destCellID tick =>
    ∃ h, HandoffStatus.after netID events = .taken h tick ∧ h.netID = netID ∧
      h.destCellID = destCellID ∧ h.commitTick ≤ tick
  | .acked _ _ _ _ | .abandoned _ | .cancelled _ | .taken _ => True

/-- The histories that obey the protocol. -/
inductive Legal {M : Type*} [DecidableEq M] : List (HandoffEvent M) → Prop
  | nil : Legal []
  | concat {events : List (HandoffEvent M)} {e : HandoffEvent M} :
    Legal events → e.Allowed events → Legal (events ++ [e])

/-! ### Reading a status back from the history -/

namespace HandoffEvent

variable {M : Type*}

def Cancels (d : M) : HandoffEvent M → Prop
  | cancelled destCellIDs => d ∈ destCellIDs
  | offered _ | acked _ _ _ _ | abandoned _ | taken _ | demoted _ _ _ => False

def Demotes (n : NetID) : HandoffEvent M → Prop
  | demoted netID _ _ => netID = n
  | offered _ | acked _ _ _ _ | abandoned _ | taken _ | cancelled _ => False

end HandoffEvent

section History

variable {M : Type*} {n : NetID} {h : Handoff M}
  {events before mid : List (HandoffEvent M)} {e : HandoffEvent M} {t : UInt64}

/-- The history in which `h` was offered and then accepted by a matching message, with
`mid` since. -/
structure AcceptedIn (h : Handoff M) (before mid events : List (HandoffEvent M)) :
    Prop where
  split : events = before ++ .acked h.netID h.epoch h.commitTick h.destCellID :: mid
  offered : .offered h ∈ before

/-- **A demote that was due to it**: its handoff was offered and accepted by a matching message, a
tick not before the commit tick took it, no cancellation reached it before that, and it was not
demoted since. -/
def Matched (events : List (HandoffEvent M)) (n : NetID) (d : M) (t : UInt64) : Prop :=
  ∃ h : Handoff M, h.netID = n ∧ h.destCellID = d ∧ h.commitTick ≤ t ∧
    ∃ before mid later, AcceptedIn h before (mid ++ .taken t :: later) events ∧
      (∀ e ∈ mid, ¬ e.Cancels d) ∧ ∀ e ∈ mid ++ later, ¬ e.Demotes n

lemma AcceptedIn.concat (hin : AcceptedIn h before mid events) (e : HandoffEvent M) :
    AcceptedIn h before (mid ++ [e]) (events ++ [e]) :=
  ⟨by rw [hin.split, append_assoc, cons_append], hin.offered⟩

/-- What a status says about the history. -/
def HandoffStatus.Explained (n : NetID) (events : List (HandoffEvent M)) :
    HandoffStatus M → Prop
  | idle => True
  | offered h => h.netID = n ∧ .offered h ∈ events
  | accepted h => h.netID = n ∧ ∃ before mid, AcceptedIn h before mid events ∧
      ∀ e ∈ mid, ¬ e.Cancels h.destCellID ∧ ¬ e.Demotes n
  | taken h t => h.netID = n ∧ Matched events n h.destCellID t

lemma Matched.concat {d : M} (hm : Matched events n d t) (he : ¬ e.Demotes n) :
    Matched (events ++ [e]) n d t := by
  obtain ⟨h, hn, hd, ht, before, mid, later, hin, hcancel, hdemote⟩ := hm
  refine ⟨h, hn, hd, ht, before, mid, later ++ [e], ?_, hcancel, ?_⟩
  · simpa using hin.concat e
  intro e' he'
  rw [← append_assoc, mem_append, mem_singleton] at he'
  rcases he' with he' | rfl
  · exact hdemote e' he'
  · exact he

lemma HandoffStatus.Explained.concat {s : HandoffStatus M} (hs : s.Explained n events)
    (hcancel : ∀ h, s = .accepted h → ¬ e.Cancels h.destCellID) (hdemote : ¬ e.Demotes n) :
    s.Explained n (events ++ [e]) := by
  cases s with
  | idle => trivial
  | offered h => exact ⟨hs.1, mem_append_left _ hs.2⟩
  | accepted h =>
    obtain ⟨hn, before, mid, hin, hmid⟩ := hs
    refine ⟨hn, before, mid ++ [e], hin.concat e, ?_⟩
    intro e' he'
    rcases mem_append.mp he' with he' | he'
    · exact hmid e' he'
    · rw [mem_singleton.mp he']
      exact ⟨hcancel h rfl, hdemote⟩
  | taken h t => exact ⟨hs.1, hs.2.concat hdemote⟩

variable [DecidableEq M]

lemma HandoffStatus.explained_next {s : HandoffStatus M} (hs : s.Explained n events) :
    (s.next n e).Explained n (events ++ [e]) := by
  cases e with
  | offered h =>
    simp only [next]
    split
    · next hn => exact ⟨hn, mem_append_right _ (mem_singleton_self _)⟩
    · exact hs.concat (fun _ _ h => h) (fun h => h)
  | acked netID epoch commitTick fromCellID =>
    have hkeep := hs.concat (e := .acked netID epoch commitTick fromCellID)
      (fun _ _ h => h) (fun h => h)
    cases s with
    | offered h =>
      simp only [next]
      split
      · next hmatch =>
        obtain ⟨hn, rfl⟩ := hmatch
        exact ⟨hs.1, events, [], ⟨rfl, hs.2⟩, fun e he => by cases he⟩
      · exact hkeep
    | idle | accepted _ | taken _ _ => exact hkeep
  | abandoned netID =>
    have hkeep := hs.concat (e := .abandoned netID) (fun _ _ h => h) (fun h => h)
    cases s with
    | offered h =>
      simp only [next]
      split
      · trivial
      · exact hkeep
    | idle | accepted _ | taken _ _ => exact hkeep
  | cancelled destCellIDs =>
    cases s with
    | offered h =>
      simp only [next]
      split
      · trivial
      · exact hs.concat (fun _ h => by cases h) (fun h => h)
    | accepted h =>
      simp only [next]
      split
      · trivial
      · next hmem => exact hs.concat (fun h' heq => by cases heq; exact hmem) (fun h => h)
    | idle => trivial
    | taken h t => exact hs.concat (fun _ h => by cases h) (fun h => h)
  | taken tick =>
    cases s with
    | accepted h =>
      simp only [next]
      split
      · next hdue =>
        obtain ⟨hn, before, mid, hin, hmid⟩ := hs
        refine ⟨hn, h, hn, rfl, hdue, before, mid, [], hin.concat _, fun e he => (hmid e he).1, ?_⟩
        rw [append_nil]
        exact fun e he => (hmid e he).2
      · exact hs.concat (fun _ _ h => h) (fun h => h)
    | idle | offered _ | taken _ _ => exact hs.concat (fun _ _ h => h) (fun h => h)
  | demoted netID destCellID tick =>
    simp only [next]
    split
    · trivial
    · next hne => exact hs.concat (fun _ _ h => h) hne

lemma HandoffStatus.explained_after (n : NetID) (events : List (HandoffEvent M)) :
    (after n events).Explained n events := by
  induction events using reverseRecOn with
  | nil => trivial
  | append_singleton events e ih =>
    rw [after_concat]
    exact explained_next ih

/-- **In a legal history every demote is matched** by an acceptance of its own. -/
theorem Legal.matched {later : List (HandoffEvent M)} {d : M}
    (hlegal : Legal (events ++ .demoted n d t :: later)) : Matched events n d t := by
  generalize hall : events ++ .demoted n d t :: later = all at hlegal
  induction hlegal generalizing later with
  | nil => cases events <;> cases hall
  | @concat all e _ hallowed ih =>
    rcases eq_nil_or_concat later with rfl | ⟨later, e', rfl⟩
    · obtain ⟨rfl, he⟩ := append_inj' hall rfl
      cases he
      obtain ⟨h, hstatus, -, rfl, -⟩ := hallowed
      have hexplained := HandoffStatus.explained_after n events
      rw [hstatus] at hexplained
      exact hexplained.2
    · rw [concat_eq_append, ← cons_append, ← append_assoc] at hall
      exact ih (append_inj' hall rfl).1

end History

end Mmokit
