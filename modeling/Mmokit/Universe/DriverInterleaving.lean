/-
The handoff driver among acceptances and cancellations.

Cancellations come from the merge orchestrator, on another goroutine: the lock of the driver makes
each of them atomic, but they fall anywhere between the steps of a tick. In particular a tick first
takes its due demotes off the map and then runs them one by one, and a cancellation in between no
longer reaches them.
-/
import Mmokit.Library.Runs
import Mmokit.Universe.HandoffDriver
import Mmokit.Universe.HandoffProtocol

namespace Mmokit

open List HandoffStatus AList HandoffDriver

/-- A repeat that a tick is about to send: the `retryTarget` of `retryInflight`. -/
structure RetryTarget (M : Type*) where
  netID : NetID
  entry : InflightHandoff M
deriving DecidableEq

def InflightHandoff.handoff {M : Type*} (entry : InflightHandoff M) (netID : NetID) :
    Handoff M :=
  ⟨netID, entry.epoch, entry.commitTick, entry.destCellID⟩

namespace HandoffDriver

variable {M : Type*} [DecidableEq M] (hd : HandoffDriver M)

def retryTargets (currentClusterTick : UInt64) : List (RetryTarget M) :=
  (hd.inflight.entries.filter fun x => x.2.nextRetryTick ≤ currentClusterTick).map
    fun x => ⟨x.1, x.2⟩

/-- One repeat. The entry may have gone since the snapshot; it is then not put back. -/
def retryTarget (currentClusterTick : UInt64) (target : RetryTarget M) (sent : Bool) :
    HandoffDriver M :=
  if !hd.base.isLive target.netID then { hd with inflight := hd.inflight.erase target.netID }
  else if !sent then
    let hd₁ := { hd with inflight := hd.inflight.erase target.netID }
    hd₁.setLastHandoff target.netID target.entry.destCellID none
  else if hd.inflight.lookup target.netID = some target.entry then
    { hd with
      inflight := hd.inflight.insert target.netID (target.entry.retried currentClusterTick) }
  else hd

def keptInflight (destCellIDs : List M) : AList fun _ : NetID => InflightHandoff M :=
  ⟨hd.inflight.entries.filter (·.2.destCellID ∉ destCellIDs),
    hd.inflight.nodupKeys.sublist filter_sublist⟩

def cancelPendingDemotesTo (destCellIDs : List M) : HandoffDriver M × ℕ :=
  let kept := hd.pendingDemotes.filter (·.2.destCellID ∉ destCellIDs)
  ({ hd with inflight := hd.keptInflight destCellIDs, pendingDemotes := kept },
    hd.inflight.entries.countP (·.2.destCellID ∈ destCellIDs) +
      hd.pendingDemotes.countP (·.2.destCellID ∈ destCellIDs))

end HandoffDriver

inductive DriverPhase (M : Type*)
  | idle
  | retries (tick : UInt64) (due : List (RetryTarget M))
  | demotes (tick : UInt64) (due : List (PendingDemote M))
  | crossings (tick : UInt64) (events : List (CrossingEvent M))

def DriverPhase.due {M : Type*} :
    DriverPhase M → List (UInt64 × PendingDemote M)
  | demotes tick due => due.map fun d => (tick, d)
  | idle | retries _ _ | crossings _ _ => []

structure DriverState (M : Type*) where
  driver : HandoffDriver M
  phase : DriverPhase M
  events : List (HandoffEvent M)

inductive DriverStep (M : Type*)
  /-- The rest of the cell changes the stage. -/
  | stage (base : Stage M)
  | accept (netID : NetID) (epoch : Epoch) (commitTick : UInt64) (fromCellID : M)
  /-- The merge orchestrator. -/
  | cancel (destCellIDs : List M)
  | beginTick (tick : UInt64) (order : List (RetryTarget M))
  | retry (sent : Bool)
  | beginDemotes (order : List (PendingDemote M))
  | demote
  | beginCrossings
  | cross (sent : Bool)
  | endTick

namespace DriverState

variable {M : Type*} [DecidableEq M] {s s' : DriverState M}

def abandoned (hd : HandoffDriver M) (netID : NetID) (sent : Bool) :
    List (HandoffEvent M) :=
  if (hd.inflight.lookup netID).isSome ∧ (!hd.base.isLive netID || !sent) then [.abandoned netID]
  else []

def offered : List (M × CellMessage) → List (HandoffEvent M)
  | [(dest, .handoff p)] => [.offered ⟨p.netID, p.epoch, p.commitTick, dest⟩]
  | _ => []

omit [DecidableEq M] in
@[simp] lemma offered_nil : offered ([] : List (M × CellMessage)) = [] := rfl

def step (s : DriverState M) : DriverStep M → Option (DriverState M)
  | .stage base => some { s with driver := { s.driver with base } }
  | .accept netID epoch commitTick fromCellID =>
    some
      { s with
        driver := s.driver.onHandoffAccepted netID epoch commitTick fromCellID
        events := s.events ++ [.acked netID epoch commitTick fromCellID] }
  | .cancel destCellIDs =>
    some
      { s with
        driver := (s.driver.cancelPendingDemotesTo destCellIDs).1
        events := s.events ++ [.cancelled destCellIDs] }
  | .beginTick tick order =>
    match s.phase with
    | .idle =>
      if s.driver.base.drainingForMerge then
        -- the crossings are dropped, and the tick ends here
        some { s with driver := { s.driver with base := s.driver.base.drainCrossingQueue.2 } }
      else if order.isPerm (s.driver.retryTargets tick) then
        some { s with phase := .retries tick order }
      else none
    | _ => none
  | .retry sent =>
    match s.phase with
    | .retries tick (target :: rest) =>
      some ⟨s.driver.retryTarget tick target sent, .retries tick rest,
        s.events ++ abandoned s.driver target.netID sent⟩
    | _ => none
  | .beginDemotes order =>
    match s.phase with
    | .retries tick [] =>
      if order.isPerm (s.driver.takeDueDemotes tick).1 then
        some ⟨(s.driver.takeDueDemotes tick).2, .demotes tick order, s.events ++ [.taken tick]⟩
      else none
    | _ => none
  | .demote =>
    match s.phase with
    | .demotes tick (d :: rest) =>
      some ⟨s.driver.demoteOne d, .demotes tick rest,
        s.events ++ [.demoted d.netID d.destCellID tick]⟩
    | _ => none
  | .beginCrossings =>
    match s.phase with
    | .demotes tick [] =>
      let (events, base) := s.driver.base.drainCrossingQueue
      some { s with driver := { s.driver with base }, phase := .crossings tick events }
    | _ => none
  | .cross sent =>
    match s.phase with
    | .crossings tick (evt :: rest) =>
      let (hd, out) := s.driver.handleCrossing evt tick sent
      some ⟨hd, .crossings tick rest, s.events ++ offered out⟩
    | _ => none
  | .endTick =>
    match s.phase with
    | .crossings _ [] => some { s with phase := .idle }
    | _ => none

def start (base : Stage M) : DriverState M :=
  ⟨⟨base, ∅, [], fun _ _ => none⟩, .idle, []⟩

def demotesOf (n : NetID) (l : List (UInt64 × PendingDemote M)) :
    List (UInt64 × PendingDemote M) :=
  l.filter (·.2.netID = n)

/-- What the driver knows of one netID. -/
structure Slot (M : Type*) where
  inflight : Option (InflightHandoff M)
  pending : List (UInt64 × PendingDemote M)
  due : List (UInt64 × PendingDemote M)

def slot (s : DriverState M) (n : NetID) : Slot M :=
  ⟨s.driver.inflight.lookup n, demotesOf n s.driver.pendingDemotes, demotesOf n s.phase.due⟩

/-- The entries of a netID are those that its status in the protocol calls for. -/
def Slot.Tracks (n : NetID) (v : Slot M) : HandoffStatus M → Prop
  | .idle => v = ⟨none, [], []⟩
  | .offered h => ∃ entry, v = ⟨some entry, [], []⟩ ∧ h = entry.handoff n
  | .accepted h => h.netID = n ∧ ∃ conn, v = ⟨none, [(h.commitTick, ⟨n, h.destCellID, conn⟩)], []⟩
  | .taken h t => h.netID = n ∧ h.commitTick ≤ t ∧
    ∃ conn, v = ⟨none, [], [(t, ⟨n, h.destCellID, conn⟩)]⟩

/-- The maps follow the history. -/
structure Inv (s : DriverState M) : Prop where
  tracks : ∀ n, (s.slot n).Tracks n (after n s.events)
  legal : Legal s.events

omit [DecidableEq M] in
@[simp] lemma demotesOf_nil (n : NetID) :
    demotesOf n ([] : List (UInt64 × PendingDemote M)) = [] := rfl

omit [DecidableEq M] in
lemma demotesOf_append (n : NetID) (l l' : List (UInt64 × PendingDemote M)) :
    demotesOf n (l ++ l') = demotesOf n l ++ demotesOf n l' := filter_append _ _

omit [DecidableEq M] in
lemma demotesOf_filter (n : NetID) (p : UInt64 × PendingDemote M → Bool)
    (l : List (UInt64 × PendingDemote M)) :
    demotesOf n (l.filter p) = (demotesOf n l).filter p := filter_comm _ _ _

namespace Slot

variable {v : Slot M} {n : NetID} {st : HandoffStatus M}

omit [DecidableEq M]

lemma Tracks.of_inflight (h : v.Tracks n st) {entry : InflightHandoff M}
    (hv : v.inflight = some entry) :
    st = .offered (entry.handoff n) ∧ v = ⟨some entry, [], []⟩ := by
  cases st with
  | offered h' =>
    obtain ⟨entry', rfl, rfl⟩ := h
    cases hv
    exact ⟨rfl, rfl⟩
  | idle =>
    cases (h : v = _)
    cases hv
  | accepted h' =>
    obtain ⟨-, conn, rfl⟩ := h
    cases hv
  | taken h' t =>
    obtain ⟨-, -, conn, rfl⟩ := h
    cases hv

lemma Tracks.of_due (h : v.Tracks n st) {x : UInt64 × PendingDemote M}
    {rest : List (UInt64 × PendingDemote M)} (hv : v.due = x :: rest) :
    ∃ h' : Handoff M, st = .taken h' x.1 ∧ h'.netID = n ∧ h'.destCellID = x.2.destCellID ∧
      h'.commitTick ≤ x.1 ∧ v = ⟨none, [], [x]⟩ := by
  cases st with
  | taken h' t =>
    obtain ⟨hn, ht, conn, rfl⟩ := h
    cases hv
    exact ⟨h', rfl, hn, rfl, ht, rfl⟩
  | idle =>
    cases (h : v = _)
    cases hv
  | offered h' =>
    obtain ⟨entry, rfl, -⟩ := h
    cases hv
  | accepted h' =>
    obtain ⟨-, conn, rfl⟩ := h
    cases hv

lemma Tracks.of_none (h : v.Tracks n st) (hinflight : v.inflight = none) (hpending : v.pending = [])
    (hdue : v.due = []) : st = .idle ∧ v = ⟨none, [], []⟩ := by
  cases st with
  | idle => exact ⟨rfl, h⟩
  | offered h' =>
    obtain ⟨entry, rfl, -⟩ := h
    cases hinflight
  | accepted h' =>
    obtain ⟨-, conn, rfl⟩ := h
    cases hpending
  | taken h' t =>
    obtain ⟨-, -, conn, rfl⟩ := h
    cases hdue

end Slot

variable {netID : NetID}

lemma onHandoffAccepted_of_ne (hd : HandoffDriver M) {epoch : Epoch} {commitTick : UInt64}
    {fromCellID : M}
    (h : ∀ entry ∈ hd.inflight.lookup netID,
      entry.handoff netID ≠ ⟨netID, epoch, commitTick, fromCellID⟩) :
    hd.onHandoffAccepted netID epoch commitTick fromCellID = hd := by
  unfold onHandoffAccepted
  split
  · rfl
  next entry hentry =>
  refine if_pos ?_
  by_contra hmatch
  push Not at hmatch
  refine h entry hentry ?_
  rw [InflightHandoff.handoff, hmatch.1, hmatch.2.1, hmatch.2.2]

def armed (hd : HandoffDriver M) (netID : NetID) (entry : InflightHandoff M) :
    HandoffDriver M :=
  let hd₁ : HandoffDriver M :=
    { hd with
      inflight := hd.inflight.erase netID
      pendingDemotes :=
        hd.pendingDemotes ++ [(entry.commitTick, ⟨netID, entry.destCellID, entry.connID⟩)] }
  hd₁.setLastHandoff netID entry.destCellID (some entry.commitTick)

lemma onHandoffAccepted_of_eq (hd : HandoffDriver M) {entry : InflightHandoff M}
    (h : hd.inflight.lookup netID = some entry) :
    hd.onHandoffAccepted netID entry.epoch entry.commitTick entry.destCellID =
      armed hd netID entry := by
  simp [onHandoffAccepted, h, armed]

variable {n : NetID}

lemma slot_armed_of_ne (hn : netID ≠ n) (entry : InflightHandoff M) :
    slot { s with driver := armed s.driver netID entry } n = s.slot n := by
  simp only [slot, armed, setLastHandoff, lookup_erase_ne (Ne.symm hn),
    demotesOf_append]
  simp [demotesOf, hn]

lemma tracks_accept (h : s.Inv) (netID : NetID) (epoch : Epoch) (commitTick : UInt64)
    (fromCellID : M) (n : NetID) :
    Slot.Tracks n
      (slot { s with driver := s.driver.onHandoffAccepted netID epoch commitTick fromCellID } n)
      (HandoffStatus.next n (after n s.events)
        (.acked netID epoch commitTick fromCellID)) := by
  have htracks := h.tracks n
  by_cases hmatch : ∃ entry ∈ s.driver.inflight.lookup netID,
      entry.handoff netID = ⟨netID, epoch, commitTick, fromCellID⟩
  · obtain ⟨entry, hentry, heq⟩ := hmatch
    obtain ⟨-, rfl, rfl, rfl⟩ := (Handoff.mk.injEq ..).mp heq
    rw [onHandoffAccepted_of_eq s.driver hentry]
    by_cases hn : netID = n
    · -- the offer moves to the queue of demotes
      subst hn
      obtain ⟨hst, hslot⟩ := htracks.of_inflight hentry
      obtain ⟨-, hpending, hdue⟩ := (Slot.mk.injEq ..).mp hslot
      simp only [hst, HandoffStatus.next, InflightHandoff.handoff, and_self, if_true]
      refine ⟨rfl, entry.connID, ?_⟩
      simp only [slot, armed, setLastHandoff, lookup_erase, demotesOf_append,
        hpending, hdue, Slot.mk.injEq]
      simp [demotesOf]
    · -- another netID has what it had
      have hnext : HandoffStatus.next n (after n s.events)
          (.acked netID entry.epoch entry.commitTick entry.destCellID) =
            after n s.events := by
        cases after n s.events with
        | offered h' => exact if_neg fun h => hn h.1
        | idle | accepted _ | taken _ _ => rfl
      rw [hnext, slot_armed_of_ne hn]
      exact htracks
  · -- the message answers nothing
    rw [onHandoffAccepted_of_ne s.driver fun entry hentry heq => hmatch ⟨entry, hentry, heq⟩]
    cases hst : after n s.events with
    | offered h' =>
      rw [hst] at htracks
      obtain ⟨entry, hslot, rfl⟩ := htracks
      have hlookup := (Slot.mk.injEq ..).mp hslot |>.1
      have hne : ¬ (netID = n ∧ entry.handoff n = ⟨netID, epoch, commitTick, fromCellID⟩) := by
        rintro ⟨rfl, heq⟩
        exact hmatch ⟨entry, hlookup, heq⟩
      simp only [HandoffStatus.next, if_neg hne]
      exact ⟨entry, hslot, rfl⟩
    | idle | accepted _ | taken _ _ =>
      rw [hst] at htracks
      exact htracks

lemma lookup_keptInflight (hd : HandoffDriver M) (destCellIDs : List M) (n : NetID) :
    (hd.keptInflight destCellIDs).lookup n =
      (hd.inflight.lookup n).filter (·.destCellID ∉ destCellIDs) := by
  ext entry
  have hold : hd.inflight.lookup n = some entry ↔ ⟨n, entry⟩ ∈ hd.inflight.entries :=
    mem_lookup_iff
  have hkept : (hd.keptInflight destCellIDs).lookup n = some entry ↔
      ⟨n, entry⟩ ∈ (hd.keptInflight destCellIDs).entries := mem_lookup_iff
  rw [Option.filter_eq_some_iff, hold, hkept]
  exact mem_filter

lemma tracks_cancel (h : s.Inv) (destCellIDs : List M) (n : NetID) :
    Slot.Tracks n (slot { s with driver := (s.driver.cancelPendingDemotesTo destCellIDs).1 } n)
      (HandoffStatus.next n (after n s.events) (.cancelled destCellIDs)) := by
  have htracks := h.tracks n
  have hslot : slot { s with driver := (s.driver.cancelPendingDemotesTo destCellIDs).1 } n =
      ⟨(s.slot n).inflight.filter (·.destCellID ∉ destCellIDs),
        (s.slot n).pending.filter (·.2.destCellID ∉ destCellIDs), (s.slot n).due⟩ := by
    simp only [slot, cancelPendingDemotesTo, lookup_keptInflight, demotesOf_filter]
  rw [hslot]
  cases hst : after n s.events with
  | idle =>
    rw [hst] at htracks
    rw [show s.slot n = _ from htracks]
    rfl
  | offered h' =>
    rw [hst] at htracks
    obtain ⟨entry, hslot, rfl⟩ := htracks
    rw [hslot]
    by_cases hmem : entry.destCellID ∈ destCellIDs
    · simp [HandoffStatus.next, InflightHandoff.handoff, hmem, Slot.Tracks]
    · simp only [HandoffStatus.next, InflightHandoff.handoff, hmem, if_false]
      exact ⟨entry, by simp [hmem], rfl⟩
  | accepted h' =>
    rw [hst] at htracks
    obtain ⟨hn, conn, hslot⟩ := htracks
    rw [hslot]
    by_cases hmem : h'.destCellID ∈ destCellIDs
    · simp [HandoffStatus.next, hmem, Slot.Tracks]
    · simp only [HandoffStatus.next, hmem, if_false]
      exact ⟨hn, conn, by simp [hmem]⟩
  | taken h' t =>
    rw [hst] at htracks
    obtain ⟨hn, ht, conn, hslot⟩ := htracks
    rw [hslot]
    exact ⟨hn, ht, conn, rfl⟩

def givesUp (hd : HandoffDriver M) (netID : NetID) (sent : Bool) : Bool :=
  !hd.base.isLive netID || !sent

variable {tick : UInt64} {target : RetryTarget M} {sent : Bool}

lemma slot_retryTarget_of_ne (hn : n ≠ target.netID) :
    slot { s with driver := s.driver.retryTarget tick target sent } n = s.slot n := by
  unfold retryTarget slot
  split
  · simp only [lookup_erase_ne hn]
  split
  · simp only [setLastHandoff, lookup_erase_ne hn]
  · split
    · simp only [lookup_insert_ne hn]
    · rfl

lemma slot_retryTarget :
    slot { s with driver := s.driver.retryTarget tick target sent } target.netID =
      ⟨if givesUp s.driver target.netID sent then none
        else (s.slot target.netID).inflight.map fun entry =>
          if entry = target.entry then entry.retried tick else entry,
        (s.slot target.netID).pending, (s.slot target.netID).due⟩ := by
  unfold retryTarget slot givesUp
  cases hlive : s.driver.base.isLive target.netID with
  | false => simp
  | true =>
    cases sent with
    | false => simp [setLastHandoff]
    | true =>
      cases hlookup : s.driver.inflight.lookup target.netID with
      | none => simp [hlookup]
      | some entry =>
        by_cases heq : entry = target.entry
        · simp [heq]
        · simp [heq, hlookup]

lemma tracks_retry (h : s.Inv) (tick : UInt64) (target : RetryTarget M) (sent : Bool) (n : NetID) :
    Slot.Tracks n (slot { s with driver := s.driver.retryTarget tick target sent } n)
      (after n (s.events ++ abandoned s.driver target.netID sent)) := by
  have htracks := h.tracks n
  by_cases hn : n = target.netID
  · subst hn
    rw [slot_retryTarget]
    cases hlookup : s.driver.inflight.lookup target.netID with
    | none =>
      -- the entry is gone already: nothing happens to the maps
      have hevents : abandoned s.driver target.netID sent = [] := by simp [abandoned, hlookup]
      have hslot : s.slot target.netID =
          ⟨none, (s.slot target.netID).pending, (s.slot target.netID).due⟩ := by
        simp only [slot, hlookup]
      rw [hevents]
      rw [hslot] at htracks ⊢
      simpa using htracks
    | some entry =>
      obtain ⟨hst, hslot⟩ := htracks.of_inflight hlookup
      cases hgive : givesUp s.driver target.netID sent with
      | true =>
        have hevents : abandoned s.driver target.netID sent = [.abandoned target.netID] := by
          rw [abandoned, hlookup]
          exact if_pos ⟨rfl, hgive⟩
        rw [hevents, after_concat, hst, hslot]
        simp [HandoffStatus.next, Slot.Tracks]
      | false =>
        have hevents : abandoned s.driver target.netID sent = [] := by
          exact if_neg fun h => by simpa [givesUp] using hgive.symm.trans h.2
        rw [hevents, append_nil, hst, hslot]
        refine ⟨_, rfl, ?_⟩
        dsimp only
        split <;> rfl
  · -- another netID has what it had
    rw [slot_retryTarget_of_ne hn, abandoned]
    split
    · rw [after_concat]
      cases hst : after n s.events with
      | offered h' =>
        rw [hst] at htracks
        simp only [HandoffStatus.next, if_neg (Ne.symm hn)]
        exact htracks
      | idle | accepted _ | taken _ _ =>
        rw [hst] at htracks
        exact htracks
    · rw [append_nil]
      exact htracks

omit [DecidableEq M] in
lemma demotesOf_map (n : NetID) (tick : UInt64) (due : List (PendingDemote M)) :
    demotesOf n (due.map fun d => (tick, d)) =
      (due.filter (·.netID = n)).map fun d => (tick, d) := filter_map

lemma tracks_take (h : s.Inv) (hphase : s.phase = .retries tick [])
    {order : List (PendingDemote M)} (hperm : order.Perm (s.driver.takeDueDemotes tick).1)
    (n : NetID) :
    Slot.Tracks n (slot ⟨(s.driver.takeDueDemotes tick).2, .demotes tick order, s.events⟩ n)
      (HandoffStatus.next n (after n s.events) (.taken tick)) := by
  have htracks := h.tracks n
  have hdue : (s.slot n).due = [] := by
    simp only [slot, hphase, DriverPhase.due, demotesOf_nil]
  have hslot : slot ⟨(s.driver.takeDueDemotes tick).2, .demotes tick order, s.events⟩ n =
      ⟨(s.slot n).inflight, (s.slot n).pending.filter (fun x => ¬ x.1 ≤ tick),
        (order.filter (·.netID = n)).map fun d => (tick, d)⟩ := by
    simp only [slot, takeDueDemotes, DriverPhase.due, demotesOf_map, demotesOf_filter]
  -- what the tick has of the netID was pending and is due
  have htaken : (order.filter (·.netID = n)).Perm
      (((s.slot n).pending.filter (·.1 ≤ tick)).map (·.2)) := by
    refine (hperm.filter _).trans (List.Perm.of_eq ?_)
    simp only [takeDueDemotes, slot, demotesOf, filter_map, Function.comp_def]
    rw [filter_comm]
  rw [hslot]
  cases hst : after n s.events with
  | idle =>
    rw [hst] at htracks
    rw [show s.slot n = _ from htracks] at htaken ⊢
    rw [perm_nil.mp htaken]
    rfl
  | offered h' =>
    rw [hst] at htracks
    obtain ⟨entry, hslot, rfl⟩ := htracks
    rw [hslot] at htaken ⊢
    rw [perm_nil.mp htaken]
    exact ⟨entry, rfl, rfl⟩
  | accepted h' =>
    rw [hst] at htracks
    obtain ⟨hn, conn, hslot⟩ := htracks
    rw [hslot] at htaken ⊢
    by_cases hle : h'.commitTick ≤ tick
    · simp only [HandoffStatus.next, hle, if_true]
      simp only [hle, decide_true, filter_cons_of_pos, filter_nil, map_cons,
        map_nil] at htaken
      rw [perm_singleton.mp htaken]
      exact ⟨hn, hle, conn, by simp [hle]⟩
    · simp only [HandoffStatus.next, hle, if_false]
      simp only [hle, decide_false, Bool.false_eq_true, not_false_eq_true, filter_cons_of_neg,
        filter_nil, map_nil] at htaken
      rw [perm_nil.mp htaken]
      exact ⟨hn, conn, by simpa using hle⟩
  | taken h' t =>
    -- between the demotes of two ticks nothing is taken
    rw [hst] at htracks
    obtain ⟨-, -, conn, hslot⟩ := htracks
    rw [hslot] at hdue
    cases hdue

variable {d : PendingDemote M} {rest : List (PendingDemote M)}

lemma allowed_demote (h : s.Inv) (hphase : s.phase = .demotes tick (d :: rest)) :
    (HandoffEvent.demoted d.netID d.destCellID tick).Allowed s.events := by
  have hdue : (s.slot d.netID).due =
      (tick, d) :: demotesOf d.netID (rest.map fun d => (tick, d)) := by
    simp [slot, hphase, DriverPhase.due, demotesOf]
  obtain ⟨h', hst, hn, hdest, ht, -⟩ := (h.tracks d.netID).of_due hdue
  exact ⟨h', hst, hn, hdest, ht⟩

lemma tracks_demote (h : s.Inv) (hphase : s.phase = .demotes tick (d :: rest)) (n : NetID) :
    Slot.Tracks n (slot ⟨s.driver.demoteOne d, .demotes tick rest, s.events⟩ n)
      (HandoffStatus.next n (after n s.events)
        (.demoted d.netID d.destCellID tick)) := by
  have htracks := h.tracks n
  by_cases hn : d.netID = n
  · subst hn
    have hdue : (s.slot d.netID).due =
        (tick, d) :: demotesOf d.netID (rest.map fun d => (tick, d)) := by
      simp [slot, hphase, DriverPhase.due, demotesOf]
    obtain ⟨h', -, -, -, -, hslot⟩ := htracks.of_due hdue
    -- it was the only entry of the netID
    have hrest : demotesOf d.netID (rest.map fun d => (tick, d)) = [] := by
      rw [hslot] at hdue
      exact (cons.inj hdue).2.symm
    obtain ⟨hinflight, hpending, -⟩ := (Slot.mk.injEq ..).mp hslot
    simp only [HandoffStatus.next, if_true]
    simp only [Slot.Tracks, slot, demoteOne, DriverPhase.due, hinflight, hpending, hrest]
  · have hslot : slot ⟨s.driver.demoteOne d, .demotes tick rest, s.events⟩ n = s.slot n := by
      simp [slot, demoteOne, hphase, DriverPhase.due, demotesOf, hn]
    simp only [HandoffStatus.next, if_neg hn, hslot]
    exact htracks

omit [DecidableEq M] in
lemma free_of_hasHandoffInFlight {hd : HandoffDriver M} (h : hd.hasHandoffInFlight n = false) :
    hd.inflight.lookup n = none ∧ demotesOf n hd.pendingDemotes = [] := by
  simp only [hasHandoffInFlight, Bool.or_eq_false_iff, Option.isSome_eq_false_iff,
    Option.isNone_iff_eq_none, any_eq_false, decide_eq_true_eq] at h
  refine ⟨h.1, filter_eq_nil_iff.mpr ?_⟩
  intro x hx
  simpa using h.2 x hx

omit [DecidableEq M] in
lemma handleCrossing_cases (hd : HandoffDriver M) (evt : CrossingEvent M) (tick : UInt64)
    (sent : Bool) :
    (hd.handleCrossing evt tick sent).1.pendingDemotes = hd.pendingDemotes ∧
    ((hd.handleCrossing evt tick sent).2 = [] ∧
        (∀ n, (hd.handleCrossing evt tick sent).1.inflight.lookup n = hd.inflight.lookup n) ∨
      ∃ entry : InflightHandoff M, hd.hasHandoffInFlight evt.netID = false ∧
        (hd.handleCrossing evt tick sent).1.inflight = hd.inflight.insert evt.netID entry ∧
        offered (hd.handleCrossing evt tick sent).2 = [.offered (entry.handoff evt.netID)]) := by
  unfold handleCrossing
  split
  · exact ⟨rfl, .inl ⟨rfl, fun n => rfl⟩⟩
  split
  · exact ⟨rfl, .inl ⟨rfl, fun n => rfl⟩⟩
  split
  · exact ⟨rfl, .inl ⟨rfl, fun n => rfl⟩⟩
  next hfree =>
  split
  · exact ⟨rfl, .inl ⟨rfl, fun n => rfl⟩⟩
  cases sent with
  | true => exact ⟨rfl, .inr ⟨_, by simpa using hfree, rfl, rfl⟩⟩
  | false =>
    refine ⟨rfl, .inl ⟨rfl, fun n => ?_⟩⟩
    simp only [Bool.false_eq_true, if_false]
    by_cases hn : n = evt.netID
    · subst hn
      rw [lookup_erase, (free_of_hasHandoffInFlight (by simpa using hfree)).1]
    · rw [lookup_erase_ne hn, lookup_insert_ne hn]

lemma legal_append {events more : List (HandoffEvent M)} (h : Legal events)
    (hmore : more = [] ∨ ∃ e, more = [e] ∧ e.Allowed events) : Legal (events ++ more) := by
  rcases hmore with rfl | ⟨e, rfl, he⟩
  · rwa [append_nil]
  · exact h.concat he

lemma inv_cross (h : s.Inv) {evt : CrossingEvent M} {rest : List (CrossingEvent M)}
    (hphase : s.phase = .crossings tick (evt :: rest)) (sent : Bool) :
    Inv ⟨(s.driver.handleCrossing evt tick sent).1, .crossings tick rest,
      s.events ++ offered (s.driver.handleCrossing evt tick sent).2⟩ := by
  have hdue : ∀ n, (s.slot n).due = [] := by
    intro n
    simp only [slot, hphase, DriverPhase.due, demotesOf_nil]
  obtain ⟨hpending, ⟨hout, hinflight⟩ | ⟨entry, hfree, hinflight, hout⟩⟩ :=
    handleCrossing_cases s.driver evt tick sent
  · -- nothing is offered
    rw [hout]
    refine ⟨fun n => ?_, by simpa using h.legal⟩
    have hslot : slot ⟨(s.driver.handleCrossing evt tick sent).1, .crossings tick rest,
        s.events ++ offered []⟩ n = s.slot n := by
      simp only [slot, hpending, hinflight, hphase, DriverPhase.due]
    rw [hslot, offered_nil, append_nil]
    exact h.tracks n
  · obtain ⟨hnone, hnil⟩ := free_of_hasHandoffInFlight hfree
    obtain ⟨hst, -⟩ := (h.tracks evt.netID).of_none hnone hnil (hdue _)
    rw [hout]
    refine ⟨fun n => ?_, h.legal.concat hst⟩
    rw [after_concat]
    by_cases hn : evt.netID = n
    · subst hn
      simp only [HandoffStatus.next, InflightHandoff.handoff, if_true]
      refine ⟨entry, ?_, rfl⟩
      simp only [slot, hpending, hinflight, lookup_insert, hnil, DriverPhase.due, demotesOf_nil]
    · have hslot : slot ⟨(s.driver.handleCrossing evt tick sent).1, .crossings tick rest,
          s.events ++ [.offered (entry.handoff evt.netID)]⟩ n = s.slot n := by
        simp only [slot, hpending, hinflight, lookup_insert_ne (Ne.symm hn), hphase,
          DriverPhase.due]
      have hnext : HandoffStatus.next n (after n s.events)
          (.offered (entry.handoff evt.netID)) = after n s.events := if_neg hn
      rw [hslot, hnext]
      exact h.tracks n

lemma inv_start (base : Stage M) : (start base).Inv :=
  ⟨fun _ => rfl, .nil⟩

lemma Inv.same_slots (h : s.Inv) (hslots : ∀ n, s'.slot n = s.slot n)
    (hevents : s'.events = s.events) :
    s'.Inv := by
  refine ⟨fun n => ?_, hevents ▸ h.legal⟩
  rw [hslots, hevents]
  exact h.tracks n

lemma inv_step {a : DriverStep M} (h : s.Inv) (hstep : Steps step s a s') : s'.Inv := by
  cases a with
  | stage base =>
    cases hstep
    exact h.same_slots (fun _ => rfl) rfl
  | accept netID epoch commitTick fromCellID =>
    cases hstep
    refine ⟨fun n => ?_, h.legal.concat trivial⟩
    rw [after_concat]
    exact tracks_accept h netID epoch commitTick fromCellID n
  | cancel destCellIDs =>
    cases hstep
    refine ⟨fun n => ?_, h.legal.concat trivial⟩
    rw [after_concat]
    exact tracks_cancel h destCellIDs n
  | beginTick tick order =>
    simp only [Steps, step] at hstep
    split at hstep
    · next hphase =>
      split at hstep
      · cases hstep
        exact h.same_slots (fun _ => rfl) rfl
      split at hstep
      · cases hstep
        exact h.same_slots (fun n => by simp only [slot, hphase, DriverPhase.due]) rfl
      · cases hstep
    · cases hstep
  | retry sent =>
    simp only [Steps, step] at hstep
    split at hstep
    · next tick target rest hphase =>
      cases hstep
      refine ⟨fun n => ?_, legal_append h.legal ?_⟩
      · have htracks := tracks_retry h tick target sent n
        simp only [slot, hphase, DriverPhase.due] at htracks
        exact htracks
      unfold abandoned
      split
      · exact .inr ⟨_, rfl, trivial⟩
      · exact .inl rfl
    · cases hstep
  | beginDemotes order =>
    simp only [Steps, step] at hstep
    split at hstep
    · next tick hphase =>
      split at hstep
      · next hperm =>
        cases hstep
        refine ⟨fun n => ?_, h.legal.concat trivial⟩
        rw [after_concat]
        exact tracks_take h hphase (isPerm_iff.mp hperm) n
      · cases hstep
    · cases hstep
  | demote =>
    simp only [Steps, step] at hstep
    split at hstep
    · next tick d rest hphase =>
      cases hstep
      refine ⟨fun n => ?_, h.legal.concat (allowed_demote h hphase)⟩
      rw [after_concat]
      exact tracks_demote h hphase n
    · cases hstep
  | beginCrossings =>
    simp only [Steps, step] at hstep
    split at hstep
    · next tick hphase =>
      cases hstep
      exact h.same_slots (fun n => by simp only [slot, hphase, DriverPhase.due, map_nil]) rfl
    · cases hstep
  | cross sent =>
    simp only [Steps, step] at hstep
    split at hstep
    · next tick evt rest hphase =>
      cases hstep
      exact inv_cross h hphase sent
    · cases hstep
  | endTick =>
    simp only [Steps, step] at hstep
    split at hstep
    · next tick hphase =>
      cases hstep
      exact h.same_slots (fun n => by simp only [slot, hphase, DriverPhase.due]) rfl
    · cases hstep

end DriverState

end Mmokit
