/-
The delivery of route changes (`notifyPlayerMigrated`, `advancePlayerRoute`, `OnUpstreamSwitch`).

The route is changed under the lock of the table, the messages are sent after it is released, from
whatever thread changed the route; so the messages of two changes come in any order. A receiver
that is to end at the newest change has to compare epochs, and neither does so fully: the gateway
takes every switch, and the connection manager takes the cell of every registration.
-/
import Mathlib.Data.List.Induction
import Mmokit.Universe.VirtualConnManager

namespace Mmokit

open List Option VirtualConnManager

variable {G H User : Type*}

/-! ### The gateway -/

structure LocalSession (H : Type*) where
  hostID : H
  cellID : CellID
  epoch : ℕ
deriving DecidableEq

abbrev GatewaySessions (H : Type*) := AList fun _ : ℕ => LocalSession H

structure UpstreamSwitch (H : Type*) where
  newHost : Option H
  newCell : Option CellID
  newEpoch : ℕ
deriving DecidableEq

namespace GatewaySessions

variable {sessions : GatewaySessions H} {connID : ℕ} {sess : LocalSession H}

def onUpstreamSwitch (sessions : GatewaySessions H) (connID : ℕ) (newHost : H)
    (newCell : Option CellID) (newEpoch : ℕ) : GatewaySessions H :=
  match sessions.lookup connID with
  | none => sessions
  | some sess => sessions.insert connID ⟨newHost, newCell.getD sess.cellID, newEpoch⟩

def handleSwitch (sessions : GatewaySessions H) (connID : ℕ) (m : UpstreamSwitch H) :
    GatewaySessions H :=
  match m.newHost with
  | some newHost => sessions.onUpstreamSwitch connID newHost m.newCell m.newEpoch
  | none =>
    match sessions.lookup connID with
    | none => sessions
    | some sess => sessions.onUpstreamSwitch connID sess.hostID m.newCell m.newEpoch

def deliverSwitches (sessions : GatewaySessions H) (connID : ℕ)
    (switches : List (UpstreamSwitch H)) : GatewaySessions H :=
  switches.foldl (fun s m => s.handleSwitch connID m) sessions

lemma lookup_handleSwitch (h : sessions.lookup connID = some sess) (m : UpstreamSwitch H) :
    (sessions.handleSwitch connID m).lookup connID =
      some ⟨m.newHost.getD sess.hostID, m.newCell.getD sess.cellID, m.newEpoch⟩ := by
  cases hm : m.newHost with
  | none => simp only [handleSwitch, hm, h, onUpstreamSwitch, AList.lookup_insert, getD_none]
  | some host =>
    simp only [handleSwitch, hm, h, onUpstreamSwitch, AList.lookup_insert, getD_some]

end GatewaySessions

/-! ### The route changes of a session -/

inductive RouteChange (H : Type*)
  /-- A player or a cell went to a host (`notifyPlayerMigrated`, the remaps of the commits). -/
  | migrate (destHost : H) (destCell : CellID)
  /-- A player went to another cell of host `host` (`advancePlayerRoute`). -/
  | advanceCell (host : H) (destCell : CellID) (floor : ℕ)
deriving DecidableEq

/-- What a route change announces: the new route, the host in the upstream switch and the host that
is told to register the session. -/
structure RouteAdvance (H : Type*) where
  hostID : H
  cellID : CellID
  epoch : ℕ
  switchHost : Option H
  registerAt : H
deriving DecidableEq

def RouteAdvance.switch (a : RouteAdvance H) : UpstreamSwitch H :=
  ⟨a.switchHost, some a.cellID, a.epoch⟩

section Advances

variable [DecidableEq G] [Inhabited H] [Inhabited User]
  {routes : SessionRoutes G H User} {key : SessionKey G}
  {change : RouteChange H} {a : RouteAdvance H}

namespace RouteChange

def apply (routes : SessionRoutes G H User) (key : SessionKey G) :
    RouteChange H → SessionRoutes G H User × Option (RouteAdvance H)
  | .migrate destHost destCell =>
    let (routes', newEpoch) := routes.migrate key destHost destCell
    (routes', newEpoch.map fun epoch => ⟨destHost, destCell, epoch, some destHost, destHost⟩)
  | .advanceCell host destCell floor =>
    let (routes', newEpoch) := routes.advanceCellFrom key destCell floor
    let hostID := ((routes'.lookup key).map SessionRoute.hostID).getD default
    (routes', some ⟨hostID, destCell, newEpoch, none, host⟩)

def advances (key : SessionKey G) (routes : SessionRoutes G H User) :
    List (RouteChange H) → List (RouteAdvance H)
  | [] => []
  | change :: changes =>
    (change.apply routes key).2.toList ++ advances key (change.apply routes key).1 changes

lemma apply_spec (h : (change.apply routes key).2 = some a) :
    (∃ r, (change.apply routes key).1.lookup key = some r ∧ r.epoch = a.epoch) ∧
      ∀ r, routes.lookup key = some r → r.epoch < a.epoch := by
  cases change with
  | migrate destHost destCell =>
    cases hr : routes.lookup key with
    | none => simp [apply, SessionRoutes.migrate, hr] at h
    | some r =>
      simp only [apply, SessionRoutes.migrate, hr, map_some, some.injEq] at h ⊢
      subst h
      refine ⟨⟨_, AList.lookup_insert _, rfl⟩, ?_⟩
      rintro _ ⟨⟩
      exact Nat.lt_succ_self _
  | advanceCell host destCell floor =>
    cases hr : routes.lookup key with
    | none =>
      simp only [apply, SessionRoutes.advanceCellFrom, hr, some.injEq] at h ⊢
      subst h
      refine ⟨⟨_, AList.lookup_insert _, rfl⟩, ?_⟩
      rintro _ ⟨⟩
    | some r =>
      simp only [apply, SessionRoutes.advanceCellFrom, hr, some.injEq] at h ⊢
      subst h
      refine ⟨⟨_, AList.lookup_insert _, rfl⟩, ?_⟩
      rintro _ ⟨⟩
      exact Nat.lt_succ_of_le (le_max_right _ _)

lemma apply_of_none (h : (change.apply routes key).2 = none) :
    (change.apply routes key).1 = routes := by
  cases change with
  | migrate destHost destCell =>
    cases hr : routes.lookup key with
    | none => simp only [apply, SessionRoutes.migrate, hr]
    | some r => simp [apply, SessionRoutes.migrate, hr] at h
  | advanceCell host destCell floor => simp [apply] at h

lemma lt_epoch_of_mem_advances {changes : List (RouteChange H)} {r : SessionRoute H User}
    (hr : routes.lookup key = some r) (ha : a ∈ advances key routes changes) :
    r.epoch < a.epoch := by
  induction changes generalizing routes r with
  | nil => cases ha
  | cons change changes ih =>
    rw [advances, mem_append, mem_toList] at ha
    cases hc : (change.apply routes key).2 with
    | none =>
      rw [apply_of_none hc, hc] at ha
      rcases ha with ha | ha
      · cases ha
      · exact ih hr ha
    | some b =>
      obtain ⟨⟨r', hr', hb⟩, hnew⟩ := apply_spec hc
      rcases ha with ha | ha
      · rw [hc] at ha
        cases ha
        exact hnew r hr
      · exact (hnew r hr).trans (hb ▸ ih hr' ha)

lemma advances_pairwise (routes : SessionRoutes G H User) (changes : List (RouteChange H)) :
    (advances key routes changes).Pairwise (·.epoch < ·.epoch) := by
  induction changes generalizing routes with
  | nil => exact List.Pairwise.nil
  | cons change changes ih =>
    rw [advances, pairwise_append]
    refine ⟨?_, ih _, ?_⟩
    · cases (change.apply routes key).2 with
      | none => exact List.Pairwise.nil
      | some a => exact pairwise_singleton _ _
    · intro a ha b hb
      obtain ⟨⟨r, hr, hepoch⟩, -⟩ := apply_spec (mem_toList.mp ha)
      exact hepoch ▸ lt_epoch_of_mem_advances hr hb

lemma eq_of_epoch_eq {changes : List (RouteChange H)} {b : RouteAdvance H}
    (ha : a ∈ advances key routes changes) (hb : b ∈ advances key routes changes)
    (h : a.epoch = b.epoch) : a = b := by
  by_contra hne
  have hpair : (advances key routes changes).Pairwise (·.epoch ≠ ·.epoch) :=
    (advances_pairwise routes changes).imp Nat.ne_of_lt
  have : Std.Symm fun x y : RouteAdvance H => x.epoch ≠ y.epoch := ⟨fun _ _ h => h.symm⟩
  exact hpair.forall ha hb hne h

end RouteChange

end Advances

/-! ### Deliveries -/

def Newest {α : Type*} (epoch : α → ℕ) (l : List α) (a : α) : Prop :=
  a ∈ l ∧ ∀ b ∈ l, epoch b ≤ epoch a

instance {α : Type*} [DecidableEq α] (epoch : α → ℕ) (l : List α) (a : α) :
    Decidable (Newest epoch l a) :=
  have : Decidable (∀ b ∈ l, epoch b ≤ epoch a) := decidableBAll (fun b => epoch b ≤ epoch a) l
  inferInstanceAs (Decidable (_ ∧ _))

def hostAfter (host : H) (order : List (RouteAdvance H)) : H :=
  (order.filterMap RouteAdvance.switchHost).getLast?.getD host

lemma hostAfter_concat (host : H) (order : List (RouteAdvance H)) (a : RouteAdvance H) :
    hostAfter host (order ++ [a]) = a.switchHost.getD (hostAfter host order) := by
  cases h : a.switchHost with
  | none => simp [hostAfter, filterMap_append, h]
  | some host' => simp [hostAfter, filterMap_append, h]

lemma GatewaySessions.lookup_deliverSwitches {sessions : GatewaySessions H} {connID : ℕ}
    {sess : LocalSession H} (h : sessions.lookup connID = some sess)
    (order : List (RouteAdvance H)) :
    (sessions.deliverSwitches connID (order.map RouteAdvance.switch)).lookup connID =
      some ⟨hostAfter sess.hostID order, (order.getLast?.map RouteAdvance.cellID).getD sess.cellID,
        (order.getLast?.map RouteAdvance.epoch).getD sess.epoch⟩ := by
  induction order using reverseRecOn with
  | nil => exact h
  | append_singleton order a ih =>
    rw [deliverSwitches] at ih ⊢
    rw [map_append, foldl_append, map_singleton, foldl_cons, foldl_nil,
      lookup_handleSwitch ih, hostAfter_concat]
    simp only [RouteAdvance.switch, getD_some, getLast?_concat, map_some]

namespace VirtualConnManager

variable [DecidableEq G] [Inhabited User] {vcm : VirtualConnManager G User}
  {key : SessionKey G}

def deliverRegisters (vcm : VirtualConnManager G User) (key : SessionKey G)
    (order : List (RouteAdvance H)) : VirtualConnManager G User :=
  order.foldl (fun v a => (v.registerSession key default a.epoch a.cellID).1) vcm

def registrations (vcm : VirtualConnManager G User) (key : SessionKey G)
    (order : List (RouteAdvance H)) : List (ℕ × CellID) :=
  (vcm.session key).toList.map (fun sess => (sess.epoch, sess.cellID)) ++
    order.map fun a => (a.epoch, a.cellID)

/-- A session after registrations: it has the cell of the last of them, and the highest epoch of
all. -/
def Recorded (registered : List (ℕ × CellID)) : Option (VirtualSession G User) → Prop
  | none => registered = []
  | some sess =>
    registered.getLast?.map Prod.snd = some sess.cellID ∧
      Newest id (registered.map Prod.fst) sess.epoch

lemma recorded_session (vcm : VirtualConnManager G User) (key : SessionKey G)
    (order : List (RouteAdvance H)) :
    Recorded (vcm.registrations key order) ((vcm.deliverRegisters key order).session key) := by
  induction order using reverseRecOn with
  | nil =>
    rw [deliverRegisters, foldl_nil, registrations]
    cases vcm.session key with
    | none => rfl
    | some sess => simp [Recorded, Newest]
  | append_singleton order a ih =>
    have hregs : vcm.registrations key (order ++ [a]) =
        vcm.registrations key order ++ [(a.epoch, a.cellID)] := by
      rw [registrations, map_append, ← append_assoc]
      rfl
    obtain ⟨sess, hsess, hcell, hepoch⟩ :=
      registerSession_spec (vcm.deliverRegisters key order) key default a.epoch a.cellID
    rw [hregs, deliverRegisters, foldl_append, foldl_cons, foldl_nil]
    rw [deliverRegisters] at ih hsess hepoch
    rw [hsess]
    refine ⟨by rw [getLast?_concat, hcell, map_some], ?_⟩
    -- the epoch is the higher one of the new and of the highest before
    revert ih hepoch
    generalize (foldl _ vcm order).session key = before
    intro ih hepoch
    cases before with
    | none =>
      rw [show vcm.registrations key order = [] from ih, hepoch]
      simp [Newest]
    | some old =>
      obtain ⟨-, hmem, hmax⟩ := ih
      rw [map_some, elim_some] at hepoch
      rw [hepoch, map_append, map_singleton]
      constructor
      · rw [mem_append, mem_singleton]
        rcases le_total old.epoch a.epoch with h | h
        · exact .inr (max_eq_right h)
        · rw [max_eq_left h]
          exact .inl hmem
      · intro e he
        rcases mem_append.mp he with he | he
        · exact (hmax e he).trans (le_max_left _ _)
        · rw [mem_singleton.mp he]
          exact le_max_right _ _

end VirtualConnManager

/-! ### Which deliveries converge -/

/-- The messages of the changes of a session, in the order in which the gateway gets them and in the
order in which the connection manager of `host` does. -/
structure Deliveries [DecidableEq H] (changed : List (RouteAdvance H)) (host : H) where
  switchOrder : List (RouteAdvance H)
  registerOrder : List (RouteAdvance H)
  switch_perm : switchOrder.Perm changed
  register_perm : registerOrder.Perm (changed.filter (·.registerAt = host))

namespace Deliveries

variable [DecidableEq G] [DecidableEq H] [Inhabited H] [Inhabited User]
  {changed : List (RouteAdvance H)} {host : H}

/-- The gateway's session is at the newest change, and the session of the connection manager has the
highest epoch registered there, with the cell that came with it. -/
def Converged (d : Deliveries changed host) (key : SessionKey G)
    (sessions : GatewaySessions H) (vcm : VirtualConnManager G User) : Prop :=
  (∀ a, Newest RouteAdvance.epoch changed a →
    (sessions.deliverSwitches key.connID (d.switchOrder.map RouteAdvance.switch)).lookup
      key.connID =
      some ⟨a.hostID, a.cellID, a.epoch⟩) ∧
  (vcm.registrations key d.registerOrder ≠ [] →
    ∃ sess, (vcm.deliverRegisters key d.registerOrder).session key = some sess ∧
      Newest Prod.fst (vcm.registrations key d.registerOrder) (sess.epoch, sess.cellID))

/-- The newest change comes last: at the gateway, where also the last host named is the one of the
newest change, and, as far as the cell goes, at the connection manager. -/
def NewestLast (d : Deliveries changed host) (key : SessionKey G)
    (sess : LocalSession H) (vcm : VirtualConnManager G User) : Prop :=
  (∀ a, Newest RouteAdvance.epoch changed a →
    d.switchOrder.getLast? = some a ∧ hostAfter sess.hostID d.switchOrder = a.hostID) ∧
  ∀ last, d.registerOrder.getLast? = some last →
    ∃ r, Newest Prod.fst (vcm.registrations key d.registerOrder) r ∧ r.2 = last.cellID

omit [DecidableEq H] in
/-- The gateway is at change `a` exactly when the switch of `a` came last and the host named last is
the one of `a`. -/
lemma switched_iff {routes : SessionRoutes G H User} {key : SessionKey G}
    {changes : List (RouteChange H)} {a : RouteAdvance H} {sess : LocalSession H}
    {order : List (RouteAdvance H)} (hperm : order.Perm (RouteChange.advances key routes changes))
    (ha : a ∈ RouteChange.advances key routes changes) :
    LocalSession.mk (hostAfter sess.hostID order)
        ((order.getLast?.map RouteAdvance.cellID).getD sess.cellID)
        ((order.getLast?.map RouteAdvance.epoch).getD sess.epoch) =
      ⟨a.hostID, a.cellID, a.epoch⟩ ↔
    order.getLast? = some a ∧ hostAfter sess.hostID order = a.hostID := by
  have hne : order ≠ [] := ne_nil_of_mem (hperm.mem_iff.mpr ha)
  obtain ⟨last, hlast⟩ : ∃ last, order.getLast? = some last :=
    ⟨_, getLast?_eq_some_getLast hne⟩
  simp only [hlast, map_some, getD_some, LocalSession.mk.injEq, some.injEq]
  constructor
  · rintro ⟨hhost, -, hepoch⟩
    -- epochs tell the changes apart
    have hmem := hperm.mem_iff.mp (mem_of_getLast? hlast)
    exact ⟨RouteChange.eq_of_epoch_eq hmem ha hepoch, hhost⟩
  · rintro ⟨rfl, hhost⟩
    exact ⟨hhost, rfl, rfl⟩

omit [Inhabited H] in
lemma registered_iff (d : Deliveries changed host) (key : SessionKey G)
    (vcm : VirtualConnManager G User) :
    (vcm.registrations key d.registerOrder ≠ [] →
      ∃ sess, (vcm.deliverRegisters key d.registerOrder).session key = some sess ∧
        Newest Prod.fst (vcm.registrations key d.registerOrder) (sess.epoch, sess.cellID)) ↔
    ∀ last, d.registerOrder.getLast? = some last →
      ∃ r, Newest Prod.fst (vcm.registrations key d.registerOrder) r ∧ r.2 = last.cellID := by
  have hrec := vcm.recorded_session key d.registerOrder
  cases hlast : d.registerOrder.getLast? with
  | none =>
    -- nothing is delivered: a session that is there is its own newest registration
    rw [getLast?_eq_none_iff] at hlast
    simp only [hlast, reduceCtorEq, false_imp_iff, implies_true, iff_true]
    cases hs : vcm.session key with
    | none => simp [registrations, hs]
    | some sess =>
      intro _
      exact ⟨sess, hs, by simp [registrations, hs, Newest]⟩
  | some last =>
    have hcell : (vcm.registrations key d.registerOrder).getLast?.map Prod.snd =
        some last.cellID := by
      rw [registrations, getLast?_append, getLast?_map, hlast]
      rfl
    cases hs : (vcm.deliverRegisters key d.registerOrder).session key with
    | none =>
      rw [hs] at hrec
      rw [show vcm.registrations key d.registerOrder = [] from hrec] at hcell
      cases hcell
    | some sess =>
      rw [hs] at hrec
      obtain ⟨hsess, hmem, hmax⟩ := hrec
      rw [hcell, some.injEq] at hsess
      constructor
      · rintro h _ ⟨⟩
        obtain ⟨_, ⟨⟩, hnew⟩ := h (fun hnil => by rw [hnil] at hcell; cases hcell)
        exact ⟨_, hnew, hsess.symm⟩
      intro h _
      obtain ⟨⟨epoch, cellID⟩, hnew, hc⟩ := h last rfl
      obtain ⟨r, hr, hepoch⟩ := mem_map.mp hmem
      -- a newest registration has the epoch of the session
      have heq : epoch = sess.epoch :=
        le_antisymm (hmax epoch (mem_map_of_mem hnew.1)) (hepoch ▸ hnew.2 r hr)
      subst heq
      refine ⟨sess, rfl, ?_⟩
      rw [← hsess, ← hc]
      exact hnew

/-- **The deliveries that end at the newest route**: exactly those in which it comes last. -/
theorem converged_iff (routes : SessionRoutes G H User) (key : SessionKey G)
    (changes : List (RouteChange H)) (host : H)
    (d : Deliveries (RouteChange.advances key routes changes) host) (sessions : GatewaySessions H)
    (sess : LocalSession H) (hsess : sessions.lookup key.connID = some sess)
    (vcm : VirtualConnManager G User) :
    d.Converged key sessions vcm ↔ d.NewestLast key sess vcm := by
  unfold Converged NewestLast
  rw [registered_iff, GatewaySessions.lookup_deliverSwitches hsess]
  refine and_congr_left' (forall₂_congr ?_)
  intro a ha
  rw [some.injEq, switched_iff d.switch_perm ha.1]

/-! A player goes to the host `true`, and there on to another cell. -/

def player : SessionKey Unit := ⟨(), 1⟩

def home : SessionRoutes Unit Bool Unit := SessionRoutes.set ∅ player ⟨(), false, ⟨0, 0, 0⟩, 1⟩

def journey : List (RouteChange Bool) := [.migrate true ⟨1, 0, 0⟩, .migrate true ⟨1, 1, 0⟩]

def gateway : GatewaySessions Bool := AList.insert 1 ⟨false, ⟨0, 0, 0⟩, 1⟩ ∅

def manager : VirtualConnManager Unit Unit := new

def inOrder : Deliveries (RouteChange.advances player home journey) true where
  switchOrder := RouteChange.advances player home journey
  registerOrder := RouteChange.advances player home journey
  switch_perm := List.Perm.refl _
  register_perm := List.Perm.refl _

def reversed : Deliveries (RouteChange.advances player home journey) true where
  switchOrder := (RouteChange.advances player home journey).reverse
  registerOrder := (RouteChange.advances player home journey).reverse
  switch_perm := reverse_perm _
  register_perm := reverse_perm _

theorem converged_iff_inOrder :
    inOrder.Converged player gateway manager := by
  refine (converged_iff home player journey true inOrder gateway ⟨false, ⟨0, 0, 0⟩, 1⟩ rfl _).mpr
    ⟨?_, ?_⟩
  · intro a ha
    have hmem : a ∈
      [⟨true, ⟨1, 0, 0⟩, 2, some true, true⟩, ⟨true, ⟨1, 1, 0⟩, 3, some true, true⟩] :=
      ha.1
    simp only [mem_cons, not_mem_nil, or_false] at hmem
    rcases hmem with rfl | rfl
    · -- the first change is not the newest
      exact absurd (ha.2 ⟨true, ⟨1, 1, 0⟩, 3, some true, true⟩ (by decide)) (by decide)
    · decide
  · rintro last ⟨⟩
    exact ⟨(3, ⟨1, 1, 0⟩), by decide, rfl⟩

/-- **An older route comes back**: when the newer message is delivered first, the gateway ends at
the older change, and the connection manager with the newest epoch and the older cell. -/
theorem reversed_not_converged :
    (gateway.deliverSwitches 1 (reversed.switchOrder.map RouteAdvance.switch)).lookup 1 =
        some ⟨true, ⟨1, 0, 0⟩, 2⟩ ∧
      ((manager.deliverRegisters player reversed.registerOrder).session player).map
        (fun sess => (sess.epoch, sess.cellID)) = some (3, ⟨1, 0, 0⟩) ∧
      ¬ reversed.Converged player gateway manager := by
  refine ⟨by decide, by decide, ?_⟩
  rintro ⟨hgateway, -⟩
  have h := hgateway ⟨true, ⟨1, 1, 0⟩, 3, some true, true⟩ (by decide)
  revert h
  decide

end Deliveries

end Mmokit
