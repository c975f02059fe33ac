/-
The indexes of player sessions (`pkg/engine/player_manager.go`).

A registration writes the new session into both indexes; a removal deletes the keys of the removed
session, whoever holds them by then.

A session is kept after its removal, as the callers of the source keep their pointers; `live` says
which ones are in `sessions`. The connection 0 and the empty username are no keys.
-/
import Mmokit.Library.Runs
import Mathlib.Logic.Function.Basic

namespace Mmokit.Engine

open Function Option

inductive PlayerState
  | pending
  | active
  | transferring
  | disconnected
  | game (n : ℕ)
deriving DecidableEq

structure PlayerSession where
  connID : ℕ
  username : String
  state : PlayerState
  priorState : PlayerState
  isTransfer : Bool
deriving DecidableEq

/-- The sessions and their indexes. -/
structure PlayerManager where
  session : ℕ → PlayerSession
  live : ℕ → Bool
  byConnID : ℕ → Option ℕ
  byUsername : String → Option ℕ
  nextSessionID : ℕ
  /-- The last session that was registered under a connection and a username. -/
  lastConn : ℕ → Option ℕ
  lastUser : String → Option ℕ

inductive Registration
  | player
  | transfer
  | sessionTransfer (state : PlayerState)
deriving DecidableEq

inductive PlayerStep
  | connect (connID : ℕ)
  | register (kind : Registration) (connID : ℕ) (username : String)
  /-- A disconnected session gets a new connection; `ok` says whether the transition is allowed. -/
  | reconnect (username : String) (connID : ℕ) (ok : Bool)
  | disconnect (connID : ℕ) (ok : Bool)
  | remove (id : ℕ)
  | removeTransferred (id : ℕ)
  /-- A grace period is over. -/
  | expire (id : ℕ)
  /-- `processPendingSessions` for one session; `spawned` says whether its entity is alive. -/
  | activate (id : ℕ) (spawned ok : Bool)
deriving DecidableEq

namespace PlayerManager

def new : PlayerManager :=
  ⟨fun _ => ⟨0, "", .pending, .pending, false⟩, fun _ => false, fun _ => none, fun _ => none, 0,
    fun _ => none, fun _ => none⟩

variable (pm : PlayerManager)

def modify (id : ℕ) (f : PlayerSession → PlayerSession) : PlayerManager :=
  { pm with session := update pm.session id (f (pm.session id)) }

def setConn (id connID : ℕ) : PlayerManager :=
  { pm with
    byConnID := update pm.byConnID connID (some id)
    lastConn := update pm.lastConn connID (some id) }

def setUser (id : ℕ) (username : String) : PlayerManager :=
  { pm with
    byUsername := update pm.byUsername username (some id)
    lastUser := update pm.lastUser username (some id) }

def createSession (connID : ℕ) : ℕ × PlayerManager :=
  let id := pm.nextSessionID + 1
  (id,
    { pm with
      nextSessionID := id
      session := update pm.session id ⟨connID, "", .pending, .pending, false⟩
      live := update pm.live id true
      byConnID := if connID ≠ 0 then update pm.byConnID connID (some id) else pm.byConnID
      lastConn := if connID ≠ 0 then update pm.lastConn connID (some id) else pm.lastConn })

def remove (id : ℕ) : PlayerManager :=
  let s := pm.session id
  { pm with
    live := update pm.live id false
    byConnID := if s.connID ≠ 0 then update pm.byConnID s.connID none else pm.byConnID
    byUsername := if s.username ≠ "" then update pm.byUsername s.username none else pm.byUsername }

def Registration.apply (username : String) : Registration → PlayerSession → PlayerSession
  | .player, s => { s with username }
  | .transfer, s => { s with username, isTransfer := true }
  | .sessionTransfer state, s => { s with username, state }

/-- `RegisterPlayer`, `RegisterTransferSession` and `RegisterSessionTransfer`. -/
def register (kind : Registration) (connID : ℕ) (username : String) : PlayerManager :=
  let (id, pm₁) := match pm.byConnID connID with
    | some id => (id, pm)
    | none => pm.createSession connID
  (pm₁.modify id (Registration.apply username kind)).setUser id username

def transition (id : ℕ) (state : PlayerState) (ok : Bool) : PlayerManager :=
  if ok then pm.modify id fun s => { s with state } else pm.remove id

def reconnectSession (id connID : ℕ) (ok : Bool) : PlayerManager :=
  let pm₁ := (pm.modify id fun s => { s with connID }).setConn id connID
  pm₁.transition id (pm.session id).priorState ok

def onDisconnect (gracePeriod : Bool) (connID : ℕ) (ok : Bool) : PlayerManager :=
  match pm.byConnID connID with
  | none => pm
  | some id =>
    let s := pm.session id
    if s.state = .pending then pm.remove id
    else
      let pm₁ := (pm.modify id fun s => { s with priorState := s.state }).transition id
        .disconnected ok
      if !ok then pm₁
      else if gracePeriod then
        { pm₁.modify id fun s => { s with connID := 0 }
          with byConnID := update pm₁.byConnID connID none }
      else pm₁.remove id

def processPending (id : ℕ) (spawned ok : Bool) : PlayerManager :=
  let s := pm.session id
  if s.state ≠ .pending ∨ pm.live id = false then pm
  else if s.isTransfer then
    if spawned then pm.modify id fun s => { s with isTransfer := false, state := .active } else pm
  else if s.username = "" then pm
  else ({ pm with byUsername := update pm.byUsername s.username (some id) }).transition id
    .active ok

def step (gracePeriod : Bool) : PlayerStep → Option PlayerManager
  | .connect connID => some (pm.createSession connID).2
  | .register kind connID username => some (pm.register kind connID username)
  | .reconnect username connID ok =>
    match pm.byUsername username with
    | some id =>
      if (pm.session id).state = .disconnected then some (pm.reconnectSession id connID ok)
      else none
    | none => none
  | .disconnect connID ok => some (pm.onDisconnect gracePeriod connID ok)
  | .remove id | .removeTransferred id => some (pm.remove id)
  | .expire id =>
    if gracePeriod ∧ pm.live id ∧ (pm.session id).state = .disconnected then some (pm.remove id)
    else none
  | .activate id spawned ok => some (pm.processPending id spawned ok)

/-! ### Keys that are not shared -/

def HasConn (id connID : ℕ) : Prop :=
  pm.live id = true ∧ connID ≠ 0 ∧ (pm.session id).connID = connID

def HasUser (id : ℕ) (username : String) : Prop :=
  pm.live id = true ∧ username ≠ "" ∧ (pm.session id).username = username

/-- **The indexes are coherent**: a key leads to the session that was registered last under it,
unless that one is gone or has given the key up. -/
def Coherent : Prop :=
  (∀ c id, pm.byConnID c = some id ↔ pm.lastConn c = some id ∧ pm.HasConn id c) ∧
    ∀ u id, pm.byUsername u = some id ↔ pm.lastUser u = some id ∧ pm.HasUser id u

/-- A key is registered only while no other session holds it, a session keeps its username and takes
a new connection only without an old one, and only sessions of the manager are removed. -/
def Unshared (pm : PlayerManager) : PlayerStep → Prop
  | .connect connID => pm.byConnID connID = none
  | .register _ connID username => username ≠ "" ∧
    (∀ id ∈ pm.byUsername username, pm.byConnID connID = some id) ∧
    ∀ id ∈ pm.byConnID connID, (pm.session id).username = "" ∨ (pm.session id).username = username
  | .reconnect username connID _ => connID ≠ 0 ∧ pm.byConnID connID = none ∧
    ∀ id ∈ pm.byUsername username, (pm.session id).connID = 0
  | .remove id | .removeTransferred id => pm.live id = true
  | _ => True

/-- The indexes are exact. -/
structure Inv : Prop where
  conn : ∀ c id, pm.byConnID c = some id ↔ pm.HasConn id c
  user : ∀ u id, pm.byUsername u = some id ↔ pm.HasUser id u
  lastConn : ∀ c id, pm.HasConn id c → pm.lastConn c = some id
  lastUser : ∀ u id, pm.HasUser id u → pm.lastUser u = some id
  fresh : ∀ id, pm.live id = true → id ≤ pm.nextSessionID

section Steps

variable {pm} {id connID : ℕ} {username : String} {f : PlayerSession → PlayerSession}

lemma Inv.conn_unique (h : pm.Inv) {j : ℕ} (hj : pm.HasConn j connID) (hid : pm.HasConn id connID) :
    j = id :=
  some.inj (((h.conn _ j).mpr hj).symm.trans ((h.conn _ id).mpr hid))

lemma Inv.user_unique (h : pm.Inv) {j : ℕ} (hj : pm.HasUser j username)
    (hid : pm.HasUser id username) : j = id :=
  some.inj (((h.user _ j).mpr hj).symm.trans ((h.user _ id).mpr hid))

lemma Inv.modify (h : pm.Inv) (hconn : (f (pm.session id)).connID = (pm.session id).connID)
    (huser : (f (pm.session id)).username = (pm.session id).username) : (pm.modify id f).Inv := by
  obtain ⟨hc, hu, hlc, hlu, hf⟩ := h
  constructor <;> simp only [PlayerManager.modify, HasConn, HasUser] at * <;> grind [update]

lemma Inv.remove (h : pm.Inv) (hlive : pm.live id = true) : (pm.remove id).Inv := by
  -- no other session has the keys that are given up
  have hconn : ∀ j, pm.live j = true → (pm.session id).connID ≠ 0 →
      (pm.session j).connID = (pm.session id).connID → j = id := fun j hj h0 heq =>
    h.conn_unique ⟨hj, h0, heq⟩ ⟨hlive, h0, rfl⟩
  have huser : ∀ j, pm.live j = true → (pm.session id).username ≠ "" →
      (pm.session j).username = (pm.session id).username → j = id := fun j hj h0 heq =>
    h.user_unique ⟨hj, h0, heq⟩ ⟨hlive, h0, rfl⟩
  obtain ⟨hc, hu, hlc, hlu, hf⟩ := h
  constructor <;> simp only [PlayerManager.remove, HasConn, HasUser] at * <;> grind [update]

lemma Inv.transition (h : pm.Inv) (hlive : pm.live id = true) (state : PlayerState) (ok : Bool) :
    (pm.transition id state ok).Inv := by
  cases ok with
  | true => exact h.modify (f := fun s => { s with state }) rfl rfl
  | false => exact h.remove hlive

lemma Inv.createSession (h : pm.Inv) (hfree : pm.byConnID connID = none) :
    (pm.createSession connID).2.Inv := by
  obtain ⟨hc, hu, hlc, hlu, hf⟩ := h
  constructor <;> simp only [PlayerManager.createSession, HasConn, HasUser] at * <;> grind [update]

lemma Inv.named (h : pm.Inv) (hlive : pm.live id = true) (hname : username ≠ "")
    (hconn : (f (pm.session id)).connID = (pm.session id).connID)
    (huser : (f (pm.session id)).username = username)
    (hold : (pm.session id).username = "" ∨ (pm.session id).username = username)
    (hfree : ∀ j, pm.byUsername username = some j → j = id) :
    ((pm.modify id f).setUser id username).Inv := by
  obtain ⟨hc, hu, hlc, hlu, hf⟩ := h
  constructor <;> simp only [PlayerManager.modify, setUser, HasConn, HasUser] at * <;>
    grind [update]

lemma Inv.register (h : pm.Inv) {kind : Registration}
    (hK : Unshared pm (.register kind connID username)) :
    (pm.register kind connID username).Inv := by
  obtain ⟨hname, hfree, hold⟩ := hK
  have happly : ∀ s, (Registration.apply username kind s).username = username ∧
      (Registration.apply username kind s).connID = s.connID := by
    cases kind <;> exact fun s => ⟨rfl, rfl⟩
  unfold PlayerManager.register
  cases hconn : pm.byConnID connID with
  | some id =>
    refine h.named ((h.conn _ _).mp hconn).1 hname (happly _).2 (happly _).1 (hold id hconn)
      fun j hj => ?_
    exact some.inj ((hfree j hj).symm.trans hconn)
  | none =>
    refine (h.createSession hconn).named (update_self ..) hname (happly _).2 (happly _).1 (.inl ?_)
      fun j hj => ?_
    · simp [PlayerManager.createSession]
    · cases (hfree j hj).symm.trans hconn

lemma Inv.reconnectSession (h : pm.Inv) (hlive : pm.live id = true) (hconn : connID ≠ 0)
    (hfree : pm.byConnID connID = none) (hnone : (pm.session id).connID = 0) (ok : Bool) :
    (pm.reconnectSession id connID ok).Inv := by
  have hnew : ((pm.modify id fun s => { s with connID }).setConn id connID).Inv := by
    obtain ⟨hc, hu, hlc, hlu, hf⟩ := h
    constructor <;> simp only [PlayerManager.modify, setConn, HasConn, HasUser] at * <;>
      grind [update]
  exact hnew.transition hlive _ ok

lemma Inv.detach (h : pm.Inv) (hlive : pm.live id = true)
    (hconn : (pm.session id).connID = connID) :
    Inv { pm.modify id fun s => { s with connID := 0 } with
      byConnID := update pm.byConnID connID none } := by
  have hother : ∀ j, pm.live j = true → connID ≠ 0 → (pm.session j).connID = connID → j = id :=
    fun j hj h0 heq => h.conn_unique ⟨hj, h0, heq⟩ ⟨hlive, h0, hconn⟩
  obtain ⟨hc, hu, hlc, hlu, hf⟩ := h
  constructor <;> simp only [PlayerManager.modify, HasConn, HasUser] at * <;> grind [update]

lemma Inv.onDisconnect (h : pm.Inv) (gracePeriod ok : Bool) :
    (pm.onDisconnect gracePeriod connID ok).Inv := by
  unfold PlayerManager.onDisconnect
  cases hid : pm.byConnID connID with
  | none => exact h
  | some id =>
    have hlive := ((h.conn _ _).mp hid).1
    have hprior : (pm.modify id fun s => { s with priorState := s.state }).Inv := h.modify rfl rfl
    dsimp only
    split
    · exact h.remove hlive
    have hgone := hprior.transition hlive .disconnected ok
    cases ok with
    | false => exact hgone
    | true =>
      cases gracePeriod with
      | false => exact hgone.remove hlive
      | true =>
        exact hgone.detach ((hgone.conn _ _).mp hid).1 ((hgone.conn _ _).mp hid).2.2

end Steps

lemma Inv.step {gracePeriod : Bool} {pm pm' : PlayerManager} {a : PlayerStep} (h : pm.Inv)
    (hK : Unshared pm a)
    (hstep : pm.step gracePeriod a = some pm') : pm'.Inv := by
  cases a with
  | connect connID => exact some.inj hstep ▸ h.createSession hK
  | register kind connID username => exact some.inj hstep ▸ h.register hK
  | reconnect username connID ok =>
    obtain ⟨hc, hfree, hnone⟩ := hK
    simp only [PlayerManager.step] at hstep
    split at hstep
    · rename_i id hid
      split at hstep
      · cases hstep
        exact h.reconnectSession ((h.user _ _).mp hid).1 hc hfree (hnone id hid) ok
      · cases hstep
    · cases hstep
  | disconnect connID ok => exact some.inj hstep ▸ h.onDisconnect gracePeriod ok
  | remove id => exact some.inj hstep ▸ h.remove hK
  | removeTransferred id => exact some.inj hstep ▸ h.remove hK
  | expire id =>
    simp only [PlayerManager.step] at hstep
    split at hstep
    · rename_i hexpired
      exact some.inj hstep ▸ h.remove hexpired.2.1
    · cases hstep
  | activate id spawned ok =>
    cases hstep
    unfold PlayerManager.processPending
    dsimp only
    split
    · exact h
    rename_i hlive
    simp only [not_or, not_not, Bool.not_eq_false] at hlive
    split
    · split
      · exact h.modify rfl rfl
      · exact h
    split
    · exact h
    · rename_i hname
      -- the username leads to this session already
      have hsame : update pm.byUsername (pm.session id).username (some id) = pm.byUsername := by
        simpa using ((h.user _ _).mpr ⟨hlive.2, hname, rfl⟩).symm
      rw [hsame]
      exact h.transition hlive.2 _ ok

/-- **The indexes stay coherent** as long as no key is shared. -/
theorem unshared_sessions_coherent {gracePeriod : Bool} {pm : PlayerManager}
    (hrun : Run (Steps (PlayerManager.step · gracePeriod)) Unshared new pm) : pm.Coherent := by
  have h : pm.Inv := by
    refine hrun.invariant (I := Inv) ?_ fun h hK hstep => h.step hK hstep
    constructor <;> simp [new, HasConn, HasUser]
  refine ⟨fun c id => ?_, fun u id => ?_⟩
  · rw [h.conn]
    exact ⟨fun hk => ⟨h.lastConn c id hk, hk⟩, And.right⟩
  · rw [h.user]
    exact ⟨fun hk => ⟨h.lastUser u id hk, hk⟩, And.right⟩

instance (pm : PlayerManager) (a : PlayerStep) : Decidable (Unshared pm a) := by
  induction a using PlayerStep.casesOn <;> dsimp only [Unshared] <;> infer_instance

theorem unshared_sessions_coherent_back :
    ∃ pm, (Run (Steps (PlayerManager.step · true)) Unshared new pm ∧ pm.byConnID 2 = some 1) ∧
      pm.Coherent := by
  obtain ⟨pm, hrun, hpm⟩ := exists_run (s := new) (PlayerManager.step · true) Unshared
    (fun pm => pm.byConnID 2 = some 1)
    [.register .player 1 "ann", .activate 1 true true, .disconnect 1 true, .reconnect "ann" 2 true]
    (by decide +kernel)
  exact ⟨pm, ⟨hrun, hpm⟩, unshared_sessions_coherent hrun⟩

/-- A player comes back as a new session, and the old one expires: the new one is not found any
more. -/
theorem removal_detaches_newer :
    ∃ pm, Run (Steps (PlayerManager.step · true)) Always new pm ∧ pm.lastUser "ann" = some 2 ∧
      pm.live 2 = true ∧ (pm.session 2).username = "ann" ∧ pm.byUsername "ann" = none := by
  exact exists_run _ _ _
    [.register .player 1 "ann", .activate 1 true true, .disconnect 1 true,
      .register .player 2 "ann",
      .activate 2 true true, .expire 1] (by decide +kernel)

end PlayerManager

end Mmokit.Engine
