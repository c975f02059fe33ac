/-
The sessions of remote players on a host (`pkg/universe/virtual_conn_manager.go`).

A player of a gateway is a session of the host that simulates the player. The session is found by
the key that the gateway and the coordinator use, and by the local id that the game loop uses; both
indices hold the same session.
-/
import Mmokit.Universe.SessionRoutes

namespace Mmokit

open List Option AList

abbrev ClientFrame := List UInt8

inductive Channel
  | event
  | operation
deriving DecidableEq

structure WireLimits where
  maxFrameBytes : ℤ
  maxInputQueueDepth : ℤ
  maxOpQueueDepth : ℤ
  maxFramesPerDrain : ℤ
deriving DecidableEq

namespace WireLimits

def default : WireLimits := ⟨32768, 256, 64, 64⟩

def normalized (l : WireLimits) : WireLimits where
  maxFrameBytes := if l.maxFrameBytes ≤ 0 then default.maxFrameBytes else l.maxFrameBytes
  maxInputQueueDepth :=
    if l.maxInputQueueDepth ≤ 0 then default.maxInputQueueDepth else l.maxInputQueueDepth
  maxOpQueueDepth := if l.maxOpQueueDepth ≤ 0 then default.maxOpQueueDepth else l.maxOpQueueDepth
  maxFramesPerDrain :=
    if l.maxFramesPerDrain ≤ 0 then default.maxFramesPerDrain else l.maxFramesPerDrain

end WireLimits

structure PendingReplicationReceipt where
  scope : ℕ
  streamEpoch : ℕ
  seq : ℕ
deriving DecidableEq

/-- What a session remembers of the replication frames whose receipts it waits for. -/
structure ReceiptCorrelation where
  pendingReplication : List (ℕ × PendingReplicationReceipt) := []
  pendingTokens : List ℕ := []
  pendingTokenNext : ℕ := 0
  replicationReceipts : List PendingReplicationReceipt := []
deriving DecidableEq

structure VirtualSession (G User : Type*) where
  key : SessionKey G
  username : User
  epoch : ℕ
  cellID : CellID
  input : List ClientFrame := []
  opInput : List ClientFrame := []
  receipts : ReceiptCorrelation := {}
deriving DecidableEq

namespace VirtualSession

variable {G User : Type*} {epoch : ℕ} {cellID : CellID}

/-- What a registration does to a session that exists: the epoch never goes back, and a new epoch
starts without receipts to wait for. The cell is taken in any case. -/
def refresh (epoch : ℕ) (cellID : CellID) (sess : VirtualSession G User) :
    VirtualSession G User :=
  if epoch < sess.epoch then
    { sess with cellID := cellID }
  else if sess.epoch < epoch then
    { sess with epoch := epoch, receipts := {}, cellID := cellID }
  else
    { sess with cellID := cellID }

lemma key_refresh (sess : VirtualSession G User) : (refresh epoch cellID sess).key = sess.key := by
  unfold refresh
  split_ifs <;> rfl

@[simp] lemma cellID_refresh (sess : VirtualSession G User) :
    (refresh epoch cellID sess).cellID = cellID := by
  unfold refresh
  split_ifs <;> rfl

@[simp] lemma epoch_refresh (sess : VirtualSession G User) :
    (refresh epoch cellID sess).epoch = max sess.epoch epoch := by
  unfold refresh
  split_ifs with hlt hgt
  · exact (max_eq_left hlt.le).symm
  · exact (max_eq_right hgt.le).symm
  · exact (max_eq_left (not_lt.mp hgt)).symm

@[simp] lemma input_refresh (sess : VirtualSession G User) :
    (refresh epoch cellID sess).input = sess.input := by
  unfold refresh
  split_ifs <;> rfl

/-! The queues of a session. -/

/-- `appendChannel`, for a session that exists: a frame that is too long or that finds the queue of
its channel full is dropped. -/
def appendChannel (limits : WireLimits) (data : ClientFrame) (channel : Channel)
    (sess : VirtualSession G User) : VirtualSession G User :=
  if limits.maxFrameBytes < data.length then sess
  else
    match channel with
    | .operation =>
      if limits.maxOpQueueDepth ≤ sess.opInput.length then sess
      else { sess with opInput := sess.opInput ++ [data] }
    | .event =>
      if limits.maxInputQueueDepth ≤ sess.input.length then sess
      else { sess with input := sess.input ++ [data] }

lemma key_appendChannel (limits : WireLimits) (data : ClientFrame) (channel : Channel)
    (sess : VirtualSession G User) : (sess.appendChannel limits data channel).key = sess.key := by
  unfold appendChannel
  split
  · rfl
  · split <;> split_ifs <;> rfl

def dropInput (budget : ℕ) (sess : VirtualSession G User) : VirtualSession G User :=
  { sess with input := sess.input.drop budget }

lemma key_dropInput (budget : ℕ) (sess : VirtualSession G User) :
    (sess.dropInput budget).key = sess.key := rfl

end VirtualSession

/-- The sessions that the cells of a host serve. -/
structure VirtualConnManager (G User : Type*) [DecidableEq G] where
  nextLocal : ℕ
  byLocal : AList fun _ : ℕ => VirtualSession G User
  byKey : AList fun _ : SessionKey G => ℕ
  limits : WireLimits
  keyed : ∀ key id, byKey.lookup key = some id ↔
    ∃ sess, byLocal.lookup id = some sess ∧ sess.key = key
  fresh : ∀ id sess, byLocal.lookup id = some sess → id < nextLocal

namespace VirtualConnManager

variable {G User : Type*} [DecidableEq G] {key k : SessionKey G}
  {sess : VirtualSession G User} {id i : ℕ} {epoch : ℕ} {cellID : CellID} {username : User}
  {vcm : VirtualConnManager G User}

def new : VirtualConnManager G User where
  nextLocal := 1
  byLocal := ∅
  byKey := ∅
  limits := WireLimits.default
  keyed key id := by simp
  fresh id sess h := by simp at h

def wireLimits (vcm : VirtualConnManager G User) : WireLimits := vcm.limits.normalized

def session (vcm : VirtualConnManager G User) (key : SessionKey G) :
    Option (VirtualSession G User) :=
  (vcm.byKey.lookup key).bind vcm.byLocal.lookup

lemma session_eq_some :
    vcm.session key = some sess ↔
      ∃ id, vcm.byKey.lookup key = some id ∧ vcm.byLocal.lookup id = some sess := by
  simp only [session, bind_eq_some_iff]

lemma lookup_nextLocal (vcm : VirtualConnManager G User) :
    vcm.byLocal.lookup vcm.nextLocal = none := by
  cases h : vcm.byLocal.lookup vcm.nextLocal with
  | none => rfl
  | some sess => exact absurd (vcm.fresh _ _ h) (lt_irrefl _)

def modify (vcm : VirtualConnManager G User) (id : ℕ)
    (f : VirtualSession G User → VirtualSession G User)
    (hf : ∀ sess, (f sess).key = sess.key) : VirtualConnManager G User :=
  match hsess : vcm.byLocal.lookup id with
  | none => vcm
  | some sess =>
    { vcm with
      byLocal := vcm.byLocal.insert id (f sess)
      keyed := by
        intro key i
        rw [vcm.keyed]
        by_cases hi : i = id
        · subst hi
          simp only [hsess, lookup_insert, some.injEq, exists_eq_left', hf]
        · simp only [lookup_insert_ne hi]
      fresh := by
        intro i sess' h
        by_cases hi : i = id
        · exact hi ▸ vcm.fresh id sess hsess
        · rw [lookup_insert_ne hi] at h
          exact vcm.fresh i sess' h }

variable {f : VirtualSession G User → VirtualSession G User}
  {hf : ∀ sess, (f sess).key = sess.key}

lemma lookup_modify : (vcm.modify id f hf).byLocal.lookup id = (vcm.byLocal.lookup id).map f := by
  unfold modify
  split
  · rename_i h
    rw [h, map_none]
  · rename_i h
    rw [lookup_insert, h, map_some]

lemma lookup_modify_of_ne (h : i ≠ id) :
    (vcm.modify id f hf).byLocal.lookup i = vcm.byLocal.lookup i := by
  unfold modify
  split
  · rfl
  · exact lookup_insert_ne h

@[simp] lemma byKey_modify : (vcm.modify id f hf).byKey = vcm.byKey := by
  unfold modify
  split <;> rfl

lemma session_modify (h : vcm.byKey.lookup key = some id) :
    (vcm.modify id f hf).session key = (vcm.session key).map f := by
  simp only [session, byKey_modify, h, bind_some, lookup_modify]

def addSession (vcm : VirtualConnManager G User) (sess : VirtualSession G User)
    (hnew : vcm.byKey.lookup sess.key = none) : VirtualConnManager G User where
  nextLocal := vcm.nextLocal + 1
  byLocal := vcm.byLocal.insert vcm.nextLocal sess
  byKey := vcm.byKey.insert sess.key vcm.nextLocal
  limits := vcm.limits
  keyed := by
    intro key id
    have hfree := vcm.lookup_nextLocal
    by_cases hid : id = vcm.nextLocal
    · subst hid
      simp only [lookup_insert, some.injEq, exists_eq_left']
      constructor
      · intro h
        by_contra hkey
        rw [lookup_insert_ne (Ne.symm hkey), vcm.keyed, hfree] at h
        obtain ⟨_, h, _⟩ := h
        cases h
      · rintro rfl
        exact lookup_insert _
    · rw [lookup_insert_ne hid, ← vcm.keyed]
      by_cases hkey : key = sess.key
      · subst hkey
        rw [lookup_insert, hnew, some.injEq]
        exact ⟨fun h => absurd h.symm hid, fun h => by cases h⟩
      · rw [lookup_insert_ne hkey]
  fresh := by
    intro id sess' h
    by_cases hid : id = vcm.nextLocal
    · exact hid ▸ Nat.lt_succ_self _
    · rw [lookup_insert_ne hid] at h
      exact Nat.lt_succ_of_lt (vcm.fresh id sess' h)

def registerSession (vcm : VirtualConnManager G User) (key : SessionKey G)
    (username : User) (epoch : ℕ) (cellID : CellID) : VirtualConnManager G User × ℕ :=
  match hkey : vcm.byKey.lookup key with
  | some localID =>
    (vcm.modify localID (VirtualSession.refresh epoch cellID) VirtualSession.key_refresh, localID)
  | none => (vcm.addSession { key, username, epoch, cellID } hkey, vcm.nextLocal)

lemma registerSession_spec (vcm : VirtualConnManager G User) (key : SessionKey G)
    (username : User) (epoch : ℕ) (cellID : CellID) :
    ∃ sess, (vcm.registerSession key username epoch cellID).1.session key = some sess ∧
      sess.cellID = cellID ∧
      sess.epoch = ((vcm.session key).map VirtualSession.epoch).elim epoch (max · epoch) := by
  unfold registerSession
  split
  · rename_i localID hkey
    obtain ⟨old, hold, -⟩ := (vcm.keyed key localID).mp hkey
    have hsess : vcm.session key = some old := session_eq_some.mpr ⟨localID, hkey, hold⟩
    refine ⟨old.refresh epoch cellID, ?_, old.cellID_refresh, ?_⟩
    · rw [session_modify hkey, hsess, map_some]
    · rw [hsess, VirtualSession.epoch_refresh, map_some, elim_some]
  · rename_i hkey
    refine ⟨{ key, username, epoch, cellID }, ?_, rfl, ?_⟩
    · rw [session_eq_some]
      exact ⟨vcm.nextLocal, lookup_insert _, lookup_insert _⟩
    · simp only [session, hkey, bind_none, map_none, elim_none]

def appendChannel (vcm : VirtualConnManager G User) (localID : ℕ) (data : ClientFrame)
    (channel : Channel) : VirtualConnManager G User :=
  vcm.modify localID (VirtualSession.appendChannel vcm.wireLimits data channel)
    (VirtualSession.key_appendChannel vcm.wireLimits data channel)

def injectInput (vcm : VirtualConnManager G User) (localID : ℕ) (data : ClientFrame) :
    VirtualConnManager G User :=
  vcm.appendChannel localID data .event

/-- `InjectChannelInputWithEpoch`: input from the gateway; a frame of an older epoch is dropped, and
the epoch zero is not checked. -/
def injectChannelInputWithEpoch (vcm : VirtualConnManager G User) (localID : ℕ)
    (data : ClientFrame) (epoch : ℕ) (channel : Channel) : VirtualConnManager G User :=
  match vcm.byLocal.lookup localID with
  | none => vcm
  | some sess =>
    if 0 < epoch ∧ epoch < sess.epoch then vcm else vcm.appendChannel localID data channel

/-- `InjectForwardedInputWithEpoch`: input that the source of a handoff passes on, of this epoch or
of the one before. -/
def injectForwardedInputWithEpoch (vcm : VirtualConnManager G User) (localID : ℕ)
    (data : ClientFrame) (sourceEpoch : ℕ) (channel : Channel) :
    VirtualConnManager G User × Bool :=
  match vcm.byLocal.lookup localID with
  | none => (vcm, false)
  | some sess =>
    if sess.epoch ≠ 0 ∧ sourceEpoch ≠ sess.epoch ∧ sourceEpoch + 1 ≠ sess.epoch then (vcm, false)
    else (vcm.appendChannel localID data channel, true)

def input (vcm : VirtualConnManager G User) (localID : ℕ) : List ClientFrame :=
  ((vcm.byLocal.lookup localID).map VirtualSession.input).getD []

def drainInput (vcm : VirtualConnManager G User) (localID : ℕ) :
    VirtualConnManager G User × List ClientFrame :=
  let budget := vcm.wireLimits.maxFramesPerDrain.toNat
  (vcm.modify localID (VirtualSession.dropInput budget) (VirtualSession.key_dropInput budget),
    (vcm.input localID).take budget)

lemma drained_append_input (vcm : VirtualConnManager G User) (localID : ℕ) :
    (vcm.drainInput localID).2 ++ (vcm.drainInput localID).1.input localID = vcm.input localID := by
  simp only [drainInput, input, lookup_modify]
  cases vcm.byLocal.lookup localID with
  | none => simp
  | some sess => exact take_append_drop _ _

/-! What the operations do to the event queue. -/

lemma input_prefix_modify (h : ∀ sess : VirtualSession G User, sess.input <+: (f sess).input)
    (i : ℕ) : vcm.input i <+: (vcm.modify id f hf).input i := by
  unfold input
  by_cases hi : i = id
  · subst hi
    rw [lookup_modify]
    cases vcm.byLocal.lookup i with
    | none => exact prefix_rfl
    | some sess => exact h sess
  · have hlookup : (vcm.modify id f hf).byLocal.lookup i = vcm.byLocal.lookup i :=
      lookup_modify_of_ne hi
    exact hlookup ▸ prefix_rfl

lemma input_prefix_appendChannel (vcm : VirtualConnManager G User) (localID : ℕ)
    (data : ClientFrame) (channel : Channel) (i : ℕ) :
    vcm.input i <+: (vcm.appendChannel localID data channel).input i := by
  refine input_prefix_modify (fun sess => ?_) i
  unfold VirtualSession.appendChannel
  split
  · exact prefix_rfl
  cases channel with
  | operation =>
    dsimp only
    split
    · exact prefix_rfl
    · exact prefix_rfl
  | event =>
    dsimp only
    split
    · exact prefix_rfl
    · exact prefix_append _ _

lemma input_prefix_injectChannelInputWithEpoch (vcm : VirtualConnManager G User) (localID : ℕ)
    (data : ClientFrame) (epoch : ℕ) (channel : Channel) (i : ℕ) :
    vcm.input i <+: (vcm.injectChannelInputWithEpoch localID data epoch channel).input i := by
  unfold injectChannelInputWithEpoch
  split
  · exact prefix_rfl
  · split
    · exact prefix_rfl
    · exact input_prefix_appendChannel vcm localID data channel i

lemma input_prefix_injectForwardedInputWithEpoch (vcm : VirtualConnManager G User) (localID : ℕ)
    (data : ClientFrame) (sourceEpoch : ℕ) (channel : Channel) (i : ℕ) :
    vcm.input i <+:
      (vcm.injectForwardedInputWithEpoch localID data sourceEpoch channel).1.input i := by
  unfold injectForwardedInputWithEpoch
  split
  · exact prefix_rfl
  · split
    · exact prefix_rfl
    · exact input_prefix_appendChannel vcm localID data channel i

lemma input_registerSession (vcm : VirtualConnManager G User) (key : SessionKey G)
    (username : User) (epoch : ℕ) (cellID : CellID) (i : ℕ) :
    (vcm.registerSession key username epoch cellID).1.input i = vcm.input i := by
  unfold registerSession
  split
  · rename_i localID _
    unfold input
    by_cases hi : i = localID
    · subst hi
      rw [lookup_modify, Option.map_map]
      congr 2
      funext sess
      exact sess.input_refresh
    · rw [lookup_modify_of_ne hi]
  · unfold input addSession
    by_cases hi : i = vcm.nextLocal
    · subst hi
      rw [lookup_insert, lookup_nextLocal]
      rfl
    · rw [lookup_insert_ne hi]

end VirtualConnManager

end Mmokit
