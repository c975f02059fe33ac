/-
A transfer spawn with its player's session (`SpawnFromTransferCore` in `pkg/universe/stage.go`).

Before the entity is created, the session of its player is registered with the connection manager of
this node. If the index then refuses the entity, the entity is removed again, but the registration
stays.
-/
import Mmokit.Universe.StagePresence
import Mmokit.Universe.TransferCodec
import Mmokit.Universe.VirtualConnManager

namespace Mmokit

open TransferCodec (TransferPlayer UUID unmarshalTransferFrame)

structure PlayerSession where
  entity : Entity
  streamGeneration : UInt32
  debugFlags : UInt32
  userID : UUID

structure NodeStage where
  cellID : CellID
  stage : Stage CellID
  vcm : Option (VirtualConnManager (List UInt8) (List UInt8))
  byConnID : ℕ → Option ℕ
  byUsername : List UInt8 → Option ℕ
  sessions : ℕ → PlayerSession

inductive SpawnError
  | decode (err : TransferCodec.ReadError)
  | stage (err : StageError)

def TransferCodec.TransferPlayer.sessionKey (p : TransferPlayer) : SessionKey (List UInt8) :=
  ⟨p.gatewayID, p.gatewayConnID.toNat⟩

namespace NodeStage

variable (n : NodeStage)

def remap (p : TransferPlayer) : Option (VirtualConnManager (List UInt8) (List UInt8)) × ℕ :=
  match n.vcm with
  | none => (none, p.connID.toNat)
  | some vcm =>
    if p.connID ≠ 0 ∧ p.gatewayConnID ≠ 0 then
      let r := vcm.registerSession p.sessionKey p.username 1 n.cellID
      (some r.1, r.2)
    else (some vcm, p.connID.toNat)

/-- `SpawnFromTransferCore`. The session of the connection, if there is one, is attached to the new
entity before the index is asked. -/
def spawnFromTransferCore (data : List UInt8) (presence : EntityPresence) :
    Except SpawnError Entity × NodeStage :=
  match unmarshalTransferFrame data with
  | .error err => (.error (.decode err), n)
  | .ok (frame, _) =>
    let r := n.remap frame.toTransferPlayer
    let session := ⟨n.stage.ecs.next, frame.streamGeneration, frame.debugFlags, frame.userID⟩
    let sessions := match if r.2 = 0 then none else n.byConnID r.2 with
      | some s => Function.update n.sessions s session
      | none => n.sessions
    let spawn := n.stage.spawnFromTransferCore ⟨frame.networkID, frame.epoch⟩ presence
    (spawn.1.mapError .stage, { n with stage := spawn.2, vcm := r.1, sessions })

/-- The session indexes, the sessions of the connection manager, the netID index and the living
entities are the same. -/
structure Same (n n' : NodeStage) : Prop where
  byConnID : n'.byConnID = n.byConnID
  byUsername : n'.byUsername = n.byUsername
  vcm : n'.vcm.map (·.byLocal.lookup) = n.vcm.map (·.byLocal.lookup)
  index : n'.stage.lookupNetID = n.stage.lookupNetID
  rows : n'.stage.ecs.rows = n.stage.ecs.rows

/-- The remap finds nothing to do: there is no connection manager, no session to register, or the
session is registered already, for this cell. -/
def Registered (p : TransferPlayer) : Prop :=
  ∀ vcm, n.vcm = some vcm → p.connID ≠ 0 → p.gatewayConnID ≠ 0 →
    ∃ sess, vcm.session p.sessionKey = some sess ∧ 1 ≤ sess.epoch ∧ sess.cellID = n.cellID

end NodeStage

lemma Stage.spawnCore_error {M : Type*} {b b' : Stage M} {frame : TransferFrame}
    {p : EntityPresence} {err : StageError} (hwf : b.WF)
    (h : b.spawnFromTransferCore frame p = (.error err, b')) :
    b'.ecs.rows = b.ecs.rows ∧ b'.netIDIdx.slots = b.netIDIdx.slots := by
  have hkept : ∀ m e, (b.netIDIdx.enter m e p).1.action = .duplicate ∨
      (b.netIDIdx.enter m e p).1.action = .rejected → (b.netIDIdx.enter m e p).2 = b.netIDIdx := by
    intro m e
    unfold NetIDIndex.enter
    split
    · simp
    next cur _ =>
    rcases cur with ⟨_, _ | _ | _⟩
    · simp
    · by_cases hp : p = .live <;> simp [hp]
    · by_cases hp : p = .replica <;> simp [hp]
  simp only [spawnFromTransferCore] at h
  split at h
  · cases (Prod.mk.inj h).1
  split at h
  · cases (Prod.mk.inj h).1
  · cases (Prod.mk.inj h).1
  all_goals
    next hact =>
    split at h
    · obtain rfl := (Prod.mk.inj h).2
      rw [hkept _ _ (by simp [hact])]
      exact spawned_removed hwf _
    · cases (Prod.mk.inj h).1

lemma VirtualConnManager.lookup_registerSession_iff {G U : Type*} [DecidableEq G]
    {vcm : VirtualConnManager G U} {key : SessionKey G} {username : U} {c : CellID} :
    (vcm.registerSession key username 1 c).1.byLocal.lookup = vcm.byLocal.lookup ↔
      ∃ sess, vcm.session key = some sess ∧ 1 ≤ sess.epoch ∧ sess.cellID = c := by
  unfold registerSession
  split
  · next localID hkey =>
    obtain ⟨sess, hsess, -⟩ := (vcm.keyed key localID).mp hkey
    have hs : vcm.session key = some sess := session_eq_some.mpr ⟨localID, hkey, hsess⟩
    have hsame : (vcm.modify localID (VirtualSession.refresh 1 c)
        VirtualSession.key_refresh).byLocal.lookup = vcm.byLocal.lookup ↔
          sess.refresh 1 c = sess := by
      refine ⟨fun h => ?_, fun h => funext fun i => ?_⟩
      · have := congrFun h localID
        rwa [lookup_modify, hsess, Option.map_some, Option.some.injEq] at this
      · rcases eq_or_ne i localID with rfl | hi
        · rw [lookup_modify, hsess, Option.map_some, h]
        · exact lookup_modify_of_ne hi
    rw [hsame, hs]
    simp only [Option.some.injEq, exists_eq_left']
    constructor
    · intro h
      rw [← h]
      simp
    rintro ⟨hepoch, rfl⟩
    unfold VirtualSession.refresh
    rw [if_neg (by omega : ¬ sess.epoch < 1)]
    split <;> rfl
  · next hkey =>
    refine iff_of_false (fun h => ?_) ?_
    · have := congrFun h vcm.nextLocal
      rw [addSession, AList.lookup_insert, vcm.lookup_nextLocal] at this
      cases this
    rintro ⟨sess, hs, -⟩
    obtain ⟨_, hid, -⟩ := session_eq_some.mp hs
    rw [hkey] at hid
    cases hid

namespace NodeStage

variable {n n' : NodeStage} {data : List UInt8} {presence : EntityPresence} {err : SpawnError}

lemma remap_same_iff (p : TransferPlayer) : (n.remap p).1.map (·.byLocal.lookup) =
    n.vcm.map (·.byLocal.lookup) ↔ n.Registered p := by
  unfold remap Registered
  cases n.vcm with
  | none => simp
  | some vcm =>
    dsimp only
    split
    · next h =>
      simp [VirtualConnManager.lookup_registerSession_iff, h]
    · next h =>
      refine iff_of_true rfl fun _ _ hc hg => absurd ⟨hc, hg⟩ h

/-- **When a failed spawn is harmless.** If the spawn of a blob fails, everything is as before iff
the blob could not be read or the remap of its player found nothing to do. -/
theorem failed_spawn_harmless_iff (hwf : n.stage.WF)
    (h : n.spawnFromTransferCore data presence = (.error err, n')) :
    n.Same n' ↔ ∀ frame rest, unmarshalTransferFrame data = .ok (frame, rest) →
      n.Registered frame.toTransferPlayer := by
  unfold spawnFromTransferCore at h
  split at h
  · next hdata =>
    obtain rfl := (Prod.mk.inj h).2
    exact iff_of_true ⟨rfl, rfl, rfl, rfl, rfl⟩ fun _ _ hok => by simp [hdata] at hok
  next frame rest hdata =>
  cases hspawn : n.stage.spawnFromTransferCore ⟨frame.networkID, frame.epoch⟩ presence with
  | mk res stage =>
    rw [hspawn] at h
    cases res with
    | ok e => cases (Prod.mk.inj h).1
    | error e =>
      obtain ⟨hrows, hslots⟩ := Stage.spawnCore_error hwf hspawn
      obtain rfl := (Prod.mk.inj h).2
      constructor
      · intro hsame frame' rest' hdata'
        obtain ⟨rfl, -⟩ := Prod.mk.inj (Except.ok.inj (hdata.symm.trans hdata'))
        exact (remap_same_iff _).mp hsame.vcm
      · intro hreg
        exact ⟨rfl, rfl, (remap_same_iff _).mpr (hreg _ _ hdata), hslots, hrows⟩

def player : TransferCodec.TransferFrame :=
  { TransferCodec.strayFrame with connID := 1, gatewayConnID := 1, networkID := 7 }

def refusing (vcm : Option (VirtualConnManager (List UInt8) (List UInt8))) : NodeStage where
  cellID := ⟨0, 0, 0⟩
  stage := ((Stage.new true).spawnFromTransferCore ⟨7, 1⟩ .live).2
  vcm := vcm
  byConnID _ := none
  byUsername _ := none
  sessions _ := ⟨0, 0, 0, UUID.nil⟩

lemma refusing_refuses (vcm : Option (VirtualConnManager (List UInt8) (List UInt8))) :
    ∃ data n', (refusing vcm).spawnFromTransferCore data .live =
        (.error (.stage (.duplicateLive 7)), n') ∧
      n'.vcm = ((refusing vcm).remap player.toTransferPlayer).1 := by
  have hread := TransferCodec.reads_frame (f := player)
    ⟨Nat.zero_le _, Nat.zero_le _, Nat.zero_le _,
    fun _ hc => absurd hc List.not_mem_nil⟩ []
  refine ⟨_, _, by rw [spawnFromTransferCore, hread]; rfl, rfl⟩

lemma wf_refusing (vcm : Option (VirtualConnManager (List UInt8) (List UInt8))) :
    (refusing vcm).stage.WF :=
  (Stage.tame_spawnCore (n := 7) _ rfl (by decide) (Stage.new_wf _) (Stage.new_coherent _)).wf

theorem failed_spawn_harmless_iff_direct : ∃ data err n',
    (refusing none).spawnFromTransferCore data .live = (.error err, n') ∧
      (refusing none).Same n' := by
  obtain ⟨data, n', hspawn, -⟩ := refusing_refuses none
  exact ⟨data, _, n', hspawn, (failed_spawn_harmless_iff (wf_refusing _) hspawn).mpr
    fun _ _ _ _ h => by cases h⟩

/-- **The session stays.** The entity is refused, and its player has a session on this node. -/
theorem failed_spawn_registers_session : ∃ data err n',
    (refusing (some .new)).spawnFromTransferCore data .live = (.error err, n') ∧
      ¬ (refusing (some .new)).Same n' := by
  obtain ⟨data, n', hspawn, hvcm⟩ := refusing_refuses (some .new)
  refine ⟨data, _, n', hspawn, fun hsame => ?_⟩
  obtain ⟨sess, hsess, -⟩ := (remap_same_iff _).mp (hvcm ▸ hsame.vcm) _ rfl (by decide) (by decide)
  cases hsess

end NodeStage

end Mmokit
