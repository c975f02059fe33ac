/-
Presence on one stage: entity store, `Replica` components, netID index and replica map agree.
-/
import Mmokit.Universe.RelocationSteps

namespace Mmokit

open Function Stage World

def NetIDIndex.promote (idx : NetIDIndex) (netID : NetID) (entity : Entity) :
    TransitionResult × NetIDIndex :=
  match idx.slots netID with
  | none => (⟨.rejected, none⟩, idx)
  | some cur =>
    if cur.presence = .replica then
      (⟨.updated, some cur.entity⟩, idx.setSlot netID (some ⟨entity, .live⟩))
    else (⟨.rejected, none⟩, idx)

inductive PromoteError
  | notReplica (netID : NetID)
  | notAlive (netID : NetID)
  | promoteRejected (netID : NetID)
deriving DecidableEq

inductive StageOp (M : Type*)
  /-- A local spawn; `nid` is the netID taken from the engine. -/
  | spawn (nid : NetID)
  | spawnFromTransfer (frame : TransferFrame)
  | spawnLiveFromTransfer (epoch : Epoch) (blob : TransferFrame)
  | applyBorderFrame (entries : List BorderEntry) (sourceCellID : M)
  | upsertBorderReplica (netID : NetID) (epoch : Epoch) (sourceCellID : M)
  | removeReplicaByNetID (netID : NetID)
  | expireReplicas
  | promoteReplicaToLive (netID : NetID) (newEpoch : Epoch)
  | demoteLiveToReplica (netID : NetID) (newSourceCellID : M)
  /-- The epoch of an entity is raised when it leaves its cell. -/
  | setEpoch (e : Entity) (epoch : Epoch)
  | removeEntityNow (e : Entity)
  | markForRemoval (e : Entity)
  | flushRemovals

namespace Stage

variable {M : Type*}

def spawn (b : Stage M) (nid : NetID) : Option Entity × Stage M :=
  let (entity, ecs) := b.ecs.newEntity ⟨some ⟨nid, 0⟩, none⟩
  let b₁ := { b with ecs := ecs }
  if nid ≠ 0 then
    let (res, idx) := b₁.netIDIdx.enter nid entity .live
    let b₂ := { b₁ with netIDIdx := idx }
    match res.action with
    | .installed | .updated => (some entity, b₂)
    | .duplicate =>
      if b.strictNetIDIndex then (none, b₂.removeEntityNow entity) else (some entity, b₂)
    | .rejected =>
      if b.strictNetIDIndex && b₂.ecs.alive entity then (none, b₂.removeEntityNow entity)
      else (some entity, b₂)
  else (some entity, b₁)

def unmarkReplica (b : Stage M) (e : Entity) : Stage M :=
  match b.ecs.rows e with
  | some row => { b with ecs := b.ecs.setRow e { row with replica := none } }
  | none => b

def promoteReplicaToLive (b : Stage M) (netID : NetID) (newEpoch : Epoch) :
    Except PromoteError Unit × Stage M :=
  match b.lookupNetID netID with
  | some ⟨ent, .replica⟩ =>
    if b.ecs.alive ent then
      let b₁ := (b.setEpoch ent newEpoch).unmarkReplica ent
      let b₂ := { b₁ with replicaNetIDs := update b₁.replicaNetIDs netID none }
      let b₃ := b₂.forgetBorderNetID netID
      let (res, idx) := b₃.netIDIdx.promote netID ent
      let b₄ := { b₃ with netIDIdx := idx }
      if res.action = .updated then (.ok (), b₄) else (.error (.promoteRejected netID), b₄)
    else (.error (.notAlive netID), b)
  | _ => (.error (.notReplica netID), b)

def apply [DecidableEq M] (b : Stage M) : StageOp M → Stage M
  | .spawn nid => (b.spawn nid).2
  | .spawnFromTransfer frame => (b.spawnFromTransferCore frame .live).2
  | .spawnLiveFromTransfer epoch blob => (b.spawnLiveFromTransfer epoch blob).2
  | .applyBorderFrame entries source => b.applyBorderFrame entries source
  | .upsertBorderReplica netID epoch source => b.upsertBorderReplica netID epoch source
  | .removeReplicaByNetID netID => b.removeReplicaByNetID netID
  | .expireReplicas => b.expireReplicas
  | .promoteReplicaToLive netID epoch => (b.promoteReplicaToLive netID epoch).2
  | .demoteLiveToReplica netID dest => (b.demoteLiveToReplica netID dest).2
  | .setEpoch e epoch => b.setEpoch e epoch
  | .removeEntityNow e => b.removeEntityNow e
  | .markForRemoval e => b.markForRemoval e
  | .flushRemovals => b.flushRemovals

variable {b : Stage M} {n m : NetID} {e : Entity} {epoch : Epoch} {source : M}

lemma spawn_eq_spawnCore (nid : NetID) :
    (b.spawn nid).2 = (b.spawnFromTransferCore ⟨nid, 0⟩ .live).2 := by
  have halive : alive ⟨b.ecs.next + 1, update b.ecs.rows b.ecs.next
      (some ⟨some ⟨nid, 0⟩, none⟩)⟩ b.ecs.next = true := by
    simp [alive]
  unfold spawn spawnFromTransferCore
  by_cases hn : nid = 0
  · simp [hn]
  · simp only [hn, ne_eq, not_false_eq_true, if_true, if_false, newEntity, halive,
      Bool.and_true]
    cases (b.netIDIdx.enter nid b.ecs.next .live).1.action <;> cases b.strictNetIDIndex <;> rfl

@[simp] lemma setEpoch_strict : (b.setEpoch e epoch).strictNetIDIndex = b.strictNetIDIndex := by
  unfold setEpoch
  split <;> rfl

@[simp] lemma refreshReplica_strict :
    (b.refreshReplica e source).strictNetIDIndex = b.strictNetIDIndex := by
  unfold refreshReplica
  split <;> rfl

@[simp] lemma removeEntityNow_strict :
    (b.removeEntityNow e).strictNetIDIndex = b.strictNetIDIndex := by
  unfold removeEntityNow cleanupEntityRemoval untrackReplica exitIndex
  repeat' split
  all_goals rfl

@[simp] lemma forgetBorderNetID_strict :
    (b.forgetBorderNetID m).strictNetIDIndex = b.strictNetIDIndex := rfl

@[simp] lemma removeReplicaByNetID_strict :
    (b.removeReplicaByNetID m).strictNetIDIndex = b.strictNetIDIndex := by
  unfold removeReplicaByNetID
  repeat' split
  all_goals first | exact removeEntityNow_strict | rfl

@[simp] lemma upsertBorderReplica_strict :
    (b.upsertBorderReplica m epoch source).strictNetIDIndex = b.strictNetIDIndex := by
  have hcreate : ∀ b : Stage M,
      (b.createBorderReplica m epoch source).strictNetIDIndex = b.strictNetIDIndex := by
    intro b
    unfold createBorderReplica
    simp only
    split
    · exact removeEntityNow_strict
    · rfl
  unfold upsertBorderReplica
  simp only
  repeat' split
  all_goals try simp only [refreshReplica_strict, setEpoch_strict, hcreate]

lemma foldl_strict {α : Type*} {f : Stage M → α → Stage M}
    (hf : ∀ b a, (f b a).strictNetIDIndex = b.strictNetIDIndex) (l : List α) (b : Stage M) :
    (l.foldl f b).strictNetIDIndex = b.strictNetIDIndex := by
  induction l generalizing b with
  | nil => rfl
  | cons a l ih => rw [List.foldl_cons, ih, hf]

lemma apply_strict [DecidableEq M] (b : Stage M) (op : StageOp M) :
    (b.apply op).strictNetIDIndex = b.strictNetIDIndex := by
  have hcore : ∀ frame : TransferFrame,
      (b.spawnFromTransferCore frame .live).2.strictNetIDIndex = b.strictNetIDIndex := by
    intro frame
    obtain ⟨idx, -, h | ⟨err, h⟩⟩ := spawnCore_cases (b := b) frame
    · rw [h]
      rfl
    · rw [h]
      exact removeEntityNow_strict
  cases op with
  | spawn nid => exact (congrArg _ (spawn_eq_spawnCore nid)).trans (hcore _)
  | spawnFromTransfer frame => exact hcore frame
  | spawnLiveFromTransfer epoch blob =>
    have h := hcore blob
    show (b.spawnLiveFromTransfer epoch blob).2.strictNetIDIndex = _
    unfold spawnLiveFromTransfer
    split
    · rename_i heq
      rwa [heq] at h
    · rename_i heq
      rw [heq] at h
      exact setEpoch_strict.trans h
  | applyBorderFrame entries source =>
    refine (foldl_strict (fun b netID => ?_) _ _).trans (foldl_strict (fun b entry => ?_) _ _)
    · split
      · rfl
      · exact removeReplicaByNetID_strict
    · split
      · exact upsertBorderReplica_strict
      · rfl
  | upsertBorderReplica netID epoch source => exact upsertBorderReplica_strict
  | removeReplicaByNetID netID => exact removeReplicaByNetID_strict
  | expireReplicas =>
    obtain ⟨marked, hexp, -⟩ : ∃ marked, b.expireReplicas = _ ∧ _ := foldl_markForRemoval_eq _ _
    show b.expireReplicas.strictNetIDIndex = _
    rw [hexp]
  | promoteReplicaToLive netID epoch =>
    show (b.promoteReplicaToLive netID epoch).2.strictNetIDIndex = _
    unfold promoteReplicaToLive unmarkReplica
    simp only
    repeat' split
    all_goals first | rfl | exact setEpoch_strict
  | demoteLiveToReplica netID dest =>
    show (b.demoteLiveToReplica netID dest).2.strictNetIDIndex = _
    unfold demoteLiveToReplica markReplica
    simp only
    repeat' split
    all_goals rfl
  | setEpoch e epoch => exact setEpoch_strict
  | removeEntityNow e => exact removeEntityNow_strict
  | markForRemoval e =>
    show (b.markForRemoval e).strictNetIDIndex = _
    unfold markForRemoval
    split <;> rfl
  | flushRemovals => exact foldl_strict (fun _ _ => removeEntityNow_strict) _ _

lemma Tame.refl (hwf : b.WF) (hco : b.CoherentAt n) : Tame n b b := (Quiet.refl hwf hco).tame

lemma Tame.trans {b₁ b₂ : Stage M} (h : Tame n b b₁) (h' : Tame n b₁ b₂) :
    Tame n b b₂ := ⟨h.evolves.trans h'.evolves, h'.wf, h'.coherent⟩

lemma tame_removeEntityNow (hwf : b.WF) (hco : b.CoherentAt n) :
    Tame n b (b.removeEntityNow e) := by
  by_cases hs : b.netIDIdx.slots n = some ⟨e, .live⟩
  · obtain ⟨row, hrow, ⟨epoch, hnid⟩, hfit⟩ := hco.slot_row hs
    have hslot : (b.removeEntityNow e).netIDIdx.slots n = none := by
      rw [removeEntityNow_of_alive hrow]
      simp [hnid, exitIndex, NetIDIndex.exitEntity, hs]
    have htracked : ∀ e', (b.removeEntityNow e).replicaNetIDs n ≠ some e' := by
      intro e' ht
      rcases removeEntityNow_tracked (b := b) (e := e) n with hm | ⟨hm, -⟩
      · have hs' := hco.tracked_iff.mp (hm ▸ ht)
        simp [hs] at hs'
      · simp [hm] at ht
    refine ⟨evolves_removeEntityNow, hwf.removeEntityNow, ⟨?_, ?_, ?_⟩⟩
    · intro e' p hs'
      simp [hslot] at hs'
    · intro e' row' epoch' hrow' hid'
      rw [removeEntityNow_rows] at hrow'
      by_cases he : e' = e
      · simp [he] at hrow'
      -- a second entity with the identifier would be in the slot too
      rw [update_of_ne he] at hrow'
      obtain ⟨p, hp⟩ := hco.row_slot hrow' hid'
      simp [hs, Ne.symm he] at hp
    · intro e'
      simp [hslot, htracked]
  · exact (quiet_removeEntityNow hwf hco hs).tame

lemma tame_setEpoch (hwf : b.WF) (hco : b.CoherentAt n) : Tame n b (b.setEpoch e epoch) := by
  by_cases hs : b.netIDIdx.slots n = some ⟨e, .live⟩
  · exact (setEpoch_live epoch hwf hco hs).1
  · exact (quiet_setEpoch hwf hco hs).tame

lemma spawned_removed (hwf : b.WF) (row : Row M) :
    let b' := (b.spawned row b.netIDIdx b.replicaNetIDs).removeEntityNow b.ecs.next
    b'.ecs.rows = b.ecs.rows ∧ b'.netIDIdx.slots = b.netIDIdx.slots := by
  refine ⟨?_, funext fun m => ?_⟩
  · rw [removeEntityNow_rows]
    show update (update b.ecs.rows b.ecs.next (some row)) b.ecs.next none = _
    rw [Function.update_idem, ← hwf.fresh _ (Nat.le_refl _), Function.update_eq_self]
  · exact (removeEntityNow_slots m).resolve_right fun ⟨_, _, hs⟩ => slot_ne_next hwf hs rfl

lemma tame_spawned_removed {row : Row M} (hwf : b.WF) (hco : b.CoherentAt n)
    (hid : row.networkID = some ⟨m, epoch⟩) :
    Tame n b ((b.spawned row b.netIDIdx b.replicaNetIDs).removeEntityNow b.ecs.next) := by
  obtain ⟨hrows, hslots⟩ := spawned_removed hwf row
  have hslot := congrFun hslots n
  have htracked : ((b.spawned row b.netIDIdx b.replicaNetIDs).removeEntityNow
      b.ecs.next).replicaNetIDs n = b.replicaNetIDs n :=
    (removeEntityNow_tracked n).resolve_right fun ⟨_, ht⟩ => Nat.lt_irrefl _ (hwf.tracked ht).1
  refine ⟨evolves_spawned.trans evolves_removeEntityNow,
    (hwf.spawned hid (.inl rfl) (.inl rfl)).removeEntityNow, ⟨?_, ?_, ?_⟩⟩
  · intro e p hs
    rw [hrows]
    exact hco.slot_row (hslot ▸ hs)
  · intro e r epoch' hr hr'
    rw [hslot]
    exact hco.row_slot (hrows ▸ hr) hr'
  · intro e
    rw [hslot, htracked]
    exact hco.tracked_iff

lemma enter_live_of_taken {idx : NetIDIndex} {slot : NetIDSlot} (h : idx.slots m = some slot) :
    (idx.enter m e .live).2 = idx ∧ ((idx.enter m e .live).1.action = .duplicate ∨
      (idx.enter m e .live).1.action = .rejected) := by
  rcases slot with ⟨e', _ | _ | _⟩
  all_goals simp [NetIDIndex.enter, h]

lemma spawnCore_of_taken (frame : TransferFrame) (hstrict : b.strictNetIDIndex = true)
    (hn : frame.networkID ≠ 0) {slot : NetIDSlot}
    (hs : b.netIDIdx.slots frame.networkID = some slot) :
    ∃ err, b.spawnFromTransferCore frame .live =
      (.error err, (b.spawned ⟨some ⟨frame.networkID, frame.epoch⟩, none⟩ b.netIDIdx
        b.replicaNetIDs).removeEntityNow b.ecs.next) := by
  obtain ⟨hidx, hact⟩ := enter_live_of_taken (e := b.ecs.next) hs
  unfold spawnFromTransferCore
  simp only [newEntity, if_neg hn, hidx]
  rcases hact with hact | hact
  · rw [hact]
    exact ⟨_, if_pos hstrict⟩
  · rw [hact]
    exact ⟨_, if_pos hstrict⟩

lemma tame_spawnCore (frame : TransferFrame) (hstrict : b.strictNetIDIndex = true) (hn : n ≠ 0)
    (hwf : b.WF) (hco : b.CoherentAt n) : Tame n b (b.spawnFromTransferCore frame .live).2 := by
  by_cases hid : frame.networkID = n
  · subst hid
    cases hs : b.netIDIdx.slots frame.networkID with
    | none =>
      obtain ⟨b₁, hcore, htame, -⟩ := spawnCore_of_free frame hwf hco hn rfl hs
      rw [hcore]
      exact htame
    | some slot =>
      obtain ⟨err, hcore⟩ := spawnCore_of_taken frame hstrict hn hs
      rw [hcore]
      exact tame_spawned_removed hwf hco rfl
  · exact (spawnCore_of_ne frame hwf hco hid).1.tame

lemma tame_spawnLive (blob : TransferFrame) (hstrict : b.strictNetIDIndex = true) (hn : n ≠ 0)
    (hwf : b.WF) (hco : b.CoherentAt n) : Tame n b (b.spawnLiveFromTransfer epoch blob).2 := by
  have h := tame_spawnCore blob hstrict hn hwf hco
  unfold spawnLiveFromTransfer
  split
  · rename_i heq
    rwa [heq] at h
  · rename_i heq
    rw [heq] at h
    exact h.trans (tame_setEpoch h.wf h.coherent)

lemma promote_of_replica {row : Row M} (hs : b.netIDIdx.slots m = some ⟨e, .replica⟩)
    (hrow : b.ecs.rows e = some row) (hnid : row.networkID = some ⟨m, epoch⟩) (newEpoch : Epoch) :
    (b.promoteReplicaToLive m newEpoch).2 =
      { b with
        ecs := b.ecs.setRow e ⟨some ⟨m, newEpoch⟩, none⟩
        netIDIdx := b.netIDIdx.setSlot m (some ⟨e, .live⟩)
        replicaNetIDs := update b.replicaNetIDs m none
        borderLastSeen := b.borderLastSeen.filter (·.2 ≠ m) } := by
  have hlook : b.lookupNetID m = some ⟨e, .replica⟩ := hs
  simp [promoteReplicaToLive, hlook, alive, hrow, hnid, setEpoch, unmarkReplica, setRow,
    forgetBorderNetID, NetIDIndex.promote, hs]

lemma promote_of_not_replica (hs : ∀ e, b.netIDIdx.slots m ≠ some ⟨e, .replica⟩)
    (newEpoch : Epoch) : (b.promoteReplicaToLive m newEpoch).2 = b := by
  unfold promoteReplicaToLive
  split
  · rename_i ent hlook
    exact absurd hlook (hs ent)
  · rfl

lemma promote_of_dead (hs : b.netIDIdx.slots m = some ⟨e, .replica⟩) (hrow : b.ecs.rows e = none)
    (newEpoch : Epoch) : (b.promoteReplicaToLive m newEpoch).2 = b := by
  have hlook : b.lookupNetID m = some ⟨e, .replica⟩ := hs
  simp [promoteReplicaToLive, hlook, alive, hrow]

lemma tame_promote (newEpoch : Epoch) (hwf : b.WF) (hco : b.CoherentAt n) :
    Tame n b (b.promoteReplicaToLive m newEpoch).2 := by
  by_cases hs : ∃ e, b.netIDIdx.slots m = some ⟨e, .replica⟩
  swap
  · rw [promote_of_not_replica (fun e he => hs ⟨e, he⟩)]
    exact .refl hwf hco
  obtain ⟨e, hs⟩ := hs
  cases hrow : b.ecs.rows e with
  | none =>
    rw [promote_of_dead hs hrow]
    exact .refl hwf hco
  | some row =>
    obtain ⟨epoch, hnid⟩ := (hwf.slot hs).2 row hrow
    rw [promote_of_replica hs hrow hnid]
    have hid : (some (⟨m, newEpoch⟩ : NetworkID)).map (·.id) = row.networkID.map (·.id) := by
      simp [hnid]
    have hev : Evolves b { b with ecs := b.ecs.setRow e ⟨some ⟨m, newEpoch⟩, none⟩ } :=
      evolves_setRow hrow hid
    have hwf₁ : WF { b with ecs := b.ecs.setRow e ⟨some ⟨m, newEpoch⟩, none⟩ } :=
      hwf.setRow hrow hid
    refine ⟨⟨hev.next_le, hev.ids⟩, ⟨hwf₁.fresh, ?_, ?_⟩, ?_⟩
    · intro m' e' p hs'
      by_cases hm : m' = m
      · subst hm
        obtain ⟨rfl, -⟩ : e = e' ∧ EntityPresence.live = p := by simpa using hs'
        exact hwf₁.slot hs
      · exact hwf₁.slot (p := p) (by simpa [hm] using hs')
    · intro m' e' ht
      by_cases hm : m' = m
      · simp [hm] at ht
      · exact hwf₁.tracked (by simpa [hm] using ht)
    by_cases hmn : n = m
    · -- the netID that is promoted
      subst hmn
      refine ⟨?_, ?_, ?_⟩
      · intro e' p hs'
        obtain ⟨rfl, rfl⟩ : e = e' ∧ EntityPresence.live = p := by simpa using hs'
        exact ⟨⟨some ⟨n, newEpoch⟩, none⟩, update_self .., ⟨newEpoch, rfl⟩, rfl⟩
      · intro e' r epoch' hr hr'
        by_cases he : e' = e
        · subst he
          exact ⟨.live, by simp⟩
        · obtain ⟨p, hp⟩ := hco.row_slot (by simpa [setRow, he] using hr) hr'
          obtain ⟨rfl, -⟩ : e = e' ∧ _ := by simpa [hs] using hp
          exact absurd rfl he
      · simp
    · -- another netID: its slot is not the promoted entity's
      have hne : ∀ {e' p}, b.netIDIdx.slots n = some ⟨e', p⟩ → e' ≠ e := by
        rintro e' p hs' rfl
        exact slot_ne_of_denotes hco (hwf.slot hs) (Ne.symm hmn) hs'
      refine ⟨?_, ?_, ?_⟩
      · intro e' p hs'
        have hs'' : b.netIDIdx.slots n = some ⟨e', p⟩ := by simpa [hmn] using hs'
        obtain ⟨r, hr, hrest⟩ := hco.slot_row hs''
        exact ⟨r, by simpa [setRow, hne hs''] using hr, hrest⟩
      · intro e' r epoch' hr hr'
        by_cases he : e' = e
        · subst he
          obtain rfl : (⟨some ⟨m, newEpoch⟩, none⟩ : Row M) = r := by
            simpa [setRow] using hr
          simp [Ne.symm hmn] at hr'
        · obtain ⟨p, hp⟩ := hco.row_slot (by simpa [setRow, he] using hr) hr'
          exact ⟨p, by simpa [hmn] using hp⟩
      · intro e'
        simpa [hmn] using hco.tracked_iff (e := e')

lemma tame_demote (dest : M) (hwf : b.WF) (hco : b.CoherentAt n) :
    Tame n b (b.demoteLiveToReplica m dest).2 := by
  by_cases hmn : m = n
  · subst hmn
    by_cases hlive : b.isLive m = true
    · exact (demote_live dest hwf hco hlive).1
    · rw [demote_of_not_live (by simpa using hlive)]
      exact .refl hwf hco
  · exact (demote_of_ne dest hwf hco hmn).1.tame

lemma tame_expireReplicas (hwf : b.WF) (hco : b.CoherentAt n) : Tame n b b.expireReplicas := by
  obtain ⟨marked, hexp, -⟩ : ∃ marked, b.expireReplicas = _ ∧ _ := foldl_markForRemoval_eq _ _
  have h₁ := quiet_decrement hwf hco
  rw [hexp]
  refine h₁.tame.trans (Quiet.tame ?_)
  exact quiet_of_same h₁.wf h₁.coherent rfl rfl rfl

lemma tame_flushRemovals (hwf : b.WF) (hco : b.CoherentAt n) : Tame n b b.flushRemovals := by
  have hfold : ∀ (l : List Entity) {b : Stage M}, b.WF → b.CoherentAt n →
      Tame n b (l.foldl removeEntityNow b) := by
    intro l
    induction l with
    | nil => exact fun hwf hco => .refl hwf hco
    | cons a l ih =>
      intro b hwf hco
      have h₁ := tame_removeEntityNow (e := a) hwf hco
      exact h₁.trans (ih h₁.wf h₁.coherent)
  have h₁ := hfold b.toRemove hwf hco
  refine h₁.trans (Quiet.tame ?_)
  exact quiet_of_same h₁.wf h₁.coherent rfl rfl rfl

section Runs

variable [DecidableEq M]

lemma tame_apply (op : StageOp M) (hstrict : b.strictNetIDIndex = true) (hn : n ≠ 0) (hwf : b.WF)
    (hco : b.CoherentAt n) : Tame n b (b.apply op) := by
  cases op with
  | spawn nid =>
    show Tame n b (b.spawn nid).2
    rw [spawn_eq_spawnCore]
    exact tame_spawnCore _ hstrict hn hwf hco
  | spawnFromTransfer frame => exact tame_spawnCore frame hstrict hn hwf hco
  | spawnLiveFromTransfer epoch blob => exact tame_spawnLive blob hstrict hn hwf hco
  | applyBorderFrame entries source => exact (quiet_applyBorderFrame hwf hco).tame
  | upsertBorderReplica netID epoch source => exact (quiet_upsertBorderReplica hwf hco).tame
  | removeReplicaByNetID netID => exact (quiet_removeReplicaByNetID hwf hco).tame
  | expireReplicas => exact tame_expireReplicas hwf hco
  | promoteReplicaToLive netID epoch => exact tame_promote epoch hwf hco
  | demoteLiveToReplica netID dest => exact tame_demote dest hwf hco
  | setEpoch e epoch => exact tame_setEpoch hwf hco
  | removeEntityNow e => exact tame_removeEntityNow hwf hco
  | markForRemoval e =>
    refine Quiet.tame ?_
    show Quiet n b (b.markForRemoval e)
    unfold markForRemoval
    split
    · exact .refl hwf hco
    · exact quiet_of_same hwf hco rfl rfl rfl
  | flushRemovals => exact tame_flushRemovals hwf hco

def Carries (b : Stage M) (n : NetID) (e : Entity) (row : Row M) : Prop :=
  b.ecs.rows e = some row ∧ row.networkID.map (·.id) = some n

omit [DecidableEq M] in
lemma carries_iff {row : Row M} : b.Carries n e row ↔
    b.ecs.rows e = some row ∧ ∃ epoch, row.networkID = some ⟨n, epoch⟩ := by
  constructor
  · rintro ⟨hrow, hid⟩
    obtain ⟨⟨id, epoch⟩, hnid, rfl⟩ := Option.map_eq_some_iff.mp hid
    exact ⟨hrow, epoch, hnid⟩
  · rintro ⟨hrow, epoch, hnid⟩
    exact ⟨hrow, by simp [hnid]⟩

structure Presence (n : NetID) (b : Stage M) : Prop where
  /-- At most one living entity carries the netID. -/
  unique : ∀ {e e' row row'}, b.Carries n e row → b.Carries n e' row' → e = e'
  /-- Live in the index: alive, without a `Replica` component. -/
  live : ∀ e, b.lookupNetID n = some ⟨e, .live⟩ ↔ ∃ row, b.Carries n e row ∧ row.replica = none
  /-- Replica in the index: alive, with a `Replica` component, and in the replica map. -/
  replica : ∀ e, b.lookupNetID n = some ⟨e, .replica⟩ ↔
    (∃ row, b.Carries n e row ∧ row.replica.isSome) ∧ b.replicaNetIDs n = some e

omit [DecidableEq M] in
lemma CoherentAt.presence (hco : b.CoherentAt n) : b.Presence n := by
  refine ⟨?_, ?_, ?_⟩
  · intro e e' row row' h h'
    obtain ⟨hrow, epoch, hnid⟩ := carries_iff.mp h
    obtain ⟨hrow', epoch', hnid'⟩ := carries_iff.mp h'
    obtain ⟨p, hp⟩ := hco.row_slot hrow hnid
    obtain ⟨p', hp'⟩ := hco.row_slot hrow' hnid'
    rw [hp] at hp'
    simpa using congrArg (Option.map NetIDSlot.entity) hp'
  · intro e
    constructor
    · intro hs
      obtain ⟨row, hrow, hnid, hfit⟩ := hco.slot_row hs
      exact ⟨row, carries_iff.mpr ⟨hrow, hnid⟩, hfit⟩
    rintro ⟨row, hc, hrep⟩
    obtain ⟨hrow, epoch, hnid⟩ := carries_iff.mp hc
    obtain ⟨p, hp⟩ := hco.row_slot hrow hnid
    obtain ⟨row', hrow', -, hfit⟩ := hco.slot_row hp
    obtain rfl := Option.some.inj (hrow.symm.trans hrow')
    cases p with
    | none => exact hfit.elim
    | live => exact hp
    | replica =>
      obtain ⟨rep, hsome, -⟩ := hfit
      simp [hrep] at hsome
  · intro e
    constructor
    · intro hs
      obtain ⟨row, hrow, hnid, rep, hrep, -⟩ := hco.slot_row hs
      exact ⟨⟨row, carries_iff.mpr ⟨hrow, hnid⟩, by simp [hrep]⟩, hco.tracked_iff.mpr hs⟩
    · rintro ⟨-, ht⟩
      exact hco.tracked_iff.mp ht

def step (b : Stage M) (op : StageOp M) : Option (Stage M) :=
  some (b.apply op)

/-- **Presence invariant.** With the strict index, whatever operations run on a stage and in
whatever order, each netID but `0` has at most one living entity, and the index and the replica
map say about it what its components say. -/
theorem presence_of_run (h : Run (Steps step) Always (new true : Stage M) b) (hn : n ≠ 0) :
    b.Presence n := by
  have hinv : b.strictNetIDIndex = true ∧ b.WF ∧ b.CoherentAt n := by
    refine h.invariant (I := fun b => b.strictNetIDIndex = true ∧ b.WF ∧ b.CoherentAt n) ?_ ?_
    · exact ⟨rfl, new_wf true, new_coherent true⟩
    rintro b b' op ⟨hstrict, hwf, hco⟩ - hstep
    obtain rfl : b.apply op = b' := Option.some.inj hstep
    have htame := tame_apply op hstrict hn hwf hco
    exact ⟨(apply_strict b op).trans hstrict, htame.wf, htame.coherent⟩
  exact hinv.2.2.presence

theorem presence_of_run_handoff : ∃ b : Stage Unit,
    (Run (Steps step) Always (new true) b ∧ b.lookupNetID 7 = some ⟨0, .live⟩) ∧
      b.Presence 7 := by
  obtain ⟨b, hrun, hlive⟩ := exists_run (s := (new true : Stage Unit)) step Always
    (fun b => b.lookupNetID 7 = some ⟨0, .live⟩)
    [.spawn 7, .spawnFromTransfer ⟨7, 3⟩, .demoteLiveToReplica 7 (),
      .applyBorderFrame [⟨7, 4, true⟩] (),
      .expireReplicas, .promoteReplicaToLive 7 5, .spawn 8, .removeEntityNow 2] (by decide +kernel)
  exact ⟨b, ⟨hrun, hlive⟩, presence_of_run hrun (by decide)⟩

/-- The netID `0` is not in the index: two transfers without a netID are two entities that
carry it. -/
theorem zero_netID_not_unique : ∃ b : Stage Unit,
    Run (Steps step) Always (new true) b ∧ ¬ b.Presence 0 := by
  obtain ⟨b, hrun, h0, h1⟩ := exists_run (s := (new true : Stage Unit)) step Always
    (fun b => b.ecs.rows 0 = some ⟨some ⟨0, 0⟩, none⟩ ∧ b.ecs.rows 1 = some ⟨some ⟨0, 0⟩, none⟩)
    [.spawnFromTransfer ⟨0, 0⟩, .spawnFromTransfer ⟨0, 0⟩] (by decide +kernel)
  refine ⟨b, hrun, fun hp => ?_⟩
  have h : (0 : Entity) = 1 := hp.unique ⟨h0, rfl⟩ ⟨h1, rfl⟩
  exact absurd h (by decide)

end Runs

end Stage

end Mmokit
