/-
What the two ends of a handoff do to the authority over an identifier.

`spawnLiveFromTransfer` makes a stage the authority where it had no slot, `demoteLiveToReplica`
ends the authority, and raising the epoch of the live entity raises the epoch of the authority.
Each of them is quiet for every other identifier.
-/
import Mmokit.Universe.StageCoherence

namespace Mmokit

open Function NetIDIndex World

namespace Stage

variable {M : Type*} {b : Stage M} {n m : NetID} {e : Entity} {epoch : Epoch}

lemma isLive_iff : b.isLive n = true ↔ ∃ e, b.netIDIdx.slots n = some ⟨e, .live⟩ := by
  unfold isLive lookupNetID lookup
  rcases b.netIDIdx.slots n with _ | ⟨e, p⟩
  · simp
  · simp

lemma liveEpoch_of_slot (hco : b.CoherentAt n) (hs : b.netIDIdx.slots n = some ⟨e, .live⟩) :
    ∃ epoch, b.networkIDOf e = some ⟨n, epoch⟩ ∧ b.liveEpoch n = some epoch := by
  obtain ⟨row, hrow, ⟨epoch, hnid⟩, -⟩ := hco.slot_row hs
  refine ⟨epoch, by simp [networkIDOf, hrow, hnid], ?_⟩
  simp [liveEpoch, lookupNetID, lookup, hs, networkIDOf, hrow, hnid]

lemma isLive_iff_liveEpoch (hco : b.CoherentAt n) :
    b.isLive n = true ↔ b.liveEpoch n ≠ none := by
  constructor
  · intro h
    obtain ⟨e, hs⟩ := isLive_iff.mp h
    obtain ⟨epoch, -, hl⟩ := liveEpoch_of_slot hco hs
    simp [hl]
  · intro h
    rw [isLive_iff]
    by_contra hnot
    exact h (liveEpoch_of_not_live fun e hs => hnot ⟨e, hs⟩)

variable {b' : Stage M}

lemma Quiet.isLive (h : Quiet n b b') (hco : b.CoherentAt n) : b'.isLive n = b.isLive n := by
  rw [Bool.eq_iff_iff, isLive_iff_liveEpoch h.coherent, isLive_iff_liveEpoch hco, h.live]

variable {row : Row M} {p : EntityPresence}

lemma slot_ne_of_id (hco : b.CoherentAt n) (hrow : b.ecs.rows e = some row)
    (hid : ∀ epoch, row.networkID ≠ some ⟨n, epoch⟩) : b.netIDIdx.slots n ≠ some ⟨e, p⟩ := by
  intro hs
  obtain ⟨row', hrow', ⟨epoch, hnid⟩, -⟩ := hco.slot_row hs
  obtain rfl := Option.some.inj (hrow.symm.trans hrow')
  exact hid epoch hnid

/-- A stage that continues another one, with the agreement at `n` intact. -/
structure Tame (n : NetID) (b b' : Stage M) : Prop where
  evolves : Evolves b b'
  wf : b'.WF
  coherent : b'.CoherentAt n

lemma Quiet.tame (h : Quiet n b b') : Tame n b b' :=
  ⟨h.evolves, h.wf, h.coherent⟩

lemma setEpoch_live (epoch : Epoch) (hwf : b.WF) (hco : b.CoherentAt n)
    (hs : b.netIDIdx.slots n = some ⟨e, .live⟩) :
    Tame n b (b.setEpoch e epoch) ∧ (b.setEpoch e epoch).liveEpoch n = some epoch ∧
      (b.setEpoch e epoch).netIDIdx = b.netIDIdx := by
  obtain ⟨row, hrow, ⟨epoch₀, hnid⟩, hfit⟩ := hco.slot_row hs
  have hdef : b.setEpoch e epoch =
      { b with ecs := b.ecs.setRow e { row with networkID := some ⟨n, epoch⟩ } } := by
    simp [setEpoch, hrow, hnid]
  have hid : (some (⟨n, epoch⟩ : NetworkID)).map (·.id) = row.networkID.map (·.id) := by
    simp [hnid]
  have hself : (b.ecs.setRow e { row with networkID := some ⟨n, epoch⟩ }).rows e =
      some { row with networkID := some ⟨n, epoch⟩ } := update_self ..
  rw [hdef]
  refine ⟨⟨evolves_setRow hrow hid, hwf.setRow hrow hid, ⟨fun {e' p} hs' => ?_,
    fun {e' r _} hr hr' => ?_, hco.tracked_iff⟩⟩, ?_, rfl⟩
  · obtain ⟨rfl, rfl⟩ : e = e' ∧ EntityPresence.live = p := by simpa [hs] using hs'
    exact ⟨_, hself, ⟨epoch, rfl⟩, hfit⟩
  · by_cases he : e' = e
    · subst he
      exact ⟨_, hs⟩
    · exact hco.row_slot (by simpa [setRow, he] using hr) hr'
  · simp [liveEpoch, lookupNetID, lookup, hs, networkIDOf, hself]

variable {dest : M}

lemma demote_of_not_live (h : b.isLive n = false) : (b.demoteLiveToReplica n dest).2 = b := by
  unfold demoteLiveToReplica
  split
  · rename_i ent hs
    have : b.isLive n = true := isLive_iff.mpr ⟨ent, hs⟩
    simp [h] at this
  · rfl

lemma demote_of_live (hs : b.netIDIdx.slots m = some ⟨e, .live⟩) (hrow : b.ecs.rows e = some row) :
    (b.demoteLiveToReplica m dest).2 =
      { b with
        ecs := b.ecs.setRow e { row with replica := some ⟨dest, m, 30⟩ }
        netIDIdx := b.netIDIdx.setSlot m (some ⟨e, .replica⟩)
        replicaNetIDs := update b.replicaNetIDs m (some e)
        handoffAccepted := update b.handoffAccepted m none
        log := .demoted m :: b.log } := by
  have hlook : b.lookupNetID m = some ⟨e, .live⟩ := hs
  simp [demoteLiveToReplica, hlook, alive, hrow, markReplica, NetIDIndex.demote_of_live hs,
    forgetHandoffAccepted]

lemma demote_of_dead (hs : b.netIDIdx.slots m = some ⟨e, .live⟩) (hrow : b.ecs.rows e = none) :
    (b.demoteLiveToReplica m dest).2 = b := by
  have hlook : b.lookupNetID m = some ⟨e, .live⟩ := hs
  simp [demoteLiveToReplica, hlook, alive, hrow]

lemma evolves_wf_demote (dest : M) (hwf : b.WF) (hs : b.netIDIdx.slots m = some ⟨e, .live⟩)
    (hrow : b.ecs.rows e = some row) :
    Evolves b (b.demoteLiveToReplica m dest).2 ∧ (b.demoteLiveToReplica m dest).2.WF := by
  rw [demote_of_live hs hrow]
  generalize hrow' : ({ row with replica := some ⟨dest, m, 30⟩ } : Row M) = row'
  have hid : row'.networkID.map (·.id) = row.networkID.map (·.id) := by
    rw [← hrow']
  have hwf₁ := hwf.setRow hrow hid
  have hev := evolves_setRow hrow hid
  have hden := hev.denotes (hwf.slot hs)
  refine ⟨⟨hev.next_le, hev.ids⟩, ⟨hwf₁.fresh, fun {m' e' p} hs' => ?_, fun {m' e'} ht => ?_⟩⟩
  · by_cases hm : m' = m
    · subst hm
      obtain ⟨rfl, -⟩ : e = e' ∧ EntityPresence.replica = p := by simpa using hs'
      exact hden
    · exact hwf₁.slot (p := p) (by simpa [hm] using hs')
  · by_cases hm : m' = m
    · subst hm
      obtain rfl : e = e' := by simpa using ht
      exact hden
    · exact hwf₁.tracked (by simpa [hm] using ht)

theorem demote_live (dest : M) (hwf : b.WF) (hco : b.CoherentAt n) (hlive : b.isLive n = true) :
    Tame n b (b.demoteLiveToReplica n dest).2 ∧
      (b.demoteLiveToReplica n dest).2.liveEpoch n = none ∧
      (b.demoteLiveToReplica n dest).2.record =
        (update b.handoffAccepted n none, .demoted n :: b.log, b.toRemove, b.crossingQueue) := by
  obtain ⟨e, hs⟩ := isLive_iff.mp hlive
  obtain ⟨row, hrow, ⟨epoch, hnid⟩, -⟩ := hco.slot_row hs
  obtain ⟨hev, hwf'⟩ := evolves_wf_demote dest hwf hs hrow
  rw [demote_of_live hs hrow] at hev hwf' ⊢
  refine ⟨⟨hev, hwf', ⟨fun {e' p} hs' => ?_, fun {e' r _} hr hr' => ?_, fun {e'} => ?_⟩⟩, ?_, rfl⟩
  · obtain ⟨rfl, rfl⟩ : e = e' ∧ EntityPresence.replica = p := by simpa using hs'
    exact ⟨{ row with replica := some ⟨dest, n, 30⟩ }, update_self .., ⟨epoch, hnid⟩,
      ⟨dest, n, 30⟩, rfl, rfl⟩
  · by_cases he : e' = e
    · subst he
      exact ⟨.replica, by simp⟩
    · obtain ⟨p, hp⟩ := hco.row_slot (by simpa [setRow, he] using hr) hr'
      obtain ⟨rfl, -⟩ : e = e' ∧ _ := by simpa [hs] using hp
      exact absurd rfl he
  · simp
  · exact liveEpoch_of_not_live (by simp)

theorem demote_of_ne (dest : M) (hwf : b.WF) (hco : b.CoherentAt n) (hmn : m ≠ n) :
    Quiet n b (b.demoteLiveToReplica m dest).2 ∧
      ((b.demoteLiveToReplica m dest).2.record = b.record ∨
        (b.demoteLiveToReplica m dest).2.record =
          (update b.handoffAccepted m none, .demoted m :: b.log, b.toRemove, b.crossingQueue)) := by
  by_cases hlive : b.isLive m = true
  · obtain ⟨e, hs⟩ := isLive_iff.mp hlive
    cases hrow : b.ecs.rows e with
    | none =>
      rw [demote_of_dead hs hrow]
      exact ⟨.refl hwf hco, .inl rfl⟩
    | some row =>
      obtain ⟨epoch, hnid⟩ := (hwf.slot hs).2 row hrow
      obtain ⟨hev, hwf'⟩ := evolves_wf_demote dest hwf hs hrow
      have hne : ∀ {e' p}, b.netIDIdx.slots n = some ⟨e', p⟩ → e' ≠ e := by
        rintro e' p hs' rfl
        exact slot_ne_of_id hco hrow (by simp [hnid, hmn]) hs'
      rw [demote_of_live hs hrow] at hev hwf' ⊢
      have hslot : (b.netIDIdx.setSlot m (some ⟨e, .replica⟩)).slots n = b.netIDIdx.slots n :=
        setSlot_of_ne hmn.symm _
      refine ⟨⟨hev, hwf', ⟨fun {e' p} hs' => ?_, fun {e' r _} hr hr' => ?_, fun {e'} => ?_⟩,
        liveEpoch_congr hslot fun {e'} hs' => ?_⟩, .inr rfl⟩
      · have hs'' := hslot.symm.trans hs'
        obtain ⟨r, hr, hrest⟩ := hco.slot_row hs''
        exact ⟨r, by simpa [setRow, hne hs''] using hr, hrest⟩
      · by_cases he : e' = e
        · subst he
          obtain rfl : { row with replica := some ⟨dest, m, 30⟩ } = r := by
            simpa [setRow] using hr
          simp [hnid, hmn] at hr'
        · obtain ⟨p, hp⟩ := hco.row_slot (by simpa [setRow, he] using hr) hr'
          exact ⟨p, hslot.trans hp⟩
      · simpa [hslot, hmn.symm] using hco.tracked_iff
      · simp [networkIDOf, setRow, hne hs']
  · rw [demote_of_not_live (by simpa using hlive)]
    exact ⟨.refl hwf hco, .inl rfl⟩

lemma slot_ne_of_denotes (hco : b.CoherentAt n) (hd : b.Denotes e m) (hmn : m ≠ n) :
    b.netIDIdx.slots n ≠ some ⟨e, p⟩ := by
  intro hs
  obtain ⟨row, hrow, ⟨epoch, hnid⟩, -⟩ := hco.slot_row hs
  obtain ⟨epoch', hnid'⟩ := hd.2 row hrow
  simp [hnid, hmn.symm] at hnid'

/-- A transfer spawn creates one entity and enters it into the index at most under its own
identifier; a conflict under the strict index removes the entity again. -/
lemma spawnCore_cases (frame : TransferFrame) :
    ∃ idx, (idx = b.netIDIdx ∨
        idx = b.netIDIdx.setSlot frame.networkID (some ⟨b.ecs.next, .live⟩)) ∧
      let b₁ := b.spawned ⟨some ⟨frame.networkID, frame.epoch⟩, none⟩ idx b.replicaNetIDs
      b.spawnFromTransferCore frame .live = (.ok b.ecs.next, b₁) ∨
        ∃ err, b.spawnFromTransferCore frame .live =
          (.error err, b₁.removeEntityNow b.ecs.next) := by
  unfold spawnFromTransferCore
  simp only
  split
  · exact ⟨b.netIDIdx, .inl rfl, .inl rfl⟩
  · refine ⟨_, enter_cases, ?_⟩
    repeat' split
    all_goals first | exact .inl rfl | exact .inr ⟨_, rfl⟩

lemma spawnCore_of_ne (frame : TransferFrame) (hwf : b.WF) (hco : b.CoherentAt n)
    (hmn : frame.networkID ≠ n) : Quiet n b (b.spawnFromTransferCore frame .live).2 ∧
      (b.spawnFromTransferCore frame .live).2.netIDIdx.slots n ≠ some ⟨b.ecs.next, .live⟩ := by
  obtain ⟨idx, hidx, hcore⟩ := spawnCore_cases (b := b) frame
  have h₁ : Quiet n b (b.spawned ⟨some ⟨frame.networkID, frame.epoch⟩, none⟩ idx b.replicaNetIDs) :=
    quiet_spawned hwf hco rfl hmn.symm (hidx.imp_right fun h => ⟨_, h⟩) (.inl rfl)
  have hden : (b.spawned ⟨some ⟨frame.networkID, frame.epoch⟩, none⟩ idx b.replicaNetIDs).Denotes
      b.ecs.next frame.networkID := by
    refine ⟨Nat.lt_succ_self _, fun r hr => ?_⟩
    rw [spawned_rows_self] at hr
    cases hr
    exact ⟨_, rfl⟩
  have hne := slot_ne_of_denotes h₁.coherent hden hmn (p := .live)
  rcases hcore with hcore | ⟨err, hcore⟩
  · rw [hcore]
    exact ⟨h₁, hne⟩
  · have h₂ := quiet_removeEntityNow h₁.wf h₁.coherent hne
    rw [hcore]
    exact ⟨h₁.trans h₂, slot_ne_of_denotes h₂.coherent (h₂.evolves.denotes hden) hmn⟩

theorem spawnLive_of_ne {frame : TransferFrame} (hwf : b.WF) (hco : b.CoherentAt n)
    (hmn : frame.networkID ≠ n) : Quiet n b (b.spawnLiveFromTransfer epoch frame).2 := by
  obtain ⟨h₁, hne⟩ := spawnCore_of_ne frame hwf hco hmn
  obtain ⟨idx, -, hcore | ⟨err, hcore⟩⟩ := spawnCore_cases (b := b) frame
  · rw [hcore] at h₁ hne
    unfold spawnLiveFromTransfer
    rw [hcore]
    exact h₁.trans (quiet_setEpoch h₁.wf h₁.coherent hne)
  · rw [hcore] at h₁
    unfold spawnLiveFromTransfer
    rw [hcore]
    exact h₁

lemma spawnCore_of_free (frame : TransferFrame) (hwf : b.WF) (hco : b.CoherentAt n)
    (hn : n ≠ 0) (hid : frame.networkID = n) (hfree : b.netIDIdx.slots n = none) :
    ∃ b₁, b.spawnFromTransferCore frame .live = (.ok b.ecs.next, b₁) ∧ Tame n b b₁ ∧
      b₁.netIDIdx.slots n = some ⟨b.ecs.next, .live⟩ ∧ b₁.liveEpoch n = some frame.epoch := by
  subst hid
  generalize hb₁ : b.spawned ⟨some ⟨frame.networkID, frame.epoch⟩, none⟩
    (b.netIDIdx.setSlot frame.networkID (some ⟨b.ecs.next, .live⟩)) b.replicaNetIDs = b₁
  have hcore : b.spawnFromTransferCore frame .live = (.ok b.ecs.next, b₁) := by
    rw [← hb₁]
    simp only [spawnFromTransferCore, newEntity, if_neg hn,
      enter_of_free hfree]
    rfl
  have htracked : ∀ e, b.replicaNetIDs frame.networkID ≠ some e := by
    intro e ht
    have hs := hco.tracked_iff.mp ht
    simp [hfree] at hs
  have hwf₁ : b₁.WF := hb₁ ▸ hwf.spawned rfl (.inr ⟨_, rfl⟩) (.inl rfl)
  have hco₁ : b₁.CoherentAt frame.networkID :=
    hb₁ ▸ coherent_spawned hco rfl hfree rfl (by simp [htracked])
  have hs₁ : b₁.netIDIdx.slots frame.networkID = some ⟨b.ecs.next, .live⟩ := by
    simp [← hb₁]
  have hnid : b₁.networkIDOf b.ecs.next = some ⟨frame.networkID, frame.epoch⟩ := by
    simp [← hb₁, networkIDOf, spawned_rows_self]
  refine ⟨b₁, hcore, ⟨hb₁ ▸ evolves_spawned, hwf₁, hco₁⟩, hs₁, ?_⟩
  simp [liveEpoch, lookupNetID, lookup, hs₁, hnid]

theorem spawnLive_of_free (epoch : Epoch) (frame : TransferFrame) (hwf : b.WF)
    (hco : b.CoherentAt n)
    (hn : n ≠ 0) (hid : frame.networkID = n) (hfree : b.netIDIdx.slots n = none) :
    ∃ b', b.spawnLiveFromTransfer epoch frame = (.ok b.ecs.next, b') ∧ Tame n b b' ∧
      b'.liveEpoch n = some epoch := by
  obtain ⟨b₁, hcore, ht, hs₁, -⟩ := spawnCore_of_free frame hwf hco hn hid hfree
  obtain ⟨htame, hlive, -⟩ := setEpoch_live epoch ht.wf ht.coherent hs₁
  refine ⟨b₁.setEpoch b.ecs.next epoch, by simp [spawnLiveFromTransfer, hcore], ?_, hlive⟩
  exact ⟨ht.evolves.trans htame.evolves, htame.wf, htame.coherent⟩

lemma removeReplicaByNetID_free (hco : b.CoherentAt n) (hlive : b.isLive n = false) :
    (b.removeReplicaByNetID n).netIDIdx.slots n = none := by
  rcases hs : b.netIDIdx.slots n with _ | ⟨e, p⟩
  · have htracked : b.replicaNetIDs n = none := by
      by_contra hne
      obtain ⟨e, he⟩ := Option.ne_none_iff_exists'.mp hne
      simp [hco.tracked_iff.mp he] at hs
    simp [removeReplicaByNetID, htracked, lookupNetID, lookup, hs, forgetBorderNetID]
  · obtain ⟨row, -, -, hfit⟩ := hco.slot_row hs
    cases p with
    | none => exact hfit.elim
    | live =>
      rw [isLive_iff.mpr ⟨e, hs⟩] at hlive
      cases hlive
    | replica => exact removeReplicaByNetID_slot hco hs

end Stage

end Mmokit
