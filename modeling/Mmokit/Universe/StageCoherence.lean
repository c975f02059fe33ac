/-
The index, the entity store and the replica table of a stage agree.

`Stage.WF` holds on every stage at all times: handles are fresh, and what the index or the replica
table points to carries the right identifier, if it is still alive. `Stage.CoherentAt n` is the
full agreement for one identifier `n`: the living entities with this identifier are exactly the one
in the slot, a live slot has no replica component, and a replica slot is the one the replica table
tracks.
-/
import Mmokit.Universe.Stage

namespace Mmokit

open Function NetIDIndex

namespace Stage

variable {M : Type*} {b b₁ b₂ : Stage M} {n m : NetID} {e : Entity}

def Denotes (b : Stage M) (e : Entity) (m : NetID) : Prop :=
  e < b.ecs.next ∧ ∀ row, b.ecs.rows e = some row → ∃ epoch, row.networkID = some ⟨m, epoch⟩

/-- The index names entities that exist. -/
structure WF (b : Stage M) : Prop where
  fresh : ∀ e, b.ecs.next ≤ e → b.ecs.rows e = none
  slot : ∀ {m e p}, b.netIDIdx.slots m = some ⟨e, p⟩ → b.Denotes e m
  tracked : ∀ {m e}, b.replicaNetIDs m = some e → b.Denotes e m

/-- The row of the slot of `n` fits the presence of the slot. -/
def Fits (n : NetID) (row : Row M) : EntityPresence → Prop
  | .live => row.replica = none
  | .replica => ∃ rep, row.replica = some rep ∧ rep.sourceNetID = n
  | .none => False

/-- The index and the entities agree on `n`. -/
structure CoherentAt (n : NetID) (b : Stage M) : Prop where
  slot_row : ∀ {e p}, b.netIDIdx.slots n = some ⟨e, p⟩ →
    ∃ row, b.ecs.rows e = some row ∧ (∃ epoch, row.networkID = some ⟨n, epoch⟩) ∧ Fits n row p
  row_slot : ∀ {e row epoch}, b.ecs.rows e = some row → row.networkID = some ⟨n, epoch⟩ →
    ∃ p, b.netIDIdx.slots n = some ⟨e, p⟩
  tracked_iff : ∀ {e}, b.replicaNetIDs n = some e ↔ b.netIDIdx.slots n = some ⟨e, .replica⟩

/-- From `b` to `b'` identifiers of entities persist and no handle is given out twice. -/
structure Evolves (b b' : Stage M) : Prop where
  next_le : b.ecs.next ≤ b'.ecs.next
  ids : ∀ {e row'}, e < b.ecs.next → b'.ecs.rows e = some row' →
    ∃ row, b.ecs.rows e = some row ∧ row'.networkID.map (·.id) = row.networkID.map (·.id)

lemma Evolves.refl (b : Stage M) : Evolves b b :=
  ⟨Nat.le_refl _, fun _ h => ⟨_, h, rfl⟩⟩

lemma Evolves.trans (h : Evolves b b₁) (h' : Evolves b₁ b₂) : Evolves b b₂ := by
  refine ⟨Nat.le_trans h.next_le h'.next_le, fun he hrow => ?_⟩
  obtain ⟨row₁, hrow₁, hid₁⟩ := h'.ids (Nat.lt_of_lt_of_le he h.next_le) hrow
  obtain ⟨row, hrow, hid⟩ := h.ids he hrow₁
  exact ⟨row, hrow, hid₁.trans hid⟩

lemma Evolves.denotes (h : Evolves b b₁) (hd : b.Denotes e m) : b₁.Denotes e m := by
  refine ⟨Nat.lt_of_lt_of_le hd.1 h.next_le, fun row₁ hrow₁ => ?_⟩
  obtain ⟨row, hrow, hid⟩ := h.ids hd.1 hrow₁
  obtain ⟨epoch, hnid⟩ := hd.2 row hrow
  rw [hnid, Option.map_some, Option.map_eq_some_iff] at hid
  obtain ⟨⟨id, epoch₁⟩, hnid₁, rfl⟩ := hid
  exact ⟨epoch₁, hnid₁⟩

/-! ### Removing an entity -/

lemma untrack_cases (r : Option (Replica M)) (m : NetID) :
    (b.untrackReplica e r).replicaNetIDs m = b.replicaNetIDs m ∨
      (b.untrackReplica e r).replicaNetIDs m = none ∧ b.replicaNetIDs m = some e := by
  cases r with
  | none => exact .inl rfl
  | some rep =>
    by_cases hid : b.replicaNetIDs rep.sourceNetID = some e
    · by_cases hm : m = rep.sourceNetID
      · subst hm
        exact .inr ⟨by simp [untrackReplica, hid, forgetBorderNetID], hid⟩
      · exact .inl (by simp [untrackReplica, hid, forgetBorderNetID, hm])
    · exact .inl (by simp [untrackReplica, hid])

lemma exitIndex_cases (r : Option NetworkID) (m : NetID) :
    (b.exitIndex e r).netIDIdx.slots m = b.netIDIdx.slots m ∨
      (b.exitIndex e r).netIDIdx.slots m = none ∧ ∃ p, b.netIDIdx.slots m = some ⟨e, p⟩ := by
  cases r with
  | none => exact .inl rfl
  | some nid =>
    by_cases hm : m = nid.id
    · subst hm
      cases hs : b.netIDIdx.slots nid.id with
      | none => exact .inl (by simp [exitIndex, exitEntity, hs])
      | some slot =>
        by_cases he : slot.entity = e
        · exact .inr ⟨by simp [exitIndex, exitEntity, hs, he], slot.presence,
            by rw [← he]⟩
        · exact .inl (by simp [exitIndex, exitEntity, hs, he])
    · exact .inl (exitEntity_of_ne hm)

@[simp] lemma untrackReplica_ecs (r : Option (Replica M)) :
    (b.untrackReplica e r).ecs = b.ecs := by
  unfold untrackReplica
  repeat' split
  all_goals rfl

@[simp] lemma untrackReplica_idx (r : Option (Replica M)) :
    (b.untrackReplica e r).netIDIdx = b.netIDIdx := by
  unfold untrackReplica
  repeat' split
  all_goals rfl

@[simp] lemma exitIndex_ecs (r : Option NetworkID) : (b.exitIndex e r).ecs = b.ecs := by
  cases r <;> rfl

@[simp] lemma exitIndex_tracked (r : Option NetworkID) :
    (b.exitIndex e r).replicaNetIDs = b.replicaNetIDs := by
  cases r <;> rfl

lemma removeEntityNow_of_dead (h : b.ecs.rows e = none) : b.removeEntityNow e = b := by
  simp [removeEntityNow, World.alive, h]

variable {row : Row M}

lemma removeEntityNow_of_alive (h : b.ecs.rows e = some row) :
    b.removeEntityNow e =
      let b₁ := (b.untrackReplica e row.replica).exitIndex e row.networkID
      { b₁ with ecs := b.ecs.removeEntity e } := by
  simp [removeEntityNow, World.alive, h, cleanupEntityRemoval]

lemma removeEntityNow_rows : (b.removeEntityNow e).ecs.rows = update b.ecs.rows e none := by
  cases h : b.ecs.rows e with
  | none => rw [removeEntityNow_of_dead h, ← h, Function.update_eq_self]
  | some row =>
    rw [removeEntityNow_of_alive h]
    rfl

lemma removeEntityNow_next : (b.removeEntityNow e).ecs.next = b.ecs.next := by
  cases h : b.ecs.rows e with
  | none => rw [removeEntityNow_of_dead h]
  | some row =>
    rw [removeEntityNow_of_alive h]
    rfl

lemma removeEntityNow_tracked (m : NetID) :
    (b.removeEntityNow e).replicaNetIDs m = b.replicaNetIDs m ∨
      (b.removeEntityNow e).replicaNetIDs m = none ∧ b.replicaNetIDs m = some e := by
  cases h : b.ecs.rows e with
  | none =>
    rw [removeEntityNow_of_dead h]
    exact .inl rfl
  | some row =>
    rw [removeEntityNow_of_alive h]
    simpa using untrack_cases row.replica m

lemma removeEntityNow_slots (m : NetID) :
    (b.removeEntityNow e).netIDIdx.slots m = b.netIDIdx.slots m ∨
      (b.removeEntityNow e).netIDIdx.slots m = none ∧
        ∃ p, b.netIDIdx.slots m = some ⟨e, p⟩ := by
  cases h : b.ecs.rows e with
  | none =>
    rw [removeEntityNow_of_dead h]
    exact .inl rfl
  | some row =>
    rw [removeEntityNow_of_alive h]
    simpa using exitIndex_cases (b := b.untrackReplica e row.replica) row.networkID m

lemma evolves_removeEntityNow : Evolves b (b.removeEntityNow e) := by
  refine ⟨Nat.le_of_eq removeEntityNow_next.symm, fun _ hrow => ?_⟩
  rw [removeEntityNow_rows] at hrow
  rename_i e' row' _
  by_cases he : e' = e
  · simp [he] at hrow
  · rw [update_of_ne he] at hrow
    exact ⟨row', hrow, rfl⟩

/-! ### Steps that do not change who is the authority -/

/-- `b'` continues `b`: nothing is lost of the agreement at `n`, and the authority over `n` is the
same. -/
structure Quiet (n : NetID) (b b' : Stage M) : Prop where
  evolves : Evolves b b'
  wf : b'.WF
  coherent : b'.CoherentAt n
  live : b'.liveEpoch n = b.liveEpoch n

lemma Quiet.refl (hwf : b.WF) (hco : b.CoherentAt n) : Quiet n b b := ⟨.refl b, hwf, hco, rfl⟩

lemma Quiet.trans (h : Quiet n b b₁) (h' : Quiet n b₁ b₂) : Quiet n b b₂ :=
  ⟨h.evolves.trans h'.evolves, h'.wf, h'.coherent, h'.live.trans h.live⟩

lemma Quiet.foldl {α : Type*} {f : Stage M → α → Stage M} (l : List α)
    (hf : ∀ {b : Stage M} {a : α}, a ∈ l → b.WF → b.CoherentAt n → Quiet n b (f b a)) (hwf : b.WF)
    (hco : b.CoherentAt n) : Quiet n b (l.foldl f b) := by
  induction l generalizing b with
  | nil => exact .refl hwf hco
  | cons a l ih =>
    have h₁ := hf (b := b) List.mem_cons_self hwf hco
    exact h₁.trans (ih (fun ha => hf (List.mem_cons_of_mem a ha)) h₁.wf h₁.coherent)

lemma liveEpoch_congr (hslot : b₁.netIDIdx.slots n = b.netIDIdx.slots n)
    (hent : ∀ {e}, b.netIDIdx.slots n = some ⟨e, .live⟩ → b₁.networkIDOf e = b.networkIDOf e) :
    b₁.liveEpoch n = b.liveEpoch n := by
  unfold liveEpoch lookupNetID lookup
  rw [hslot]
  rcases hs : b.netIDIdx.slots n with _ | ⟨e, _ | _ | _⟩
  · rfl
  · rfl
  · simp only [hent hs]
  · rfl

lemma liveEpoch_of_not_live (h : ∀ e, b.netIDIdx.slots n ≠ some ⟨e, .live⟩) :
    b.liveEpoch n = none := by
  unfold liveEpoch lookupNetID lookup
  split
  · rename_i e hs
    exact absurd hs (h e)
  · rfl

lemma WF.of_evolves (h : b.WF) (hev : Evolves b b₁)
    (hfresh : ∀ e, b₁.ecs.next ≤ e → b₁.ecs.rows e = none)
    (hslot : ∀ {m e p}, b₁.netIDIdx.slots m = some ⟨e, p⟩ →
      (∃ p', b.netIDIdx.slots m = some ⟨e, p'⟩) ∨ b₁.Denotes e m)
    (htracked : ∀ {m e}, b₁.replicaNetIDs m = some e →
      b.replicaNetIDs m = some e ∨ b₁.Denotes e m) : b₁.WF where
  fresh := hfresh
  slot hs := (hslot hs).elim (fun ⟨_, hs'⟩ => hev.denotes (h.slot hs')) id
  tracked ht := (htracked ht).elim (fun ht' => hev.denotes (h.tracked ht')) id

lemma WF.removeEntityNow (h : b.WF) : (b.removeEntityNow e).WF := by
  refine h.of_evolves evolves_removeEntityNow (fun e' he' => ?_) (fun {m _ p} hs => ?_)
    fun {m _} ht => ?_
  · rw [removeEntityNow_next] at he'
    rw [removeEntityNow_rows]
    by_cases hee : e' = e
    · simp [hee]
    · rw [update_of_ne hee]
      exact h.fresh e' he'
  · rcases removeEntityNow_slots (b := b) (e := e) m with hm | ⟨hm, -⟩
    · exact .inl ⟨p, hm ▸ hs⟩
    · simp [hm] at hs
  · rcases removeEntityNow_tracked (b := b) (e := e) m with hm | ⟨hm, -⟩
    · exact .inl (hm ▸ ht)
    · simp [hm] at ht

lemma removeEntityNow_replica (h : b.CoherentAt n) (hs : b.netIDIdx.slots n = some ⟨e, .replica⟩) :
    (b.removeEntityNow e).netIDIdx.slots n = none ∧
      (b.removeEntityNow e).replicaNetIDs n = none := by
  obtain ⟨row, hrow, ⟨epoch, hnid⟩, rep, hrep, hsrc⟩ := h.slot_row hs
  have ht := h.tracked_iff.mpr hs
  rw [removeEntityNow_of_alive hrow]
  constructor
  · simp [hnid, exitIndex, exitEntity, hs]
  · simp [hrep, untrackReplica, hsrc, ht, forgetBorderNetID]

lemma quiet_removeEntityNow (hwf : b.WF) (hco : b.CoherentAt n)
    (hnot : b.netIDIdx.slots n ≠ some ⟨e, .live⟩) : Quiet n b (b.removeEntityNow e) := by
  by_cases hs : ∃ p, b.netIDIdx.slots n = some ⟨e, p⟩
  · -- the entity is a replica of `n`; afterwards there is none
    obtain ⟨p, hs⟩ := hs
    obtain ⟨row, hrow, -, hfit⟩ := hco.slot_row hs
    obtain rfl : p = .replica := by
      rcases p with _ | _ | _
      · exact hfit.elim
      · exact absurd hs hnot
      · rfl
    obtain ⟨hs', ht'⟩ := removeEntityNow_replica hco hs
    refine ⟨evolves_removeEntityNow, hwf.removeEntityNow, ⟨?_, ?_, ?_⟩, ?_⟩
    · intro e' p' hp'
      simp [hs'] at hp'
    · intro e' row' epoch' hrow' hid'
      rw [removeEntityNow_rows] at hrow'
      by_cases he : e' = e
      · simp [he] at hrow'
      · rw [update_of_ne he] at hrow'
        obtain ⟨p', hp'⟩ := hco.row_slot hrow' hid'
        simp [hs, Ne.symm he] at hp'
    · simp [hs', ht']
    · rw [liveEpoch_of_not_live (by simp [hs']), liveEpoch_of_not_live (by simp [hs])]
  · -- the entity has nothing to do with `n`
    have hs' : (b.removeEntityNow e).netIDIdx.slots n = b.netIDIdx.slots n :=
      (removeEntityNow_slots n).resolve_right fun h => hs h.2
    have ht' : (b.removeEntityNow e).replicaNetIDs n = b.replicaNetIDs n :=
      (removeEntityNow_tracked n).resolve_right fun h => hs ⟨_, hco.tracked_iff.mp h.2⟩
    have hne : ∀ {e' p'}, b.netIDIdx.slots n = some ⟨e', p'⟩ → e' ≠ e := by
      rintro e' p' hp' rfl
      exact hs ⟨p', hp'⟩
    refine ⟨evolves_removeEntityNow, hwf.removeEntityNow, ⟨?_, ?_, ?_⟩, ?_⟩
    · intro e' p' hp'
      rw [hs'] at hp'
      rw [removeEntityNow_rows, update_of_ne (hne hp')]
      exact hco.slot_row hp'
    · intro e' row' epoch' hrow' hid'
      rw [removeEntityNow_rows] at hrow'
      by_cases he : e' = e
      · simp [he] at hrow'
      · rw [update_of_ne he] at hrow'
        rw [hs']
        exact hco.row_slot hrow' hid'
    · intro e'
      rw [hs', ht']
      exact hco.tracked_iff
    · refine liveEpoch_congr hs' fun hp' => ?_
      rw [networkIDOf, networkIDOf, removeEntityNow_rows, update_of_ne (hne hp')]

/-! ### Border frames and expiry -/

lemma evolves_setRow {row' : Row M} (hrow : b.ecs.rows e = some row)
    (hid : row'.networkID.map (·.id) = row.networkID.map (·.id)) :
    Evolves b { b with ecs := b.ecs.setRow e row' } := by
  refine ⟨Nat.le_refl _, fun {e' r} _ hr => ?_⟩
  by_cases he : e' = e
  · subst he
    obtain rfl : row' = r := by simpa [World.setRow] using hr
    exact ⟨row, hrow, hid⟩
  · exact ⟨r, by simpa [World.setRow, he] using hr, rfl⟩

lemma WF.setRow {row' : Row M} (h : b.WF) (hrow : b.ecs.rows e = some row)
    (hid : row'.networkID.map (·.id) = row.networkID.map (·.id)) :
    WF { b with ecs := b.ecs.setRow e row' } := by
  refine h.of_evolves (evolves_setRow hrow hid) (fun e' he' => ?_) (fun hs => .inl ⟨_, hs⟩) .inl
  have hne : e' ≠ e := by
    rintro rfl
    simp [h.fresh e' he'] at hrow
  simpa [World.setRow, hne] using h.fresh e' he'

lemma quiet_setRow {row' : Row M} (hwf : b.WF) (hco : b.CoherentAt n)
    (hrow : b.ecs.rows e = some row) (hid : row'.networkID.map (·.id) = row.networkID.map (·.id))
    (hfit : ∀ {p}, b.netIDIdx.slots n = some ⟨e, p⟩ → Fits n row p →
      Fits n row' p ∧ (p = .live → row'.networkID = row.networkID)) :
    Quiet n b { b with ecs := b.ecs.setRow e row' } := by
  have hrows : ∀ {e'}, e' ≠ e → (b.ecs.setRow e row').rows e' = b.ecs.rows e' :=
    fun he => update_of_ne he ..
  have hself : (b.ecs.setRow e row').rows e = some row' := update_self ..
  refine ⟨evolves_setRow hrow hid, hwf.setRow hrow hid, ⟨?_, ?_, hco.tracked_iff⟩,
    liveEpoch_congr rfl ?_⟩
  · intro e' p hs
    obtain ⟨r, hr, ⟨epoch, hnid⟩, hf⟩ := hco.slot_row hs
    by_cases he : e' = e
    · subst he
      obtain rfl : row = r := by simpa [hrow] using hr
      obtain ⟨⟨id, epoch'⟩, hnid', hid'⟩ :
          ∃ nid, row'.networkID = some nid ∧ nid.id = n := by
        simpa [hnid] using hid
      obtain rfl : id = n := hid'
      exact ⟨row', hself, ⟨epoch', hnid'⟩, (hfit hs hf).1⟩
    · exact ⟨r, (hrows he).trans hr, ⟨epoch, hnid⟩, hf⟩
  · intro e' r epoch hr hnid
    by_cases he : e' = e
    · subst he
      obtain rfl : row' = r := by simpa [hself] using hr
      obtain ⟨⟨id, epoch'⟩, hnid', hid'⟩ : ∃ nid, row.networkID = some nid ∧ nid.id = n := by
        simpa [hnid] using hid.symm
      obtain rfl : id = n := hid'
      exact hco.row_slot hrow hnid'
    · exact hco.row_slot ((hrows he).symm.trans hr) hnid
  · intro e' hs
    by_cases he : e' = e
    · subst he
      obtain ⟨r, hr, -, hf⟩ := hco.slot_row hs
      obtain rfl : row = r := by simpa [hrow] using hr
      simp [networkIDOf, hself, hrow, (hfit hs hf).2 rfl]
    · simp [networkIDOf, hrows he]

lemma not_live_of_tracked (hwf : b.WF) (hco : b.CoherentAt n) (ht : b.replicaNetIDs m = some e)
    (hs : b.netIDIdx.slots n = some ⟨e, .live⟩) : False := by
  obtain ⟨row, hrow, ⟨epoch, hnid⟩, -⟩ := hco.slot_row hs
  obtain ⟨epoch', hnid'⟩ := (hwf.tracked ht).2 row hrow
  obtain ⟨rfl, -⟩ : n = m ∧ epoch = epoch' := by simpa [hnid] using hnid'
  simp [hco.tracked_iff.mp ht] at hs

variable {epoch : Epoch}

lemma quiet_setEpoch (hwf : b.WF) (hco : b.CoherentAt n)
    (hnot : b.netIDIdx.slots n ≠ some ⟨e, .live⟩) : Quiet n b (b.setEpoch e epoch) := by
  unfold setEpoch
  split
  · rename_i row hrow
    refine quiet_setRow hwf hco hrow ?_ fun hs hf => ⟨?_, fun hp => absurd (hp ▸ hs) hnot⟩
    · cases row.networkID <;> rfl
    · exact hf
  · exact .refl hwf hco

variable {source : M}

lemma quiet_refreshReplica (hwf : b.WF) (hco : b.CoherentAt n) :
    Quiet n b (b.refreshReplica e source) := by
  unfold refreshReplica
  split
  · rename_i row hrow
    refine quiet_setRow hwf hco hrow rfl fun {p} hs hf => ⟨?_, fun _ => rfl⟩
    rcases p with _ | _ | _
    · exact hf
    · simpa [Fits] using hf
    · obtain ⟨rep, hrep, hsrc⟩ := hf
      exact ⟨⟨source, rep.sourceNetID, 30⟩, by simp [hrep], hsrc⟩
  · exact .refl hwf hco

lemma quiet_of_same (hwf : b.WF) (hco : b.CoherentAt n) (hecs : b₁.ecs = b.ecs)
    (hidx : b₁.netIDIdx = b.netIDIdx) (ht : b₁.replicaNetIDs = b.replicaNetIDs) :
    Quiet n b b₁ := by
  have hev : Evolves b b₁ := by
    exact ⟨Nat.le_of_eq (by rw [hecs]), fun _ hrow => ⟨_, hecs ▸ hrow, rfl⟩⟩
  refine ⟨hev, hwf.of_evolves hev ?_ ?_ ?_, ⟨?_, ?_, ?_⟩, liveEpoch_congr ?_ ?_⟩
  · rw [hecs]
    exact hwf.fresh
  · rw [hidx]
    exact fun hs => .inl ⟨_, hs⟩
  · rw [ht]
    exact .inl
  · rw [hidx, hecs]
    exact hco.slot_row
  · rw [hidx, hecs]
    exact hco.row_slot
  · rw [hidx, ht]
    exact hco.tracked_iff
  · rw [hidx]
  · intro e _
    rw [networkIDOf, networkIDOf, hecs]

def spawned (b : Stage M) (row : Row M) (idx : NetIDIndex)
    (tracked : NetID → Option Entity) : Stage M :=
  { b with ecs := (b.ecs.newEntity row).2, netIDIdx := idx, replicaNetIDs := tracked }

section Spawned

variable {row : Row M} {idx : NetIDIndex} {tracked : NetID → Option Entity}
  {epoch : Epoch}

@[simp] lemma spawned_idx : (b.spawned row idx tracked).netIDIdx = idx := rfl
@[simp] lemma spawned_tracked : (b.spawned row idx tracked).replicaNetIDs = tracked := rfl

lemma spawned_rows_self : (b.spawned row idx tracked).ecs.rows b.ecs.next = some row :=
  update_self ..

lemma spawned_rows_of_ne (h : e ≠ b.ecs.next) :
    (b.spawned row idx tracked).ecs.rows e = b.ecs.rows e := update_of_ne h ..

lemma evolves_spawned : Evolves b (b.spawned row idx tracked) := by
  refine ⟨Nat.le_succ _, fun he hrow => ?_⟩
  rw [spawned_rows_of_ne (Nat.ne_of_lt he)] at hrow
  exact ⟨_, hrow, rfl⟩

lemma WF.spawned (h : b.WF) (hid : row.networkID = some ⟨m, epoch⟩)
    (hidx : idx = b.netIDIdx ∨ ∃ p, idx = b.netIDIdx.setSlot m (some ⟨b.ecs.next, p⟩))
    (ht : tracked = b.replicaNetIDs ∨
      tracked = update b.replicaNetIDs m (some b.ecs.next)) : (b.spawned row idx tracked).WF := by
  have hden : (b.spawned row idx tracked).Denotes b.ecs.next m := by
    refine ⟨Nat.lt_succ_self _, fun r hr => ?_⟩
    obtain rfl : row = r := by simpa [spawned_rows_self] using hr
    exact ⟨epoch, hid⟩
  refine h.of_evolves evolves_spawned (fun e he => ?_) (fun {m' e p} hs => ?_) fun {m' e} ht' => ?_
  · have hlt : b.ecs.next < e := he
    rw [spawned_rows_of_ne (Nat.ne_of_gt hlt)]
    exact h.fresh e (Nat.le_of_lt hlt)
  · rcases hidx with rfl | ⟨p', rfl⟩
    · exact .inl ⟨p, hs⟩
    by_cases hm : m' = m
    · subst hm
      obtain ⟨rfl, -⟩ : b.ecs.next = e ∧ p' = p := by simpa [Stage.spawned] using hs
      exact .inr hden
    · exact .inl ⟨p, by simpa [Stage.spawned, hm] using hs⟩
  · rcases ht with rfl | rfl
    · exact .inl ht'
    by_cases hm : m' = m
    · subst hm
      obtain rfl : b.ecs.next = e := by simpa [Stage.spawned] using ht'
      exact .inr hden
    · exact .inl (by simpa [Stage.spawned, hm] using ht')

variable {p : EntityPresence}

lemma slot_ne_next (hwf : b.WF) (hs : b.netIDIdx.slots m = some ⟨e, p⟩) :
    e ≠ b.ecs.next := Nat.ne_of_lt (hwf.slot hs).1

lemma quiet_spawned (hwf : b.WF) (hco : b.CoherentAt n) (hid : row.networkID = some ⟨m, epoch⟩)
    (hmn : n ≠ m)
    (hidx : idx = b.netIDIdx ∨ ∃ p, idx = b.netIDIdx.setSlot m (some ⟨b.ecs.next, p⟩))
    (ht : tracked = b.replicaNetIDs ∨
      tracked = update b.replicaNetIDs m (some b.ecs.next)) :
    Quiet n b (b.spawned row idx tracked) := by
  have hslot : idx.slots n = b.netIDIdx.slots n := by
    rcases hidx with rfl | ⟨p, rfl⟩
    · rfl
    · exact setSlot_of_ne hmn _
  have htr : tracked n = b.replicaNetIDs n := by
    rcases ht with rfl | rfl
    · rfl
    · exact update_of_ne hmn ..
  refine ⟨evolves_spawned, hwf.spawned hid hidx ht, ⟨fun hs => ?_, fun {e r _} hr hnid => ?_, ?_⟩,
    liveEpoch_congr hslot fun hs => ?_⟩
  · have hs' : b.netIDIdx.slots n = _ := hslot.symm.trans hs
    rw [spawned_rows_of_ne (slot_ne_next hwf hs')]
    exact hco.slot_row hs'
  · by_cases he : e = b.ecs.next
    · subst he
      obtain rfl : row = r := by simpa [spawned_rows_self] using hr
      obtain ⟨rfl, -⟩ : m = n ∧ epoch = _ := by simpa [hid] using hnid
      exact absurd rfl hmn
    · rw [spawned_rows_of_ne he] at hr
      obtain ⟨p, hp⟩ := hco.row_slot hr hnid
      exact ⟨p, hslot.trans hp⟩
  · intro e
    exact (htr ▸ hslot ▸ hco.tracked_iff : tracked n = some e ↔ idx.slots n = some ⟨e, .replica⟩)
  · rw [networkIDOf, networkIDOf, spawned_rows_of_ne (slot_ne_next hwf hs)]

lemma coherent_spawned (hco : b.CoherentAt n) (hid : row.networkID = some ⟨n, epoch⟩)
    (hfree : b.netIDIdx.slots n = none) (hfit : Fits n row p)
    (ht : ∀ {e}, tracked n = some e ↔ b.ecs.next = e ∧ p = .replica) :
    (b.spawned row (b.netIDIdx.setSlot n (some ⟨b.ecs.next, p⟩)) tracked).CoherentAt n := by
  have hslot : (b.spawned row
    (b.netIDIdx.setSlot n (some ⟨b.ecs.next, p⟩)) tracked).netIDIdx.slots n
      = some ⟨b.ecs.next, p⟩ := setSlot_self _
  refine ⟨fun {e' p'} hs => ?_, fun {e' r _} hr hnid => ?_, fun {e'} => ?_⟩
  · obtain ⟨rfl, rfl⟩ : b.ecs.next = e' ∧ p = p' := by simpa [hslot] using hs
    exact ⟨row, spawned_rows_self, ⟨epoch, hid⟩, hfit⟩
  · by_cases he : e' = b.ecs.next
    · subst he
      exact ⟨p, hslot⟩
    · rw [spawned_rows_of_ne he] at hr
      obtain ⟨p', hp'⟩ := hco.row_slot hr hnid
      simp [hfree] at hp'
  · rw [spawned_tracked, ht]
    simp

end Spawned

lemma quiet_createBorderReplica (hwf : b.WF) (hco : b.CoherentAt n)
    (hfree : m = n → b.netIDIdx.slots m = none) :
    Quiet n b (b.createBorderReplica m epoch source) := by
  have hdef : b.createBorderReplica m epoch source =
      let b₁ := b.spawned ⟨some ⟨m, epoch⟩, some ⟨source, m, 30⟩⟩
        (b.netIDIdx.enter m b.ecs.next .replica).2
        (update b.replicaNetIDs m (some b.ecs.next))
      if (b.netIDIdx.enter m b.ecs.next .replica).1.action = .rejected ∧ b.strictNetIDIndex then
        b₁.removeEntityNow b.ecs.next
      else b₁ := rfl
  rw [hdef]
  by_cases hm : m = n
  · -- the slot of `n` is free, so the entry succeeds
    subst hm
    rw [enter_of_free (hfree rfl)]
    refine ⟨evolves_spawned, hwf.spawned rfl (.inr ⟨_, rfl⟩) (.inr rfl),
      coherent_spawned hco rfl (hfree rfl) ⟨_, rfl, rfl⟩ (by simp), ?_⟩
    rw [liveEpoch_of_not_live (by simp), liveEpoch_of_not_live (by simp [hfree])]
  · have henter : (b.netIDIdx.enter m b.ecs.next .replica).2 = b.netIDIdx ∨
        ∃ p, (b.netIDIdx.enter m b.ecs.next .replica).2 =
          b.netIDIdx.setSlot m (some ⟨b.ecs.next, p⟩) :=
      enter_cases.imp_right fun h => ⟨_, h⟩
    have h₁ : Quiet n b (b.spawned ⟨some ⟨m, epoch⟩, some ⟨source, m, 30⟩⟩ _ _) :=
      quiet_spawned hwf hco rfl (Ne.symm hm) henter (.inr rfl)
    split_ifs
    · refine h₁.trans (quiet_removeEntityNow h₁.wf h₁.coherent fun hs => ?_)
      obtain ⟨row, hrow, ⟨_, hnid⟩, -⟩ := h₁.coherent.slot_row hs
      rw [spawned_rows_self] at hrow
      cases hrow
      simp [hm] at hnid
    · exact h₁

lemma quiet_upsertBorderReplica (hwf : b.WF) (hco : b.CoherentAt n) :
    Quiet n b (b.upsertBorderReplica m epoch source) := by
  unfold upsertBorderReplica
  split
  · exact .refl hwf hco
  split
  · exact .refl hwf hco
  -- the bookkeeping of epochs is quiet
  generalize hb₁ : ({ b with
    highestSeenEpoch := update b.highestSeenEpoch m (some epoch) } :
      Stage M) = b₁
  have h₁ : Quiet n b b₁ := by
    subst hb₁
    exact quiet_of_same hwf hco rfl rfl rfl
  refine h₁.trans ?_
  simp only
  split
  · exact .refl h₁.wf h₁.coherent
  rename_i hlive
  split
  · -- the replica exists and is refreshed
    rename_i ent hent
    have ht : b₁.replicaNetIDs m = some ent := (Option.filter_eq_some_iff.mp hent).1
    have hnot : b₁.netIDIdx.slots n ≠ some ⟨ent, .live⟩ :=
      fun hs => not_live_of_tracked h₁.wf h₁.coherent ht hs
    have hstep : ∀ {b₂ : Stage M}, Quiet n b₁ b₂ →
        Quiet n b₁ (b₂.refreshReplica ent source) :=
      fun h₂ => h₂.trans (quiet_refreshReplica h₂.wf h₂.coherent)
    apply hstep
    split
    · split
      · exact quiet_setEpoch h₁.wf h₁.coherent hnot
      · exact .refl h₁.wf h₁.coherent
    · exact .refl h₁.wf h₁.coherent
  · -- a new replica
    rename_i hnone
    refine quiet_createBorderReplica h₁.wf h₁.coherent ?_
    rintro rfl
    rcases hs : b₁.netIDIdx.slots m with _ | ⟨e, p⟩
    · rfl
    obtain ⟨row, hrow, -, hfit⟩ := h₁.coherent.slot_row hs
    rcases p with _ | _ | _
    · exact hfit.elim
    · simp [lookupNetID, lookup, hs] at hlive
    · simp [aliveReplica, h₁.coherent.tracked_iff.mpr hs, World.alive, hrow] at hnone

lemma quiet_forgetBorderNetID (hwf : b.WF) (hco : b.CoherentAt n) :
    Quiet n b (b.forgetBorderNetID m) :=
  quiet_of_same hwf hco rfl rfl rfl

lemma quiet_exit_dead (hwf : b.WF) (hco : b.CoherentAt n) (hdead : b.ecs.rows e = none)
    {tracked : NetID → Option Entity} (ht : ∀ m', tracked m' = b.replicaNetIDs m' ∨
      tracked m' = none ∧ b.replicaNetIDs m' = some e) :
    Quiet n b { b with
      replicaNetIDs := tracked, netIDIdx := (b.netIDIdx.exitEntity m e).2 } := by
  have hslots : ∀ m', (b.netIDIdx.exitEntity m e).2.slots m' = b.netIDIdx.slots m' ∨
      (b.netIDIdx.exitEntity m e).2.slots m' = none ∧ ∃ p, b.netIDIdx.slots m' = some ⟨e, p⟩ :=
    exitIndex_cases (b := b) (some ⟨m, 0⟩)
  -- the slot of `n` belongs to a living entity
  have hn : (b.netIDIdx.exitEntity m e).2.slots n = b.netIDIdx.slots n := by
    refine (hslots n).resolve_right ?_
    rintro ⟨-, p, hp⟩
    obtain ⟨row, hrow, -⟩ := hco.slot_row hp
    simp [hdead] at hrow
  have htn : tracked n = b.replicaNetIDs n := by
    refine (ht n).resolve_right ?_
    rintro ⟨-, hp⟩
    obtain ⟨row, hrow, -⟩ := hco.slot_row (hco.tracked_iff.mp hp)
    simp [hdead] at hrow
  have hev : Evolves b { b with
      replicaNetIDs := tracked, netIDIdx := (b.netIDIdx.exitEntity m e).2 } :=
    ⟨Nat.le_refl _, fun _ hrow => ⟨_, hrow, rfl⟩⟩
  refine ⟨hev, hwf.of_evolves hev hwf.fresh (fun {m' e' p} hs => ?_) (fun {m' e'} hs => ?_),
    ⟨fun hs => hco.slot_row (hn ▸ hs), fun hr hnid => ?_, fun {e'} => ?_⟩,
    liveEpoch_congr hn fun _ => rfl⟩
  · rcases hslots m' with hm | ⟨hm, -⟩
    · exact .inl ⟨p, hm ▸ hs⟩
    · simp [hm] at hs
  · rcases ht m' with hm | ⟨hm, -⟩
    · exact .inl (hm ▸ hs)
    · simp [hm] at hs
  · obtain ⟨p, hp⟩ := hco.row_slot hr hnid
    exact ⟨p, hn.trans hp⟩
  · exact (htn ▸ hn ▸ hco.tracked_iff : tracked n = some e' ↔
      (b.netIDIdx.exitEntity m e).2.slots n = some ⟨e', .replica⟩)

lemma quiet_removeReplicaByNetID (hwf : b.WF) (hco : b.CoherentAt n) :
    Quiet n b (b.removeReplicaByNetID m) := by
  have hstep : ∀ {b₁ : Stage M}, Quiet n b b₁ → Quiet n b (b₁.forgetBorderNetID m) :=
    fun h₁ => h₁.trans (quiet_forgetBorderNetID h₁.wf h₁.coherent)
  have hdead : ∀ {e : Entity}, ¬ b.ecs.alive e = true → b.ecs.rows e = none := by
    intro e h
    simpa [World.alive] using h
  apply hstep
  split
  · rename_i e ht
    split
    · exact quiet_removeEntityNow hwf hco fun hs => not_live_of_tracked hwf hco ht hs
    rename_i halive
    refine quiet_exit_dead hwf hco (hdead halive) fun m' => ?_
    by_cases hm : m' = m
    · subst hm
      exact .inr ⟨update_self .., ht⟩
    · exact .inl (update_of_ne hm ..)
  · split
    · rename_i e hlook
      have hs : b.netIDIdx.slots m = some ⟨e, .replica⟩ := hlook
      split
      · refine quiet_removeEntityNow hwf hco fun hlive => ?_
        obtain ⟨row, hrow, ⟨_, hnid⟩, -⟩ := hco.slot_row hlive
        obtain ⟨_, hnid'⟩ := (hwf.slot hs).2 row hrow
        obtain ⟨rfl, -⟩ : n = m ∧ _ := by simpa [hnid] using hnid'
        simp [hs] at hlive
      · rename_i halive
        exact quiet_exit_dead hwf hco (hdead halive) fun _ => .inl rfl
    · exact .refl hwf hco

lemma removeReplicaByNetID_slot (hco : b.CoherentAt n)
    (hs : b.netIDIdx.slots n = some ⟨e, .replica⟩) :
    (b.removeReplicaByNetID n).netIDIdx.slots n = none := by
  obtain ⟨row, hrow, -⟩ := hco.slot_row hs
  have hrem := (removeEntityNow_replica hco hs).1
  simpa [removeReplicaByNetID, hco.tracked_iff.mpr hs, World.alive, hrow, forgetBorderNetID]
    using hrem

lemma quiet_applyBorderFrame [DecidableEq M] {entries : List BorderEntry} (hwf : b.WF)
    (hco : b.CoherentAt n) : Quiet n b (b.applyBorderFrame entries source) := by
  unfold applyBorderFrame
  generalize hb₁ : entries.foldl (fun b entry =>
    if entry.parsed then b.upsertBorderReplica entry.netID entry.epoch source else b) b = b₁
  have h₁ : Quiet n b b₁ := by
    subst hb₁
    refine Quiet.foldl entries (fun _ hwf hco => ?_) hwf hco
    split
    · exact quiet_upsertBorderReplica hwf hco
    · exact .refl hwf hco
  have h₂ := Quiet.foldl (b := b₁) ((b₁.borderLastSeen.filter (·.1 = source)).map (·.2))
    (f := fun b netID =>
      if netID ∈ (entries.map (·.netID)).dedup || b.netIDStillPushedByOtherSource netID source then
        b
      else b.removeReplicaByNetID netID) (fun _ hwf hco => by
        split
        · exact .refl hwf hco
        · exact quiet_removeReplicaByNetID hwf hco) h₁.wf h₁.coherent
  exact (h₁.trans h₂).trans (quiet_of_same h₂.wf h₂.coherent rfl rfl rfl)

lemma not_expired_of_live (hco : b.CoherentAt n) (hs : b.netIDIdx.slots n = some ⟨e, .live⟩) :
    ((b.ecs.rows e).map decrementTTL).any expired = false := by
  obtain ⟨row, hrow, -, hfit⟩ := hco.slot_row hs
  have hnone : row.replica = none := hfit
  simp [hrow, decrementTTL, expired, hnone]

lemma quiet_decrement (hwf : b.WF) (hco : b.CoherentAt n) :
    Quiet n b { b with
      ecs := { b.ecs with rows := fun e => (b.ecs.rows e).map decrementTTL } } := by
  have hev : Evolves b { b with
      ecs := { b.ecs with rows := fun e => (b.ecs.rows e).map decrementTTL } } := by
    refine ⟨Nat.le_refl _, fun _ hrow => ?_⟩
    obtain ⟨row, hrow', rfl⟩ := Option.map_eq_some_iff.mp hrow
    exact ⟨row, hrow', rfl⟩
  refine ⟨hev, hwf.of_evolves hev (fun e he => ?_) (fun hs => .inl ⟨_, hs⟩) .inl,
    ⟨fun {e p} hs => ?_, fun hrow hnid => ?_, hco.tracked_iff⟩,
    liveEpoch_congr rfl fun {e} _ => ?_⟩
  · simpa using hwf.fresh e he
  · obtain ⟨row, hrow, hnid, hfit⟩ := hco.slot_row hs
    refine ⟨decrementTTL row, by simp [hrow], hnid, ?_⟩
    rcases p with _ | _ | _
    · exact hfit
    · simpa [Fits, decrementTTL] using hfit
    · obtain ⟨rep, hrep, hsrc⟩ := hfit
      exact ⟨{ rep with ttl := rep.ttl - 1 }, by simp [decrementTTL, hrep], hsrc⟩
  · obtain ⟨row, hrow', rfl⟩ := Option.map_eq_some_iff.mp hrow
    exact hco.row_slot hrow' hnid
  · cases h : b.ecs.rows e <;> simp [networkIDOf, h, decrementTTL]

lemma foldl_removeEntityNow_marked (l marked : List Entity) (b : Stage M) :
    l.foldl Stage.removeEntityNow { b with toRemove := marked } =
      { l.foldl Stage.removeEntityNow b with toRemove := marked } := by
  induction l generalizing b with
  | nil => rfl
  | cons a l ih =>
    rw [List.foldl_cons, List.foldl_cons, ← ih]
    congr 1
    unfold Stage.removeEntityNow cleanupEntityRemoval untrackReplica exitIndex
    simp only
    repeat' split
    all_goals rfl

lemma quiet_foldl_removeEntityNow (l : List Entity) (hwf : b.WF) (hco : b.CoherentAt n)
    (hnot : ∀ e ∈ l, b.netIDIdx.slots n ≠ some ⟨e, .live⟩) :
    Quiet n b (l.foldl Stage.removeEntityNow b) := by
  induction l generalizing b with
  | nil => exact .refl hwf hco
  | cons a l ih =>
    have h₁ := quiet_removeEntityNow hwf hco (hnot a List.mem_cons_self)
    refine h₁.trans (ih h₁.wf h₁.coherent fun e he hs => ?_)
    rcases removeEntityNow_slots (b := b) (e := a) n with hn | ⟨hn, -⟩
    · exact hnot e (List.mem_cons_of_mem a he) (hn ▸ hs)
    · simp [hn] at hs

theorem quiet_expire_flush (hwf : b.WF) (hco : b.CoherentAt n) (hmark : b.toRemove = []) :
    Quiet n b b.expireReplicas.flushRemovals := by
  have h₁ := quiet_decrement hwf hco
  generalize hb₁ : ({ b with
    ecs := { b.ecs with rows := fun e => (b.ecs.rows e).map decrementTTL } } :
      Stage M) = b₁ at h₁
  obtain ⟨marked, hfold, hmem⟩ := foldl_markForRemoval_eq
    ((List.range b.ecs.next).filter fun e => (b₁.ecs.rows e).any expired) b₁
  have hexp : b.expireReplicas = { b₁ with toRemove := marked } := by
    rw [← hfold, ← hb₁]
    rfl
  -- whatever is marked is a replica that has expired
  have hnot : ∀ e ∈ marked, b₁.netIDIdx.slots n ≠ some ⟨e, .live⟩ := by
    intro e he hs
    rcases hmem e he with he | he
    · simp [← hb₁, hmark] at he
    have hany := (List.mem_filter.mp he).2
    subst hb₁
    rw [not_expired_of_live hco hs] at hany
    exact absurd hany (by simp)
  have h₂ := quiet_foldl_removeEntityNow marked h₁.wf h₁.coherent hnot
  rw [hexp, flushRemovals, foldl_removeEntityNow_marked]
  exact (h₁.trans h₂).trans (quiet_of_same h₂.wf h₂.coherent rfl rfl rfl)

end Stage

end Mmokit
