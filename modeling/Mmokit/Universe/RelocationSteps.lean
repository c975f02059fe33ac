/-
What the steps of a split or a migration do to the authority over one netID.
-/
import Mmokit.Universe.CellRelocation
import Mmokit.Universe.CellRefinement

namespace Mmokit

open List

variable {M : Type*} {n : NetID}

namespace Stage

variable {b b' : Stage M} {existing : List NetID} {frames : List TransferFrame}

lemma new_wf (strict : Bool) : (new strict : Stage M).WF :=
  ⟨fun _ _ => rfl, by simp [new], by simp [new]⟩

lemma new_coherent (strict : Bool) : (new strict : Stage M).CoherentAt n :=
  ⟨by simp [new], by simp [new], by simp [new]⟩

lemma populate_cons {frame : TransferFrame} (h : b.populate existing (frame :: frames) = .ok b') :
    frame.networkID ∈ existing ∧ b.populate existing frames = .ok b' ∨
      frame.networkID ∉ existing ∧ ∃ e b₁,
        (b.removeReplicaByNetID frame.networkID).spawnCellTransferLive frame = (.ok e, b₁) ∧
        b₁.populate (frame.networkID :: existing) frames = .ok b' := by
  rw [populate] at h
  split at h
  · exact .inl ⟨‹_›, h⟩
  · split at h
    · exact .inr ⟨‹_›, _, _, ‹_›, h⟩
    · cases h

lemma populate_record (h : b.populate existing frames = .ok b') : b'.record = b.record := by
  induction frames generalizing b existing with
  | nil =>
    obtain rfl := Except.ok.inj h
    rfl
  | cons frame frames ih =>
    rcases populate_cons h with ⟨-, h⟩ | ⟨-, e, b₁, hspawn, h⟩
    · exact ih h
    have hcore : b₁.record = b.record := by
      have hspawned :
        ((b.removeReplicaByNetID frame.networkID).spawnCellTransferLive frame).2.record =
          (b.removeReplicaByNetID frame.networkID).record := spawnFromTransferCore_record
      rwa [hspawn, removeReplicaByNetID_record] at hspawned
    exact (ih h).trans hcore

lemma spawnCellTransferLive_of_ne {frame : TransferFrame} (hwf : b.WF) (hco : b.CoherentAt n)
    (hmn : frame.networkID ≠ n) :
    Quiet n b ((b.removeReplicaByNetID frame.networkID).spawnCellTransferLive frame).2 := by
  have hroom : Quiet n b (b.removeReplicaByNetID frame.networkID) :=
    quiet_removeReplicaByNetID hwf hco
  exact hroom.trans
    (spawnCore_of_ne ⟨frame.networkID, frame.epoch + 1⟩ hroom.wf hroom.coherent hmn).1

lemma quiet_populate (hskip : ∀ frame ∈ frames, frame.networkID = n → n ∈ existing)
    (hwf : b.WF) (hco : b.CoherentAt n) (h : b.populate existing frames = .ok b') :
    Quiet n b b' := by
  induction frames generalizing b existing with
  | nil =>
    obtain rfl := Except.ok.inj h
    exact .refl hwf hco
  | cons frame frames ih =>
    have hrest : ∀ f ∈ frames, f.networkID = n → n ∈ existing :=
      fun f hf => hskip f (mem_cons_of_mem _ hf)
    rcases populate_cons h with ⟨-, h⟩ | ⟨hnew, e, b₁, hspawn, h⟩
    · exact ih hrest hwf hco h
    have hmn : frame.networkID ≠ n := by
      rintro rfl
      exact hnew (hskip frame mem_cons_self rfl)
    have h₁ := spawnCellTransferLive_of_ne hwf hco hmn
    rw [hspawn] at h₁
    exact h₁.trans (ih (fun f hf hfn => mem_cons_of_mem _ (hrest f hf hfn)) h₁.wf h₁.coherent h)

/-- **What brings `n` makes the stage the authority**, under the next epoch. -/
theorem populate_live {e : Epoch} (hn : n ≠ 0)
    (hsome : ∃ frame ∈ frames, frame.networkID = n)
    (hall : ∀ frame ∈ frames, frame.networkID = n → frame.epoch = e) (hnew : n ∉ existing)
    (hwf : b.WF) (hco : b.CoherentAt n) (hlive : b.isLive n = false)
    (h : b.populate existing frames = .ok b') : Tame n b b' ∧ b'.liveEpoch n = some (e + 1) := by
  induction frames generalizing b existing with
  | nil =>
    obtain ⟨_, hmem, -⟩ := hsome
    cases hmem
  | cons frame frames ih =>
    have hall' : ∀ f ∈ frames, f.networkID = n → f.epoch = e :=
      fun f hf => hall f (mem_cons_of_mem _ hf)
    by_cases hid : frame.networkID = n
    · -- `n` is spawned here, and what comes later does not concern it
      rcases populate_cons h with ⟨hex, -⟩ | ⟨-, ent, b₁, hspawn, h⟩
      · exact absurd (hid ▸ hex) hnew
      have hroom : Quiet n b (b.removeReplicaByNetID n) := quiet_removeReplicaByNetID hwf hco
      obtain ⟨b₂, hcore, ht, -, hepoch⟩ := spawnCore_of_free
        ⟨frame.networkID, frame.epoch + 1⟩ hroom.wf hroom.coherent hn hid
        (removeReplicaByNetID_free hco hlive)
      rw [hid, spawnCellTransferLive, hcore] at hspawn
      obtain ⟨-, rfl⟩ := Prod.mk.inj hspawn
      have hrest := quiet_populate (n := n) (by simp [hid]) ht.wf ht.coherent h
      refine ⟨⟨(hroom.evolves.trans ht.evolves).trans hrest.evolves, hrest.wf, hrest.coherent⟩, ?_⟩
      rw [hrest.live, hepoch, hall frame mem_cons_self hid]
    · have hsome' : ∃ f ∈ frames, f.networkID = n := by
        obtain ⟨f, hf, hfn⟩ := hsome
        rcases mem_cons.mp hf with rfl | hf
        · exact absurd hfn hid
        · exact ⟨f, hf, hfn⟩
      rcases populate_cons h with ⟨-, h⟩ | ⟨-, ent, b₁, hspawn, h⟩
      · exact ih hsome' hall' hnew hwf hco hlive h
      have h₁ := spawnCellTransferLive_of_ne hwf hco hid
      rw [hspawn] at h₁
      have hlive₁ : b₁.isLive n = false := (h₁.isLive hco).trans hlive
      obtain ⟨ht, hepoch⟩ :=
        ih hsome' hall' (by simp [Ne.symm hid, hnew]) h₁.wf h₁.coherent hlive₁ h
      exact ⟨⟨h₁.evolves.trans ht.evolves, ht.wf, ht.coherent⟩, hepoch⟩

variable {keep : Entity → Bool}

lemma mem_serializeEntities (hn : n ≠ 0) (hco : b.CoherentAt n) {frame : TransferFrame}
    (hf : frame ∈ b.serializeEntities keep) (hid : frame.networkID = n) :
    b.liveEpoch n = some frame.epoch ∧ ∃ e, b.lookupNetID n = some ⟨e, .live⟩ ∧ keep e = true := by
  simp only [serializeEntities, mem_map, mem_filter, mem_range,
    Bool.and_eq_true, Option.any_eq_true_iff_get, Option.isNone_iff_eq_none] at hf
  obtain ⟨e, ⟨-, ⟨halive, hrep⟩, hkeep⟩, rfl⟩ := hf
  obtain ⟨row, hrow⟩ := Option.isSome_iff_exists.mp halive
  have hrep : row.replica = none := by simpa [hrow] using hrep
  have hnid : b.networkIDOf e = row.networkID := by simp [networkIDOf, hrow]
  rw [serializeEntityCore, hnid] at hid ⊢
  cases hid' : row.networkID with
  | none =>
    rw [hid'] at hid
    exact absurd hid.symm hn
  | some nid =>
    rw [hid'] at hid
    obtain ⟨p, hs⟩ := hco.row_slot hrow (hid'.trans (congrArg some (by rw [← hid])))
    obtain ⟨row', hrow', -, hfit⟩ := hco.slot_row hs
    obtain rfl := Option.some.inj (hrow.symm.trans hrow')
    have hnid' : b.networkIDOf e = some ⟨n, nid.epoch⟩ := by
      rw [hnid, hid', ← hid]
    cases p with
    | none => exact hfit.elim
    | live => exact ⟨by simp [liveEpoch, lookupNetID, NetIDIndex.lookup, hs, hnid'], e, hs, hkeep⟩
    | replica =>
      obtain ⟨rep, hrep', -⟩ := hfit
      simp [hrep] at hrep'

lemma exists_serializeEntities (hwf : b.WF) (hco : b.CoherentAt n) {epoch : Epoch}
    (hlive : b.liveEpoch n = some epoch)
    (hkeep : ∀ e, b.lookupNetID n = some ⟨e, .live⟩ → keep e = true) :
    ∃ frame ∈ b.serializeEntities keep, frame.networkID = n := by
  obtain ⟨e, hs⟩ := isLive_iff.mp ((isLive_iff_liveEpoch hco).mpr (by simp [hlive]))
  obtain ⟨row, hrow, ⟨epoch', hnid⟩, hrep⟩ := hco.slot_row hs
  have hnid' : b.networkIDOf e = some ⟨n, epoch'⟩ := by simp [networkIDOf, hrow, hnid]
  have hrep : row.replica = none := hrep
  refine ⟨b.serializeEntityCore e, ?_, by simp [serializeEntityCore, hnid']⟩
  refine mem_map_of_mem (mem_filter.mpr ⟨mem_range.mpr (hwf.slot hs).1, ?_⟩)
  simp [hrow, hrep, hkeep e hs]

end Stage

namespace Cell

variable {c : Cell M} {tick : UInt64} {order : List (PendingPromote M)}

lemma foldl_promoteOne (order : List (PendingPromote M)) (c : Cell M) :
    ∃ b, ∀ ph, order.foldl promoteOne { c with phase := ph } =
      { c.withStage b with phase := ph } := by
  induction order generalizing c with
  | nil => exact ⟨c.stage, fun ph => rfl⟩
  | cons p order ih =>
    obtain ⟨b, hb⟩ := ih (c.promoteOne p)
    exact ⟨b, fun ph => by rw [foldl_cons]; exact hb ph⟩

def Takes (v v' : Handover.Peer M) : Prop :=
  v' = v ∨ ∃ e q, v.queue = e ::ₘ q ∧ v.holds = none ∧ v' = { v with holds := some e, queue := q }

lemma Takes.eq {v v' : Handover.Peer M} (h : Takes v v') (hq : v.queue = 0) : v' = v := by
  rcases h with h | ⟨e, q, hq', -⟩
  · exact h
  · simp [hq] at hq'

lemma mem_queue {p : PendingPromote M} (hp : p ∈ c.promotions) (hpn : p.netID = n) :
    p.epoch ∈ (c.view n).queue := by
  refine Multiset.mem_coe.mpr (mem_map_of_mem (mem_filter.mpr ⟨hp, ?_⟩))
  simpa using hpn

lemma Sane.promotes (hn : n ≠ 0) (h : c.Sane n) (hphase : c.phase = .promotes tick order)
    (hcard : (c.view n).queue.card ≤ 1)
    (hfree : ∀ p ∈ order, p.netID = n → c.stage.isLive n = false) :
    ({ order.foldl promoteOne c with phase := .promotes tick [] } : Cell M).Sane n ∧
      Takes (c.view n)
        (({ order.foldl promoteOne c with phase := .promotes tick [] } : Cell M).view n) := by
  induction order generalizing c with
  | nil =>
    rw [← hphase]
    exact ⟨h, .inl rfl⟩
  | cons p order ih =>
    obtain ⟨h₁, htake⟩ := h.promote hn hphase (hfree p mem_cons_self)
    generalize hc₁ : ({ c.promoteOne p with phase := .promotes tick order } : Cell M) = c₁
      at h₁ htake
    have hfold : ({ (p :: order).foldl promoteOne c with phase := .promotes tick [] } :
        Cell M) = { order.foldl promoteOne c₁ with phase := .promotes tick [] } := by
      obtain ⟨b, hb⟩ := foldl_promoteOne order (c.promoteOne p)
      have hb₀ : order.foldl promoteOne (c.promoteOne p) = _ := hb (c.promoteOne p).phase
      rw [← hc₁, hb, foldl_cons, hb₀]
    have hphase₁ : c₁.phase = .promotes tick order := by rw [← hc₁]
    rw [hfold]
    rcases htake with hsame | ⟨q, hq, hold, hview⟩
    · have hlive : c₁.stage.isLive n = c.stage.isLive n := by
        have hholds : c₁.stage.liveEpoch n = c.stage.liveEpoch n := congrArg (·.holds) hsame
        rw [Bool.eq_iff_iff, Stage.isLive_iff_liveEpoch h₁.coherent,
          Stage.isLive_iff_liveEpoch h.coherent, hholds]
      rw [← hsame] at hcard ⊢
      exact ih h₁ hphase₁ hcard fun p' hp' hn' =>
        hlive.trans (hfree p' (mem_cons_of_mem _ hp') hn')
    · -- the promotion was the one of `n`: nothing is queued any more
      have hq₀ : q = 0 := by
        rw [hq, Multiset.card_cons] at hcard
        exact Multiset.card_eq_zero.mp (by omega)
      have hqueue : (c₁.view n).queue = 0 := by
        rw [hview, hq₀]
      obtain ⟨h₂, htake₂⟩ := ih h₁ hphase₁ (by simp [hqueue]) fun p' hp' hn' => by
        have := mem_queue (c := c₁) (by simp [promotions, hphase₁, hp']) hn'
        simp [hqueue] at this
      refine ⟨h₂, .inr ⟨p.epoch, q, hq, hold, ?_⟩⟩
      rw [htake₂.eq hqueue, hview]

lemma flush_eq (tick : UInt64) (order : List (PendingPromote M)) (hidle : c.phase = .idle) :
    ∃ b, c.flushDuePromotesForCommit tick order =
      { (c.takeDuePromotes tick).2.withStage b with phase := .idle } ∧
        ∀ ph, order.foldl promoteOne { (c.takeDuePromotes tick).2 with phase := ph } =
          { (c.takeDuePromotes tick).2.withStage b with phase := ph } := by
  obtain ⟨b, hb⟩ := foldl_promoteOne order (c.takeDuePromotes tick).2
  refine ⟨b, ?_, hb⟩
  rw [← hb, ← hidle]
  rfl

lemma Sane.flush (hn : n ≠ 0) (h : c.Sane n) (hidle : c.phase = .idle)
    (horder : order.Perm (c.takeDuePromotes tick).1) (hcard : (c.view n).queue.card ≤ 1)
    (hfree : ∀ p ∈ order, p.netID = n → c.stage.isLive n = false) :
    (c.flushDuePromotesForCommit tick order).Sane n ∧
      Takes (c.view n) ((c.flushDuePromotesForCommit tick order).view n) := by
  -- the loop of an ordinary tick, as far as its first part
  obtain ⟨h₁, hview₁⟩ := h.beginTick hidle horder
  obtain ⟨h₂, htake⟩ := h₁.promotes hn rfl (by rwa [hview₁]) hfree
  rw [hview₁] at htake
  -- then the loop is left
  obtain ⟨b, hflush, hfold⟩ := flush_eq tick order hidle
  rw [hfold] at h₂ htake
  rw [hflush]
  generalize hc : ({ (c.takeDuePromotes tick).2.withStage b with phase := .idle } :
    Cell M) = c'
  obtain ⟨h₃, hview₃⟩ : c'.Sane n ∧ _ := h₂.move (hc ▸ rfl) (hc ▸ rfl) (hc ▸ rfl) (hc ▸ .refl _)
    (hc ▸ .refl _)
  exact ⟨h₃, by rwa [hview₃]⟩

end Cell

end Mmokit
