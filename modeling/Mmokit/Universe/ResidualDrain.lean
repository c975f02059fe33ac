/-
The residual drain of a merge (`drainDonorResidualsToSurvivor` in
`pkg/universe/cell_transfer_executor.go`, `stepMergeDrainDonorResiduals` in
`commit_builders_merge.go`).

Before the donors of a merge are torn down, their live entities are shipped to the survivor once
more, in two passes. A netID that the survivor carries already is skipped, and the source does not
ask in what form it is carried: unlike `populateCell`, the drain leaves a border replica where it
is. For each donor there are two jobs, one on the donor's loop and one on the survivor's. A job that
its loop does not get to in time never runs, and the donor is skipped.
-/
import Mmokit.Universe.StagePresence

namespace Mmokit

open List

variable {M : Type*}

/-- Handles that were not given out yet belong to nobody. -/
def World.Fresh (w : World M) : Prop := ∀ e, w.next ≤ e → w.rows e = none

namespace Stage

/-- What became of the two jobs for a donor. -/
inductive DonorJobs
  /-- The donor's loop did not run the job, or an entity could not be serialised. -/
  | serializeFailed
  /-- The survivor's loop did not run the job. -/
  | populateMissed
  | ran
deriving DecidableEq

/-- Why the work on a donor ended. -/
inductive DrainError
  | serialize
  | populate
  | spawn (err : StageError)
deriving DecidableEq

/-- The source's `existing`: every netID of the stage, replicas included. -/
def networkIDs (b : Stage M) : List NetID :=
  (range b.ecs.next).filterMap fun e => (b.networkIDOf e).map (·.id)

/-- The second phase for one donor: spawn what is not there yet, up to the first failure. -/
def rescue (existing : List NetID) (b : Stage M) :
    List TransferFrame → Except DrainError Unit × Stage M
  | [] => (.ok (), b)
  | frame :: rest =>
    if frame.networkID ∈ existing then b.rescue existing rest
    else
      match b.spawnCellTransferLive frame with
      | (.ok _, b₁) => b₁.rescue (frame.networkID :: existing) rest
      | (.error err, b₁) => (.error (.spawn err), b₁)

/-- One pass over the donors, given as their loops find them after the queued promotions were
carried out. A failure ends the work on one donor only. -/
def drainDonorResidualsToSurvivor :
    List (Stage M × DonorJobs) → Stage M → List (Except DrainError Unit) × Stage M
  | [], survivor => ([], survivor)
  | (d, jobs) :: donors, survivor =>
    let r : Except DrainError Unit × Stage M :=
      match jobs with
      | .serializeFailed => (.error .serialize, survivor)
      | .populateMissed => (.error .populate, survivor)
      | .ran => survivor.rescue survivor.networkIDs (d.serializeEntities fun _ => true)
    let rest := drainDonorResidualsToSurvivor donors r.2
    (r.1 :: rest.1, rest.2)

/-- The two passes; the donors may differ between them, and so may their jobs. -/
def stepMergeDrainDonorResiduals (pass₀ pass₁ : List (Stage M × DonorJobs))
    (survivor : Stage M) : List (Except DrainError Unit) × Stage M :=
  let r := drainDonorResidualsToSurvivor pass₀ survivor
  let r' := drainDonorResidualsToSurvivor pass₁ r.2
  (r.1 ++ r'.1, r'.2)

/-- Some living entity carries the netID. -/
def Carried (b : Stage M) (n : NetID) : Prop := ∃ e row, b.Carries n e row

/-- Some living entity carries the netID and is no replica. By `Presence.live` this is what the
index of a stage calls live. -/
def Authoritative (b : Stage M) (n : NetID) : Prop :=
  ∃ e row, b.Carries n e row ∧ row.replica = none

/-! ### What the drain adds -/

/-- From `b` to `b'` the netIDs in `P` were added, as far as they were not carried. -/
structure Rescued (P : NetID → Prop) (b b' : Stage M) : Prop where
  fresh : b'.ecs.Fresh
  carried : ∀ n, b'.Carried n ↔ b.Carried n ∨ P n
  authoritative : ∀ n, b'.Authoritative n ↔ b.Authoritative n ∨ ¬ b.Carried n ∧ P n

variable {b b₁ b₂ : Stage M} {P Q : NetID → Prop}

lemma Rescued.refl (hb : b.ecs.Fresh) (hP : ∀ n, P n → b.Carried n) : Rescued P b b where
  fresh := hb
  carried n := ⟨.inl, fun h => h.elim id (hP n)⟩
  authoritative n := ⟨.inl, fun h => h.elim id fun ⟨hnot, hn⟩ => absurd (hP n hn) hnot⟩

lemma Rescued.trans (h : Rescued P b b₁) (h' : Rescued Q b₁ b₂) :
    Rescued (fun n => P n ∨ Q n) b b₂ where
  fresh := h'.fresh
  carried n := by rw [h'.carried, h.carried, or_assoc]
  authoritative n := by
    rw [h'.authoritative, h.authoritative, h.carried]
    tauto

lemma spawnCellTransferLive_ok {frame : TransferFrame} {e : Entity}
    (h : b.spawnCellTransferLive frame = (.ok e, b₁)) :
    b₁.ecs = (b.ecs.newEntity ⟨some ⟨frame.networkID, frame.epoch + 1⟩, none⟩).2 := by
  simp only [spawnCellTransferLive, spawnFromTransferCore] at h
  split at h
  · rw [← (Prod.mk.inj h).2]
  split at h
  · rw [← (Prod.mk.inj h).2]
  · rw [← (Prod.mk.inj h).2]
  all_goals
    split at h
    · cases (Prod.mk.inj h).1
    · rw [← (Prod.mk.inj h).2]

lemma rescued_spawn {frame : TransferFrame} {e : Entity} (hb : b.ecs.Fresh)
    (hnew : ¬ b.Carried frame.networkID) (h : b.spawnCellTransferLive frame = (.ok e, b₁)) :
    Rescued (· = frame.networkID) b b₁ := by
  have hecs := spawnCellTransferLive_ok h
  have hrow : ∀ e' row, b₁.ecs.rows e' = some row ↔ b.ecs.rows e' = some row ∨
      e' = b.ecs.next ∧ row = ⟨some ⟨frame.networkID, frame.epoch + 1⟩, none⟩ := by
    intro e' row
    rw [hecs, World.newEntity]
    by_cases he : e' = b.ecs.next
    · simp [he, hb _ (Nat.le_refl _), eq_comm]
    · simp [he]
  have hadds : ∀ Q : Row M → Prop, Q ⟨some ⟨frame.networkID, frame.epoch + 1⟩, none⟩ → ∀ n,
      (∃ e' row, b₁.Carries n e' row ∧ Q row) ↔
        (∃ e' row, b.Carries n e' row ∧ Q row) ∨ n = frame.networkID := by
    intro Q hQ n
    simp only [Carries, hrow]
    constructor
    · rintro ⟨e', row, ⟨hr | ⟨-, rfl⟩, hid⟩, hq⟩
      · exact .inl ⟨e', row, ⟨hr, hid⟩, hq⟩
      · exact .inr (Option.some.inj hid).symm
    · rintro (⟨e', row, ⟨hr, hid⟩, hq⟩ | rfl)
      · exact ⟨e', row, ⟨.inl hr, hid⟩, hq⟩
      · exact ⟨_, _, ⟨.inr ⟨rfl, rfl⟩, rfl⟩, hQ⟩
  refine ⟨fun e' he' => ?_, fun n => by simpa [Carried] using hadds (fun _ => True) trivial n,
    fun n => (hadds (·.replica = none) rfl n).trans
      (or_congr_right ⟨fun h => ⟨h ▸ hnew, h⟩, And.right⟩)⟩
  rw [hecs] at he' ⊢
  have hlt : b.ecs.next < e' := he'
  exact (Function.update_of_ne (Nat.ne_of_gt hlt) ..).trans (hb e' (Nat.le_of_lt hlt))

lemma rescued_rescue {frames : List TransferFrame} {existing : List NetID} (hb : b.ecs.Fresh)
    (hex : ∀ n, n ∈ existing ↔ b.Carried n)
    (hok : ∀ err, (b.rescue existing frames).1 ≠ .error (.spawn err)) :
    Rescued (· ∈ frames.map (·.networkID)) b (b.rescue existing frames).2 := by
  induction frames generalizing b existing with
  | nil => exact .refl hb (by simp)
  | cons frame rest ih =>
    simp only [rescue, map_cons, mem_cons] at hok ⊢
    split
    · next hmem =>
      rw [if_pos hmem] at hok
      refine (Rescued.refl (P := (· = frame.networkID)) hb ?_).trans (ih hb hex hok)
      rintro n rfl
      exact (hex _).mp hmem
    · next hmem =>
      rw [if_neg hmem] at hok
      split
      · next e b₁ hspawn =>
        rw [hspawn] at hok
        have h₁ := rescued_spawn hb (fun h => hmem ((hex _).mpr h)) hspawn
        refine h₁.trans (ih h₁.fresh (fun n => ?_) hok)
        rw [mem_cons, hex, h₁.carried, or_comm]
      · next hspawn =>
        rw [hspawn] at hok
        exact absurd rfl (hok _)

lemma mem_networkIDs (hb : b.ecs.Fresh) (n : NetID) : n ∈ b.networkIDs ↔ b.Carried n := by
  simp only [networkIDs, mem_filterMap, mem_range, networkIDOf, Option.map_bind,
    Option.bind_eq_some_iff]
  constructor
  · rintro ⟨e, -, row, hrow, hid⟩
    exact ⟨e, row, hrow, hid⟩
  rintro ⟨e, row, hrow, hid⟩
  refine ⟨e, ?_, row, hrow, hid⟩
  by_contra hlt
  rw [hb e (Nat.le_of_not_lt hlt)] at hrow
  cases hrow

/-- The netIDs of the frames that a donor's job yields. -/
def shipped (d : Stage M) : List NetID :=
  (d.serializeEntities fun _ => true).map (·.networkID)

lemma rescued_drain {donors : List (Stage M × DonorJobs)} (hb : b.ecs.Fresh)
    (hok : ∀ r ∈ (drainDonorResidualsToSurvivor donors b).1, ∀ err, r ≠ .error (.spawn err)) :
    Rescued (fun n => ∃ d ∈ donors, d.2 = .ran ∧ n ∈ d.1.shipped) b
      (drainDonorResidualsToSurvivor donors b).2 := by
  induction donors generalizing b with
  | nil => exact .refl hb (by simp)
  | cons d donors ih =>
    obtain ⟨d, jobs⟩ := d
    obtain ⟨hd, hrest⟩ := forall_mem_cons.mp hok
    simp only [exists_mem_cons_iff]
    cases jobs with
    | serializeFailed => exact (Rescued.refl hb (by simp)).trans (ih hb hrest)
    | populateMissed => exact (Rescued.refl hb (by simp)).trans (ih hb hrest)
    | ran =>
      have h₁ := rescued_rescue hb (mem_networkIDs hb) hd
      simp only [true_and]
      exact h₁.trans (ih h₁.fresh hrest)

/-- An entity without a `NetworkID` is shipped as number zero. -/
lemma mem_shipped_iff {d : Stage M} {n : NetID} (hd : d.ecs.Fresh) (hn : n ≠ 0) :
    n ∈ d.shipped ↔ d.Authoritative n := by
  simp only [shipped, serializeEntities, map_map, mem_map, mem_filter, mem_range, Bool.and_true,
    Option.any_eq_true, Option.isNone_iff_eq_none, Function.comp_apply]
  constructor
  · rintro ⟨e, ⟨-, row, hrow, hrep⟩, hid⟩
    refine ⟨e, row, ⟨hrow, ?_⟩, hrep⟩
    cases hnid : row.networkID with
    | none =>
      exact absurd (by simpa [serializeEntityCore, networkIDOf, hrow, hnid] using hid) hn.symm
    | some nid => simpa [serializeEntityCore, networkIDOf, hrow, hnid] using hid
  · rintro ⟨e, row, hc, hrep⟩
    obtain ⟨hrow, epoch, hnid⟩ := carries_iff.mp hc
    refine ⟨e, ⟨Nat.lt_of_not_le fun hle => ?_, row, hrow, hrep⟩, ?_⟩
    · rw [hd e hle] at hrow
      cases hrow
    · simp [serializeEntityCore, networkIDOf, hrow, hnid]

variable {survivor : Stage M} {pass₀ pass₁ : List (Stage M × DonorJobs)}

/-- **What the drain saves.** If no spawn fails, a netID is live on the survivor afterwards iff the
survivor was its authority before, or did not carry it at all and the jobs ran for a donor on which
it is live. -/
theorem residual_drain_live_iff (hs : survivor.ecs.Fresh)
    (hd : ∀ d ∈ pass₀ ++ pass₁, d.1.ecs.Fresh)
    (hspawn : ∀ r ∈ (stepMergeDrainDonorResiduals pass₀ pass₁ survivor).1,
      ∀ err, r ≠ .error (.spawn err)) {n : NetID} (hn : n ≠ 0) :
    (stepMergeDrainDonorResiduals pass₀ pass₁ survivor).2.Authoritative n ↔
      survivor.Authoritative n ∨ ¬ survivor.Carried n ∧
        ∃ d ∈ pass₀ ++ pass₁, d.2 = .ran ∧ d.1.Authoritative n := by
  have h₀ := rescued_drain hs fun r hr => hspawn r (mem_append_left _ hr)
  have h₁ := h₀.trans (rescued_drain h₀.fresh fun r hr => hspawn r (mem_append_right _ hr))
  have hlive : ∀ d ∈ pass₀ ++ pass₁, (d.2 = .ran ∧ n ∈ d.1.shipped ↔
      d.2 = .ran ∧ d.1.Authoritative n) :=
    fun d hmem => and_congr_right fun _ => mem_shipped_iff (hd d hmem) hn
  refine (h₁.authoritative n).trans (or_congr_right (and_congr_right fun _ => ?_))
  simp only [← exists_or, ← or_and_right, ← mem_append]
  exact exists_congr fun d => and_congr_right (hlive d)

/-- A stage with one entity, which is live or a replica. -/
def lone (replica : Option (Replica Unit)) : Stage Unit :=
  { Stage.new true with
    ecs := ⟨1, Function.update (fun _ => none) 0 (some ⟨some ⟨7, 1⟩, replica⟩)⟩
    netIDIdx := ⟨Function.update (fun _ => none) 7
      (some ⟨0, if replica.isSome then .replica else .live⟩)⟩
    replicaNetIDs := if replica.isSome then Function.update (fun _ => none) 7 (some 0)
      else fun _ => none }

lemma fresh_lone (replica : Option (Replica Unit)) : (lone replica).ecs.Fresh := by
  intro e he
  have hne : e ≠ 0 := Nat.ne_of_gt he
  simp [lone, hne]

/-- The first pass misses the donor, and the second one does not. -/
theorem residual_drain_live_iff_unknown :
    (stepMergeDrainDonorResiduals [(lone none, .serializeFailed)] [(lone none, .ran)]
      (Stage.new true)).2.Authoritative 7 := by
  have hresults : (stepMergeDrainDonorResiduals [(lone none, .serializeFailed)]
      [(lone none, .ran)] (Stage.new true)).1 = [.error .serialize, .ok ()] := by
    decide
  refine (residual_drain_live_iff (fun _ _ => rfl) ?_ ?_ (by decide)).mpr (.inr ⟨?_, ?_⟩)
  · simpa using fresh_lone none
  · simp [hresults]
  · rintro ⟨e, row, hrow, -⟩
    cases hrow
  · exact ⟨(lone none, .ran), by simp, rfl, 0, _, ⟨rfl, rfl⟩, rfl⟩

/-- **The drain loses what the survivor knows as a replica.** The donor ships its entity twice, and
the survivor, which holds a border replica of it, skips it both times. -/
theorem residual_drain_loses_replicated :
    let survivor := lone (some ⟨(), 7, 30⟩)
    let r := stepMergeDrainDonorResiduals [(lone none, .ran)] [(lone none, .ran)] survivor
    (lone none).Authoritative 7 ∧ r.1 = [.ok (), .ok ()] ∧ ¬ r.2.Authoritative 7 := by
  refine ⟨⟨0, _, ⟨rfl, rfl⟩, rfl⟩, by decide, ?_⟩
  rintro ⟨e, row, ⟨hrow, -⟩, hrep⟩
  have hrows : (lone (some ⟨(), 7, 30⟩)).ecs.rows e = some row := hrow
  rcases Nat.eq_zero_or_pos e with rfl | hpos
  · cases hrows
    cases hrep
  · rw [fresh_lone _ e hpos] at hrows
    cases hrows

end Stage

end Mmokit
