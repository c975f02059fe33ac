/-
The tombstones of removed entities (`pkg/engine/engine.go`).

The netID of an authoritative removal waits in `RemovedNetIDs` to be sampled by the replication,
and in `nextRemovedNetIDs` if the sample of this tick was taken already. A removal runs its hooks
while the entity is still alive; these may remove other entities, so a removal is two steps here.
`log` is the history, newest first.
-/
import Mmokit.Library.Runs
import Mathlib.Data.List.Basic
import Mathlib.Logic.Function.Basic

namespace Mmokit.Engine

open Function

inductive RemovalPolicy
  | authoritative
  | localOnly
deriving DecidableEq

/-- A removal whose hooks are running; `netID` is what `GetNetID` has answered. -/
structure Removal (E : Type*) where
  entity : E
  policy : RemovalPolicy
  netID : Option UInt32

inductive RemovalEvent
  | removed (policy : RemovalPolicy) (netID : Option UInt32)
  | sampled (batch : List UInt32)
deriving DecidableEq

structure Removals (E : Type*) where
  alive : E → Bool
  removing : List (Removal E) := []
  removedNetIDs : List UInt32 := []
  nextRemovedNetIDs : List UInt32 := []
  removalsSampled : Bool := false
  log : List RemovalEvent := []

inductive RemovalStep (E : Type*)
  /-- `RemoveEntityNowWithPolicy`, up to the hooks. -/
  | removeEntityNow (r : Removal E)
  /-- The hooks of the last removal return. -/
  | finish
  | beginRemovalTick
  | sampleRemovedNetIDs

namespace Removals

variable {E : Type*} [DecidableEq E] (s : Removals E)

def publishRemovedNetID (netID : UInt32) : Removals E :=
  if s.removalsSampled then { s with nextRemovedNetIDs := s.nextRemovedNetIDs ++ [netID] }
  else { s with removedNetIDs := s.removedNetIDs ++ [netID] }

/-- The end of `RemoveEntityNowWithPolicy`. -/
def finishRemoval (r : Removal E) : Removals E :=
  let s := { s with
    alive := update s.alive r.entity false
    log := .removed r.policy r.netID :: s.log }
  match r.policy, r.netID with
  | .authoritative, some netID => s.publishRemovedNetID netID
  | _, _ => s

def step : RemovalStep E → Option (Removals E)
  | .removeEntityNow r =>
    some (if s.alive r.entity then { s with removing := r :: s.removing } else s)
  | .finish =>
    match s.removing with
    | r :: rest =>
      -- the world panics when the hooks have removed the entity themselves
      if s.alive r.entity then some { s.finishRemoval r with removing := rest } else none
    | [] => none
  | .beginRemovalTick =>
    some (if s.removalsSampled then
        { s with
          removedNetIDs := s.nextRemovedNetIDs, nextRemovedNetIDs := [], removalsSampled := false }
      else s)
  | .sampleRemovedNetIDs =>
    some { s with removalsSampled := true, log := .sampled s.removedNetIDs :: s.log }

/-- At most one sample in each tick. -/
def OneSample (s : Removals E) : RemovalStep E → Prop
  | .sampleRemovedNetIDs => s.removalsSampled = false
  | _ => True

end Removals

namespace RemovalEvent

def tombstone : RemovalEvent → Option UInt32
  | .removed .authoritative netID => netID
  | _ => none

def batch : RemovalEvent → List UInt32
  | .sampled b => b
  | _ => []

/-- What has to be announced, oldest first. -/
def tombstones (log : List RemovalEvent) : List UInt32 := log.reverse.filterMap tombstone

/-- The sampled batches one after the other. -/
def batches (log : List RemovalEvent) : List UInt32 := log.reverse.flatMap batch

lemma tombstones_cons (ev : RemovalEvent) (log : List RemovalEvent) :
    tombstones (ev :: log) = tombstones log ++ ev.tombstone.toList := by
  cases h : ev.tombstone <;> simp [tombstones, h]

lemma batches_cons (ev : RemovalEvent) (log : List RemovalEvent) :
    batches (ev :: log) = batches log ++ ev.batch := by
  simp [batches]

lemma tombstones_prefix (newer older : List RemovalEvent) :
    tombstones older <+: tombstones (newer ++ older) := by
  simp [tombstones]

end RemovalEvent

namespace Removals

open RemovalEvent

variable {E : Type*}

/-- The tombstones that wait for a sample. -/
def pending (s : Removals E) : List UInt32 :=
  if s.removalsSampled then s.nextRemovedNetIDs else s.removedNetIDs

/-- The batches so far and the pending one are all tombstones in order. -/
structure Published (s : Removals E) : Prop where
  pending : batches s.log ++ s.pending = tombstones s.log
  fresh : s.removalsSampled = false → s.nextRemovedNetIDs = []
  sampled : ∀ newer older b, s.log = newer ++ older → .sampled b ∈ newer →
    tombstones older <+: batches s.log

variable {s s' : Removals E}

lemma Published.sample (h : s.Published) (hfresh : s.removalsSampled = false) :
    ({ s with removalsSampled := true, log := .sampled s.removedNetIDs :: s.log } :
      Removals E).Published := by
  have hall : batches (.sampled s.removedNetIDs :: s.log) = tombstones s.log := by
    rw [batches_cons, ← h.pending, Removals.pending, hfresh]
    rfl
  refine ⟨?_, nofun, fun newer older b hsplit hmem => ?_⟩
  · simp [hall, Removals.pending, h.fresh hfresh, tombstones_cons, tombstone]
  · rw [hall]
    cases newer with
    | nil => cases hmem
    | cons ev newer =>
      obtain ⟨-, hsplit⟩ := List.cons.inj hsplit
      exact hsplit ▸ tombstones_prefix newer older

variable [DecidableEq E]

lemma Published.finishRemoval (h : s.Published) (r : Removal E) :
    (s.finishRemoval r).Published := by
  have hlog : (s.finishRemoval r).log = .removed r.policy r.netID :: s.log := by
    unfold Removals.finishRemoval publishRemovedNetID
    dsimp only
    split
    · split <;> rfl
    · rfl
  have hpending : (s.finishRemoval r).pending =
      s.pending ++ (tombstone (.removed r.policy r.netID)).toList ∧
      ((s.finishRemoval r).removalsSampled = false →
        (s.finishRemoval r).nextRemovedNetIDs = []) := by
    have hfresh := h.fresh
    obtain ⟨e, policy, netID⟩ := r
    cases policy <;> cases netID <;> cases hs : s.removalsSampled <;>
      simp_all [Removals.finishRemoval, publishRemovedNetID, tombstone, Removals.pending]
  have hbatches : batches (s.finishRemoval r).log = batches s.log := by
    rw [hlog, batches_cons]
    exact List.append_nil _
  refine ⟨?_, hpending.2, fun newer older b hsplit hmem => ?_⟩
  · rw [hbatches, hpending.1, ← List.append_assoc, h.pending, hlog, tombstones_cons]
  · rw [hlog] at hsplit
    cases newer with
    | nil => cases hmem
    | cons ev newer =>
      obtain ⟨rfl, htail⟩ := List.cons.inj hsplit
      rw [hbatches]
      exact h.sampled newer older b htail ((List.mem_cons.mp hmem).resolve_left nofun)

lemma Published.step {a : RemovalStep E} (h : s.Published) (hK : OneSample s a)
    (hstep : s.step a = some s') : s'.Published := by
  cases a with
  | removeEntityNow r =>
    cases hstep
    split
    · exact ⟨h.pending, h.fresh, h.sampled⟩
    · exact h
  | finish =>
    simp only [Removals.step] at hstep
    split at hstep
    · split at hstep
      · have hdone := h.finishRemoval ‹_›
        cases hstep
        exact ⟨hdone.pending, hdone.fresh, hdone.sampled⟩
      · cases hstep
    · cases hstep
  | beginRemovalTick =>
    cases hstep
    split
    · next hsampled =>
      refine ⟨?_, fun _ => rfl, h.sampled⟩
      rw [← h.pending, Removals.pending, Removals.pending, hsampled]
      rfl
    · exact h
  | sampleRemovedNetIDs => exact Option.some.inj hstep ▸ h.sample hK

/-- **Each tombstone is sampled once.** The sampled batches, one after the other, are the netIDs of
the authoritative removals in their order, without those that still wait; and a removal waits no
longer once a sample was taken after it. -/
theorem tombstones_sampled_once {alive : E → Bool} {t : Removals E}
    (hrun : Run (Steps step) OneSample { alive } t) :
    batches t.log <+: tombstones t.log ∧
      ∀ newer older b, t.log = newer ++ older → .sampled b ∈ newer →
        tombstones older <+: batches t.log := by
  have h : t.Published := by
    refine hrun.invariant ⟨rfl, fun _ => rfl, fun newer older b hsplit hmem => ?_⟩ ?_
    · obtain ⟨rfl, -⟩ := List.append_eq_nil_iff.mp hsplit.symm
      cases hmem
    · exact fun ht hK hstep => ht.step hK hstep
  exact ⟨⟨_, h.pending⟩, h.sampled⟩

instance (s : Removals E) (a : RemovalStep E) : Decidable (OneSample s a) := by
  induction a using RemovalStep.casesOn <;> dsimp only [OneSample] <;> infer_instance

theorem tombstones_sampled_once_two :
    ∃ t : Removals Bool, (Run (Steps step) OneSample { alive := fun _ => true } t ∧
      batches t.log = [7, 9]) ∧ batches t.log <+: tombstones t.log ∧
      ∀ newer older b, t.log = newer ++ older → .sampled b ∈ newer →
        tombstones older <+: batches t.log := by
  obtain ⟨t, hrun, ht⟩ := exists_run (s := ({ alive := fun _ => true } : Removals Bool)) step
    OneSample (fun t => batches t.log = [7, 9])
    [.removeEntityNow ⟨false, .authoritative, some 7⟩, .finish, .sampleRemovedNetIDs,
      .removeEntityNow ⟨true, .authoritative, some 9⟩, .finish, .beginRemovalTick,
      .sampleRemovedNetIDs] (by decide +kernel)
  exact ⟨t, ⟨hrun, ht⟩, tombstones_sampled_once hrun⟩

end Removals

end Mmokit.Engine
