/-
At most one host that is not dead owns a cell.

Every part of the coordinator that gives a cell to a host looks first at who owns it, and has the
old owner release it: a rebalance, a `CellReady` report, the reassignment of a dead host's cells
and the commit of a transfer. The look and the gift are separate steps. What lies between them is
in the thread's list of actions: a *grant* of a cell, with the releases that come before it.

The invariant says that each pending grant is sound: the hosts that hold the cell now, without
those that are released before the grant, are at most the host that gets it (`Settles`).
-/
import Mathlib
import Mmokit.Universe.ControlThreads

namespace Mmokit

open Function List

variable {H : Type*}

namespace ControlAction

/-- The action gives the cell to a host, or leads to it. -/
def Grants (c : CellID) : ControlAction H → Prop
  | dispatchAssign _ c' | assignCell _ c' | readyState _ c' _ => c' = c
  | _ => False

/-- A host that may hold the cell when its grant is run: the one that gets it, or the one that the
action is still about to look at. -/
def Admits (g : H) : ControlAction H → Prop
  | dispatchAssign h _ | assignCell h _ => g = h
  | readyState h _ current => g = h ∨ g = current
  | _ => True

/-- The action makes the host release the cell, or leads to it. -/
def Releases (g : H) (c : CellID) : ControlAction H → Prop
  | dispatchRelease h c' | releaseCell h c' => h = g ∧ c' = c
  | _ => False

def Pending (c : CellID) (todo : List (ControlAction H)) : Prop := ∃ a ∈ todo, a.Grants c

/-- If the hosts in `P` hold the cell, then those that hold it at its grant are as they
should be. -/
def Settles (c : CellID) : (H → Prop) → List (ControlAction H) → Prop
  | _, [] => True
  | P, a :: rest => (a.Grants c → (∀ g, P g → a.Admits g) ∧ ¬ Pending c rest) ∧
      Settles c (fun g => P g ∧ ¬ a.Releases g c) rest

section Settles

variable {c : CellID} {P P' : H → Prop} {a : ControlAction H}
  {todo rest : List (ControlAction H)}

lemma pending_append : Pending c (todo ++ rest) ↔ Pending c todo ∨ Pending c rest := by
  simp [Pending, or_and_right, exists_or]

lemma pending_cons : Pending c (a :: rest) ↔ a.Grants c ∨ Pending c rest := by
  simp [Pending]

lemma Settles.mono (hP : ∀ g, P' g → P g) (h : Settles c P todo) : Settles c P' todo := by
  induction todo generalizing P P' with
  | nil => trivial
  | cons a rest ih =>
    obtain ⟨hgrant, hrest⟩ := h
    refine ⟨fun ha => ⟨fun g hg => (hgrant ha).1 g (hP g hg), (hgrant ha).2⟩, ?_⟩
    exact ih (fun g hg => ⟨hP g hg.1, hg.2⟩) hrest

lemma settles_of_not_pending (h : ¬ Pending c todo) : Settles c P todo := by
  induction todo generalizing P with
  | nil => trivial
  | cons a rest ih =>
    rw [pending_cons, not_or] at h
    exact ⟨fun ha => (h.1 ha).elim, ih h.2⟩

lemma Settles.append_left (htodo : ¬ Pending c todo) (h : Settles c P rest) :
    Settles c P (todo ++ rest) := by
  induction todo generalizing P with
  | nil => exact h
  | cons a todo ih =>
    rw [pending_cons, not_or] at htodo
    exact ⟨fun ha => (htodo.1 ha).elim, ih htodo.2 (h.mono fun g hg => hg.1)⟩

lemma Settles.append_right (hrest : ¬ Pending c rest) (h : Settles c P todo) :
    Settles c P (todo ++ rest) := by
  induction todo generalizing P with
  | nil => exact settles_of_not_pending hrest
  | cons a todo ih =>
    refine ⟨fun ha => ⟨(h.1 ha).1, fun hp => ?_⟩, ih h.2⟩
    exact (pending_append.mp hp).elim (h.1 ha).2 hrest

lemma settles_flatMap {l : List (CellID × H)} {f : CellID × H → List (ControlAction H)}
    (hnodup : (l.map Prod.fst).Nodup) (hother : ∀ x ∈ l, x.1 ≠ c → ¬ Pending c (f x))
    (hself : ∀ x ∈ l, x.1 = c → Settles c P (f x)) : Settles c P (l.flatMap f) := by
  induction l with
  | nil => trivial
  | cons x l ih =>
    rw [map_cons, nodup_cons] at hnodup
    by_cases hx : x.1 = c
    · refine (hself x (mem_cons_self ..) hx).append_right ?_
      rintro ⟨a, ha, hgrant⟩
      obtain ⟨y, hy, ha⟩ := mem_flatMap.mp ha
      have hyc : y.1 ≠ c := fun hyc =>
        hnodup.1 (mem_map.mpr ⟨y, hy, hyc.trans hx.symm⟩)
      exact hother y (mem_cons_of_mem _ hy) hyc ⟨a, ha, hgrant⟩
    · refine Settles.append_left (hother x (mem_cons_self ..) hx) (ih hnodup.2 ?_ ?_)
      · exact fun y hy => hother y (mem_cons_of_mem _ hy)
      · exact fun y hy => hself y (mem_cons_of_mem _ hy)

end Settles

variable [DecidableEq H] {i : ℕ} {s : Registry H} {ans : Answer H}
  {a : ControlAction H} {todo rest : List (ControlAction H)} {c : CellID}

lemma holds_setState {h g : H} {state : RemoteHostState}
    (hstate : state = .dead ∨ s.NotDead h ∨ s.ownership.ownedCells h = [])
    (hg : (s.setState h state).Holds g c) : s.Holds g c := by
  unfold Registry.setState at hg
  split at hg
  · by_cases hgh : g = h
    · subst hgh
      rcases hstate with rfl | hdead | hnone
      · simp [Registry.Holds, Registry.NotDead] at hg
      · exact ⟨hdead, hg.2⟩
      · have : c ∈ s.ownership.ownedCells g := hg.2
        simp [hnone] at this
    · simpa [Registry.Holds, Registry.NotDead, update_of_ne hgh] using hg
  · exact hg

lemma holds_effect {g : H} (hleave : ∀ h, a = markLeaving h → s.ownership.ownedCells h = [])
    (hg : (a.effect i s).Holds g c) : s.Holds g c ∧ a ≠ releaseCell g c ∨ a = assignCell g c := by
  cases a with
  | register h serviceOnly =>
    -- the new entry owns nothing
    refine .inl ⟨?_, by simp⟩
    by_cases hgh : g = h
    · subst hgh
      simp [Registry.Holds, effect, Registry.register] at hg
    · simpa [Registry.Holds, Registry.NotDead, effect, Registry.register, hgh,
        update_of_ne hgh] using hg
  | touch h =>
    refine .inl ⟨?_, by simp⟩
    simp only [effect, Registry.touch] at hg
    split at hg
    · by_cases hh : h ∈ s.ownership.hosts
      · exact holds_setState (.inr (.inl ⟨hh, by simp [*]⟩)) hg
      · rwa [Registry.setState, if_neg hh] at hg
    · exact hg
  | markDead h => exact .inl ⟨holds_setState (.inl rfl) hg, by simp⟩
  | markLeaving h => exact .inl ⟨holds_setState (.inr (.inr (hleave h rfl))) hg, by simp⟩
  | remove h =>
    refine .inl ⟨?_, by simp⟩
    by_cases hgh : g = h
    · subst hgh
      simp [Registry.Holds, effect, Registry.remove] at hg
    · simpa [Registry.Holds, Registry.NotDead, effect, Registry.remove, hgh,
        update_of_ne hgh] using hg
  | releaseStream h =>
    refine .inl ⟨?_, by simp⟩
    simp only [effect] at hg
    split at hg <;> exact hg
  | releaseCell h c' =>
    by_cases hgh : g = h
    · subst hgh
      have hcell : c ∈ s.ownership.ownedCells g ∧ c ≠ c' := by
        simpa [effect, Registry.releaseCell, Ownership.releaseCell] using hg.2
      exact .inl ⟨⟨hg.1, hcell.1⟩, fun ha => hcell.2 (by cases ha; rfl)⟩
    · refine .inl ⟨⟨hg.1, ?_⟩, fun ha => hgh (by cases ha; rfl)⟩
      simpa [effect, Registry.releaseCell, Ownership.releaseCell, update_of_ne hgh]
        using hg.2
  | assignCell h c' =>
    by_cases hh : h ∈ s.ownership.hosts
    · by_cases hgh : g = h
      · subst hgh
        by_cases hc : c = c'
        · exact .inr (by rw [hc])
        refine .inl ⟨⟨?_, ?_⟩, by simp⟩
        · simpa [Registry.NotDead, effect, Registry.assignCell, Ownership.assignCell, hh]
            using hg.1
        · simpa [effect, Registry.assignCell, Ownership.assignCell, hh, hc] using hg.2
      · refine .inl ⟨⟨?_, ?_⟩, by simp⟩
        · simpa [Registry.NotDead, effect, Registry.assignCell, Ownership.assignCell, hh] using hg.1
        · simpa [effect, Registry.assignCell, Ownership.assignCell, hh, update_of_ne hgh]
            using hg.2
    · refine .inl ⟨?_, by simp⟩
      simpa [effect, Registry.Holds, Registry.NotDead, Registry.assignCell,
        Ownership.assignCell, hh]
        using hg
  | _ => exact .inl ⟨hg, by simp⟩

/-- The cells that a thread decides about with this action. -/
def decides (ans : Answer H) : ControlAction H → List CellID
  | place c _ | readyOwner _ c => [c]
  | reassignOrphanedCells _ _ => ans.assignments.map Prod.fst
  | commit plan => plan.request.mutation.add.map Prod.fst
  | _ => []

lemma pending_next (ha : a.next i s ans = some todo) (hp : Pending c todo) :
    a.Grants c ∨ c ∈ a.decides ans := by
  obtain ⟨b, hb, hgrant⟩ := hp
  cases a <;> simp only [next] at ha <;> repeat' split at ha
  all_goals cases ha
  case checkLiveness =>
    obtain ⟨h, -, hb⟩ := mem_flatMap.mp hb
    simp only [mem_cons, not_mem_nil, or_false] at hb
    rcases hb with rfl | rfl | rfl <;> exact hgrant.elim
  case reassignOrphanedCells.isFalse.isTrue.refl =>
    obtain ⟨x, hx, hb⟩ := mem_flatMap.mp hb
    rcases mem_pair.mp hb with rfl | rfl
    · exact hgrant.elim
    · exact .inr (mem_map.mpr ⟨x, hx, hgrant⟩)
  case enumerateCells =>
    obtain ⟨x, -, rfl⟩ := mem_map.mp hb
    exact hgrant.elim
  case commit =>
    rcases mem_registryDelta hb with ⟨h, c', rfl, -⟩ | ⟨x, hx, rfl⟩
    · exact hgrant.elim
    · exact .inr (mem_map.mpr ⟨x, hx, hgrant⟩)
  case sweep.isTrue.refl =>
    obtain ⟨x, -, rfl⟩ := mem_map.mp hb
    exact hgrant.elim
  all_goals simp only [mem_cons, not_mem_nil, or_false] at hb
  all_goals
    first
    | subst hb
      first
      | exact hgrant.elim
      | exact .inl hgrant
      | exact .inr (by simpa [decides] using hgrant.symm)
    | rcases hb with rfl | rfl
      · exact hgrant.elim
      · first | exact hgrant.elim | exact .inr (by simpa [decides] using hgrant.symm)

/-- What a decision rests on is true when it is made, and a release that it counts on is sent.

* `HostForCell` does not answer with a dead host while a host that is not dead owns the cell;
* the release that a rebalance sends to an owner that is not dead reaches it;
* no other host that is not dead owns a cell of the dead host whose cells are reassigned;
* the previous owner that a commit goes by is the owner;
* a host that is marked leaving owns no cells. -/
def Sound (s : Registry H) (ans : Answer H) : ControlAction H → Prop
  | place c _ | readyOwner _ c =>
    ∀ owner ∈ ans.owner, s.AllHolders c fun _ => s.Holds owner c
  | dispatchRelease h c => ans.sent = true ∨ ¬ s.Holds h c
  | reassignOrphanedCells dead _ =>
    ∀ x ∈ ans.assignments, s.AllHolders x.1 fun g => g = dead
  | commit plan => ∀ x ∈ plan.request.mutation.add, s.AllHolders x.1 fun g =>
      s.ownership.preOwnership plan.request x.1 = some g ∨ g = x.2
  | markLeaving h => s.ownership.ownedCells h = []
  | _ => True

lemma nodup_add (plan : TransferPlan H) : (plan.request.mutation.add.map Prod.fst).Nodup := by
  cases plan with
  | split parent srcHost host₀ host₁ host₂ host₃ =>
    simp [TransferPlan.request, CellTransferRequest.split, CellID.children]
  | merge parent host₀ host₁ host₂ host₃ choice =>
    simp [TransferPlan.request, CellTransferRequest.merge]
  | migrate cell srcHost destHost =>
    simp [TransferPlan.request, CellTransferRequest.migrate]

omit [DecidableEq H] in
/-- An answer of `HostForCell` that no dead host spoils names every holder. -/
lemma owner_of_holds {g : H} (hunique : ∀ g h, s.Holds g c → s.Holds h c → g = h)
    (hanswer : s.Answers c ans.owner)
    (hsound : ∀ owner ∈ ans.owner, s.AllHolders c fun _ => s.Holds owner c) (hg : s.Holds g c) :
    ans.owner = some g := by
  cases howner : ans.owner with
  | none =>
    rw [howner] at hanswer
    exact (hanswer g hg.1.1 hg.2).elim
  | some owner => rw [hunique owner g (hsound owner howner g hg.1.1 hg) hg]

lemma settles_decided (hunique : ∀ g h, s.Holds g c → s.Holds h c → g = h) (hsound : a.Sound s ans)
    (ha : a.next i s ans = some todo) (hc : c ∈ a.decides ans) :
    Settles c (fun g => s.Holds g c) todo := by
  cases a with
  | place c' h =>
    obtain rfl : c = c' := by simpa [decides] using hc
    simp only [next] at ha
    split at ha
    · have hheld := fun g => owner_of_holds (g := g) hunique ‹_› hsound
      split at ha <;> rename_i howner
      · split at ha <;> cases ha
        · trivial
        · refine ⟨fun hgrant => hgrant.elim, fun _ => ⟨fun g hg => ?_, by simp [Pending]⟩, trivial⟩
          have hg' := Option.some.inj (howner.symm.trans (hheld g hg.1))
          exact (hg.2 ⟨hg', rfl⟩).elim
      · cases ha
        refine ⟨fun _ => ⟨fun g hg => ?_, by simp [Pending]⟩, trivial⟩
        cases howner.symm.trans (hheld g hg)
    · cases ha
  | readyOwner h c' =>
    obtain rfl : c = c' := by simpa [decides] using hc
    simp only [next] at ha
    split at ha
    · have hheld := fun g => owner_of_holds (g := g) hunique ‹_› hsound
      split at ha <;> rename_i howner
      · have hcurrent := fun g hg => Option.some.inj ((hheld g hg).symm.trans howner)
        split at ha <;> cases ha
        · rename_i hself
          exact ⟨fun _ => ⟨fun g hg => (hcurrent g hg).trans hself, by simp [Pending]⟩, trivial⟩
        · exact ⟨fun _ => ⟨fun g hg => .inr (hcurrent g hg), by simp [Pending]⟩, trivial⟩
      · cases ha
        refine ⟨fun _ => ⟨fun g hg => ?_, by simp [Pending]⟩, trivial⟩
        cases howner.symm.trans (hheld g hg)
    · cases ha
  | reassignOrphanedCells dead cells =>
    simp only [next] at ha
    split at ha
    · cases ha
      trivial
    split at ha
    · rename_i hspread
      cases ha
      have hperm := isPerm_iff.mp hspread.1
      refine settles_flatMap (hperm.nodup_iff.mpr (nodup_dedup _)) (fun x _ hx => ?_) ?_
      · simpa [Pending, Grants] using hx
      · rintro x hx rfl
        refine ⟨fun hgrant => hgrant.elim, fun _ => ⟨fun g hg => ?_, by simp [Pending]⟩, trivial⟩
        exact (hg.2 ⟨(hsound x hx g hg.1.1.1 hg.1).symm, rfl⟩).elim
    · cases ha
  | commit plan =>
    cases ha
    refine Settles.append_left ?_ (settles_flatMap (nodup_add plan) (fun x _ hx => ?_) ?_)
    · -- the removed cells are released only
      rintro ⟨b, hb, hgrant⟩
      obtain ⟨c', -, hb⟩ := mem_flatMap.mp hb
      obtain ⟨h, -, rfl⟩ := mem_map.mp hb
      exact hgrant
    · rintro ⟨b, hb, hgrant⟩
      rcases mem_append.mp hb with hb | hb
      · obtain ⟨h, -, rfl⟩ := mem_map.mp hb
        exact hgrant
      · rw [mem_singleton.mp hb] at hgrant
        exact hx hgrant
    · rintro x hx rfl
      have hheld := fun g hg => hsound x hx g hg.1.1 hg
      cases hpre : (s.ownership.preOwnership plan.request x.1).filter (· ≠ x.2) with
      | none =>
        refine ⟨fun _ => ⟨fun g hg => ?_, by simp [Pending]⟩, trivial⟩
        rcases hheld g hg with hprev | hprev
        · have hself : g = x.2 := by simpa [hprev] using hpre
          exact hself
        · exact hprev
      | some h =>
        refine ⟨fun hgrant => hgrant.elim, fun _ => ⟨fun g hg => ?_, by simp [Pending]⟩, trivial⟩
        have hprev : s.ownership.preOwnership plan.request x.1 = some h :=
          (Option.filter_eq_some_iff.mp hpre).1
        rcases hheld g hg.1 with hg' | hg'
        · exact (hg.2 ⟨Option.some.inj (hprev.symm.trans hg'), rfl⟩).elim
        · exact hg'
  | _ => simp [decides] at hc

lemma settles_next (hunique : ∀ g h, s.Holds g c → s.Holds h c → g = h) (hsound : a.Sound s ans)
    (ha : a.next i s ans = some todo) (hfree : c ∈ a.decides ans → ¬ Pending c rest)
    (h : Settles c (fun g => s.Holds g c) (a :: rest)) :
    Settles c (fun g => (a.effect i s).Holds g c) (todo ++ rest) := by
  have hholds := fun g => holds_effect (i := i) (s := s) (a := a) (c := c) (g := g)
    (by rintro h rfl; exact hsound)
  by_cases hc : c ∈ a.decides ans
  · refine ((settles_decided hunique hsound ha hc).mono fun g hg => ?_).append_right (hfree hc)
    rcases hholds g hg with ⟨hg, -⟩ | rfl
    · exact hg
    · simp [decides] at hc
  by_cases hgrant : a.Grants c
  · -- the grant itself: it is passed on or done
    obtain ⟨hadmits, hrest⟩ := h.1 hgrant
    refine Settles.append_right hrest ?_
    cases a with
    | dispatchAssign h c' =>
      simp only [next] at ha
      repeat' split at ha
      all_goals cases ha
      · exact ⟨fun _ => ⟨hadmits, by simp [Pending]⟩, trivial⟩
      · trivial
    | readyState h c' current =>
      cases ha
      split
      · exact settles_of_not_pending (by simp [Pending, Grants])
      rename_i hdead
      refine ⟨fun _ => ⟨fun g hg => ?_, by simp [Pending]⟩, trivial⟩
      rcases hadmits g hg with hg' | rfl
      · exact hg'
      · exact (hdead hg.1).elim
    | assignCell h c' =>
      cases ha
      trivial
    | _ => exact hgrant.elim
  have hnext : ¬ Pending c todo := fun hp => (pending_next ha hp).elim hgrant hc
  by_cases hsend : ∃ h, a = dispatchRelease h c
  · obtain ⟨h', rfl⟩ := hsend
    simp only [next] at ha
    repeat' split at ha
    all_goals cases ha
    · exact ⟨fun hgrant => hgrant.elim, h.2⟩
    rename_i hsent
    have hnot := hsound.resolve_left hsent
    refine h.2.mono fun g hg => ⟨hg, fun hrel => hnot ?_⟩
    rw [hrel.1]
    exact hg
  · refine Settles.append_left hnext (h.2.mono fun g hg => ?_)
    rcases hholds g hg with ⟨hg, hne⟩ | rfl
    · refine ⟨hg, fun hrel => ?_⟩
      cases a <;> first | exact hrel.elim | obtain ⟨rfl, rfl⟩ := hrel
      · exact hsend ⟨_, rfl⟩
      · exact hne rfl
    · exact (hgrant rfl).elim

end ControlAction

open ControlAction

namespace ControlPlane

/-- **At most one host that is not dead owns a cell.** -/
def UniqueOwners (s : ControlPlane H) : Prop :=
  ∀ c g h, s.registry.Holds g c → s.registry.Holds h c → g = h

variable [DecidableEq H]

/-- A decision about a cell is sound, and no other one about the cell is pending. -/
def Orderly (s : ControlPlane H) : ControlEvent H → Prop
  | .run i ans => ∀ t ∈ s.threads[i]?, ∀ a ∈ t.todo.head?, a.Sound s.registry ans ∧
      ∀ c ∈ a.decides ans, ∀ u ∈ s.threads, ¬ Pending c u.todo
  | _ => True

/-- One owner, and one thread at most that settles a cell. -/
structure OwnerInv (s : ControlPlane H) : Prop where
  unique : s.UniqueOwners
  settles : ∀ (i : ℕ) t, s.threads[i]? = some t →
    ∀ c, Settles c (fun g => s.registry.Holds g c) t.todo
  single : ∀ (i j : ℕ) t u, s.threads[i]? = some t → s.threads[j]? = some u → i ≠ j →
    ∀ c, Pending c t.todo → ¬ Pending c u.todo

variable {s t : ControlPlane H}

omit [DecidableEq H] in
lemma OwnerInv.spawn {role : ThreadRole H} {a : ControlAction H} (hI : s.OwnerInv)
    (ha : ∀ c, ¬ a.Grants c) : (s.spawn role a).OwnerInv := by
  have hnew : ∀ c, ¬ Pending c [a] := by simpa [Pending] using ha
  refine ⟨hI.unique, fun i t ht c => ?_, fun i j t u ht hu hij c hp => ?_⟩
  · rcases thread_of_spawn s ht with ht | ⟨-, rfl⟩
    · exact hI.settles i t ht c
    · exact settles_of_not_pending (hnew c)
  rcases thread_of_spawn s hu with hu | ⟨-, rfl⟩
  · rcases thread_of_spawn s ht with ht | ⟨-, rfl⟩
    · exact hI.single i j t u ht hu hij c hp
    · exact (hnew c hp).elim
  · exact hnew c

omit [DecidableEq H] in
lemma OwnerInv.setThread {i : ℕ} {u v : Thread H} (hI : s.OwnerInv) (hi : s.threads[i]? = some u)
    (hnew : ∀ c, ¬ Pending c v.todo) : (s.setThread i v).OwnerInv := by
  refine ⟨hI.unique, fun j t ht c => ?_, fun j k t w ht hw hjk c hp => ?_⟩
  · rcases thread_of_set s hi ht with ⟨-, ht⟩ | ⟨-, rfl⟩
    · exact hI.settles j t ht c
    · exact settles_of_not_pending (hnew c)
  rcases thread_of_set s hi hw with ⟨-, hw⟩ | ⟨-, rfl⟩
  · rcases thread_of_set s hi ht with ⟨-, ht⟩ | ⟨-, rfl⟩
    · exact hI.single j k t w ht hw hjk c hp
    · exact (hnew c hp).elim
  · exact hnew c

lemma OwnerInv.run {i : ℕ} {ans : Answer H} {role : ThreadRole H} {a : ControlAction H}
    {rest todo : List (ControlAction H)} (hI : s.OwnerInv)
    (hi : s.threads[i]? = some ⟨role, a :: rest⟩) (htodo : a.next i s.registry ans = some todo)
    (hsound : a.Sound s.registry ans)
    (hfree : ∀ c ∈ a.decides ans, ∀ u ∈ s.threads, ¬ Pending c u.todo) :
    OwnerInv ⟨a.effect i s.registry, s.threads.set i ⟨role.after a, todo ++ rest⟩⟩ := by
  have hself := hI.settles i _ hi
  have hholds := fun c g => holds_effect (i := i) (s := s.registry) (a := a) (c := c) (g := g)
    (by rintro h rfl; exact hsound)
  -- what is pending afterwards was pending before, or is decided now
  have hpending : ∀ c, Pending c (todo ++ rest) → Pending c (a :: rest) ∨ c ∈ a.decides ans := by
    intro c hp
    rw [pending_cons]
    rcases pending_append.mp hp with hp | hp
    · exact (pending_next htodo hp).imp_left .inl
    · exact .inl (.inr hp)
  refine ⟨fun c g h hg hh => ?_, fun j t ht c => ?_, fun j k t w ht hw hjk c hp => ?_⟩
  · rcases hholds c g hg with ⟨hg₀, -⟩ | hag
    · rcases hholds c h hh with ⟨hh₀, -⟩ | hah
      · exact hI.unique c g h hg₀ hh₀
      · subst hah
        exact ((hself c).1 rfl).1 g hg₀
    · subst hag
      rcases hholds c h hh with ⟨hh₀, -⟩ | hah
      · exact (((hself c).1 rfl).1 h hh₀).symm
      · cases hah
        rfl
  · rcases thread_of_set s hi ht with ⟨hji, ht₀⟩ | ⟨-, rfl⟩
    · by_cases hassign : ∃ h, a = assignCell h c
      · obtain ⟨h, rfl⟩ := hassign
        exact settles_of_not_pending
          (hI.single i j _ t hi ht₀ hji.symm c (pending_cons.mpr (.inl rfl)))
      refine (hI.settles j t ht₀ c).mono fun g hg => ?_
      rcases hholds c g hg with ⟨hg₀, -⟩ | hag
      · exact hg₀
      · exact (hassign ⟨g, hag⟩).elim
    · refine settles_next (hI.unique c) hsound htodo (fun hc hp => ?_) (hself c)
      exact hfree c hc _ (mem_of_getElem? hi) (pending_cons.mpr (.inr hp))
  · rcases thread_of_set s hi ht with ⟨hji, ht₀⟩ | ⟨rfl, rfl⟩
    · rcases thread_of_set s hi hw with ⟨-, hw₀⟩ | ⟨rfl, rfl⟩
      · exact hI.single j k t w ht₀ hw₀ hjk c hp
      intro hp'
      rcases hpending c hp' with hold | hdecided
      · exact hI.single j k t _ ht₀ hi hjk c hp hold
      · exact hfree c hdecided t (mem_of_getElem? ht₀) hp
    · rcases thread_of_set s hi hw with ⟨-, hw₀⟩ | ⟨rfl, rfl⟩
      · rcases hpending c hp with hold | hdecided
        · exact hI.single j k _ w hi hw₀ hjk c hold
        · exact hfree c hdecided w (mem_of_getElem? hw₀)
      · exact (hjk rfl).elim

lemma OwnerInv.step {e : ControlEvent H} (hI : s.OwnerInv) (hK : s.Orderly e)
    (hstep : s.step e = some t) : t.OwnerInv := by
  rcases step_cases hstep
    with ⟨role, a, hstart, rfl⟩ | ⟨i, msg, g, rfl, hi, rfl⟩ | ⟨i, g, rfl, hi, rfl⟩ |
    ⟨i, ans, role, a, rest, todo, rfl, hi, htodo, rfl⟩
  · refine hI.spawn fun c hgrant => ?_
    cases e <;> cases hstart <;> exact hgrant
  · refine hI.setThread hi fun c => ?_
    cases msg <;> simp [Pending, HostMessage.actions, Grants]
  · exact hI.setThread hi fun c => by simp [Pending, Grants]
  · obtain ⟨hsound, hfree⟩ := hK _ hi a rfl
    exact hI.run hi htodo hsound hfree

/-- **Unique owners.** No run in which decisions about a cell do not overlap and rest on true facts
gives a cell to two hosts that are not dead. -/
theorem unique_owners (h₀ : s.threads = []) (hunique : s.UniqueOwners)
    (hrun : Run (Steps step) Orderly s t) : t.UniqueOwners := by
  have hI : s.OwnerInv := ⟨hunique, by simp [h₀], by simp [h₀]⟩
  exact (hrun.invariant (I := OwnerInv) hI fun hI hK hstep => hI.step hK hstep).unique

/-! ### Two hosts, one cell -/

instance (c : CellID) (a : ControlAction H) : Decidable (a.Grants c) := by
  induction a using ControlAction.casesOn <;> dsimp only [ControlAction.Grants] <;> infer_instance

instance (c : CellID) (todo : List (ControlAction H)) : Decidable (Pending c todo) :=
  decidableBEx (fun a : ControlAction H => a.Grants c) todo

instance (r : Registry H) (ans : Answer H) (a : ControlAction H) : Decidable (a.Sound r ans) := by
  induction a using ControlAction.casesOn <;> dsimp only [ControlAction.Sound] <;> infer_instance

instance (e : ControlEvent H) : Decidable (s.Orderly e) := by
  induction e using ControlEvent.casesOn <;> dsimp only [Orderly] <;> infer_instance

def rebalanceUpTo (thread : ℕ) (c : CellID) (h : H) (existing : Option H) :
    List (ControlEvent H) :=
  [.rebalance, .run thread {}, .run thread {}, .run thread { assignments := [(c, h)] },
    .run thread { owner := existing }]

def theCell : CellID := ⟨0, 0, 0⟩

/-- The cell goes to the first host, and to the second one when it has registered; the first host
then reports the cell as ready once more, and is told to release it. -/
theorem unique_owners_moved : ∃ t : ControlPlane Bool,
    Run (Steps step) Orderly (start [theCell]) t ∧ t.registry.Holds true theCell ∧
      t.UniqueOwners := by
  obtain ⟨t, hrun, ht⟩ := exists_run (s := start [theCell]) step Orderly
    (fun t : ControlPlane Bool => t.registry.Holds true theCell)
    (registration 0 false ++ rebalanceUpTo 1 theCell false none ++ [.run 1 {}, .run 1 {}] ++
      registration 2 true ++ rebalanceUpTo 3 theCell true (some false) ++
      replicate 4 (.run 3 {}) ++
      [.message 0 (.cellReady theCell), .run 0 { owner := some true }, .run 0 {}, .run 0 {},
        .run 0 {}])
    (by decide +kernel)
  exact ⟨t, hrun, ht,
    unique_owners rfl (fun c g h hg => by simp [start, Registry.Holds] at hg) hrun⟩

/-- Two rebalances find the cell without an owner, and give it to different hosts. -/
theorem unique_owners_overlap : ∃ t : ControlPlane Bool,
    Run (Steps step) Always (start [theCell]) t ∧ ¬ t.UniqueOwners := by
  obtain ⟨t, hrun, hfirst, hsecond⟩ := exists_run (s := start [theCell]) step Always
    (fun t : ControlPlane Bool => t.registry.Holds false theCell ∧ t.registry.Holds true theCell)
    (registration 0 false ++ rebalanceUpTo 1 theCell false none ++
      registration 2 true ++ rebalanceUpTo 3 theCell true none ++
      [.run 3 {}, .run 3 {}, .run 1 {}, .run 1 {}])
    (by decide +kernel)
  exact ⟨t, hrun, fun hunique => by cases hunique theCell false true hfirst hsecond⟩

end ControlPlane

end Mmokit
