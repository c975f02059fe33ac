/-
A cell of the tiling is not lost to the coordinator.

A rebalance gives a host to every cell that `AllOwnedCells` lists: the cells that some entry of the
registry owns, be the host dead or not, and the cells of the coordinator's map. Only if there are
none does it go by the configured grid. So a cell that is neither owned nor in the map is found
again only if that holds of all cells.

A cell is *recorded* if `AllOwnedCells` lists it, and *promised* if a thread is about to give it to
a host.
-/
import Mathlib
import Mmokit.Universe.ControlThreads

namespace Mmokit

open Function List ControlAction TransferPlan

variable {H : Type*}

namespace Registry

variable (s : Registry H)

def Recorded (c : CellID) : Prop :=
  (∃ h ∈ s.ownership.hosts, c ∈ s.ownership.ownedCells h) ∨ (s.ownership.cellToHostMap c).isSome

/-- `AllOwnedCells` lists the cell even without the entry of this host. -/
def RecordedBeside (h : H) (c : CellID) : Prop :=
  (∃ g ∈ s.ownership.hosts, g ≠ h ∧ c ∈ s.ownership.ownedCells g) ∨
    (s.ownership.cellToHostMap c).isSome

def Cold : Prop :=
  (∀ h ∈ s.ownership.hosts, s.ownership.ownedCells h = []) ∧
    ∀ c ∈ s.topology, s.ownership.cellToHostMap c = none

variable {s}

lemma Recorded.mem_enumerateCells [DecidableEq H] {c : CellID} (hc : s.Recorded c)
    (hmem : c ∈ s.topology) : c ∈ s.enumerateCells s.ownedCells := by
  have hcells : c ∈ s.ownedCells ++ s.topology.filter
      fun c => (s.ownership.cellToHostMap c).isSome := by
    rcases hc with ⟨h, hh, hc⟩ | hc
    · exact mem_append_left _ (mem_flatMap.mpr ⟨h, hh, hc⟩)
    · exact mem_append_right _ (mem_filter.mpr ⟨hmem, hc⟩)
  unfold enumerateCells
  rw [if_neg (ne_nil_of_mem hcells)]
  exact hcells

lemma Cold.enumerateCells [DecidableEq H] (hcold : s.Cold) :
    s.enumerateCells s.ownedCells = s.grid := by
  have howned : s.ownedCells = [] := flatMap_eq_nil_iff.mpr hcold.1
  have hmapped : s.topology.filter (fun c => (s.ownership.cellToHostMap c).isSome) = [] :=
    filter_eq_nil_iff.mpr fun c hc => by simp [hcold.2 c hc]
  simp [Registry.enumerateCells, howned, hmapped]

end Registry

namespace ControlAction

/-- The action gives the cell to a host, or is about to. -/
def Promises (c : CellID) : ControlAction H → Prop
  | place c' _ | dispatchAssign _ c' | assignCell _ c' => c' = c
  | _ => False

end ControlAction

def Promised (threads : List (Thread H)) (c : CellID) : Prop :=
  ∃ t ∈ threads, ∃ a ∈ t.todo, a.Promises c

section Promised

variable {threads : List (Thread H)} {i : ℕ} {role role' : ThreadRole H}
  {a : ControlAction H} {rest todo : List (ControlAction H)} {c : CellID}

lemma promised_set {u v : Thread H} (hi : threads[i]? = some u) :
    Promised (threads.set i v) c ↔ (∃ a ∈ v.todo, a.Promises c) ∨
      ∃ j, j ≠ i ∧ ∃ t ∈ threads[j]?, ∃ a ∈ t.todo, a.Promises c := by
  have hlt : i < threads.length := (List.getElem?_eq_some_iff.mp hi).1
  constructor
  · rintro ⟨t, ht, hp⟩
    obtain ⟨j, hj⟩ := mem_iff_getElem?.mp ht
    by_cases hij : i = j
    · subst hij
      rw [getElem?_set_self hlt] at hj
      cases hj
      exact .inl hp
    · rw [getElem?_set_ne hij] at hj
      exact .inr ⟨j, Ne.symm hij, t, hj, hp⟩
  · rintro (hp | ⟨j, hji, t, ht, hp⟩)
    · exact ⟨v, mem_iff_getElem?.mpr ⟨i, getElem?_set_self hlt⟩, hp⟩
    · refine ⟨t, mem_iff_getElem?.mpr ⟨j, ?_⟩, hp⟩
      rw [getElem?_set_ne hji.symm]
      exact ht

lemma Promised.of_rest (hi : threads[i]? = some ⟨role, a :: rest⟩)
    (h : Promised (threads.set i ⟨role, rest⟩) c) :
    Promised (threads.set i ⟨role', todo ++ rest⟩) c := by
  rw [promised_set hi] at h ⊢
  refine h.imp_left ?_
  rintro ⟨b, hb, hp⟩
  exact ⟨b, mem_append_right _ hb, hp⟩

lemma promised_todo (hi : threads[i]? = some ⟨role, a :: rest⟩) {b : ControlAction H}
    (hb : b ∈ todo) (hp : b.Promises c) : Promised (threads.set i ⟨role', todo ++ rest⟩) c :=
  (promised_set hi).mpr (.inl ⟨b, mem_append_left _ hb, hp⟩)

lemma Promised.beside (hi : threads[i]? = some ⟨role, a :: rest⟩) (h : Promised threads c) :
    a.Promises c ∨ Promised (threads.set i ⟨role, rest⟩) c := by
  rw [promised_set hi]
  obtain ⟨t, ht, b, hb, hp⟩ := h
  obtain ⟨j, hj⟩ := mem_iff_getElem?.mp ht
  by_cases hij : j = i
  · subst hij
    obtain rfl := Option.some.inj (hj.symm.trans hi)
    rcases mem_cons.mp hb with rfl | hb
    · exact .inl hp
    · exact .inr (.inl ⟨b, hb, hp⟩)
  · exact .inr (.inr ⟨j, hij, t, hj, b, hb, hp⟩)

lemma Promised.of_idle {v : Thread H} (hi : threads[i]? = some ⟨role, []⟩)
    (h : Promised threads c) : Promised (threads.set i v) c := by
  rw [promised_set hi]
  obtain ⟨t, ht, b, hb, hp⟩ := h
  obtain ⟨j, hj⟩ := mem_iff_getElem?.mp ht
  by_cases hij : j = i
  · subst hij
    obtain rfl := Option.some.inj (hj.symm.trans hi)
    cases hb
  · exact .inr ⟨j, hij, t, hj, b, hb, hp⟩

end Promised

section Records

variable [DecidableEq H] {i : ℕ} {s : Registry H} {ans : Answer H}
  {a : ControlAction H} {c : CellID}

namespace ControlAction

def drops (c : CellID) : ControlAction H → Option H
  | register h _ | remove h => some h
  | releaseCell h c' => if c' = c then some h else none
  | _ => none

lemma recorded_setState {h : H} {state : RemoteHostState} :
    (s.setState h state).Recorded c ↔ s.Recorded c := by
  unfold Registry.setState
  split <;> rfl

lemma recorded_effect (ha : ∀ plan, a ≠ commit plan)
    (hc : ∀ h ∈ a.drops c, s.RecordedBeside h c) (hr : s.Recorded c) :
    (a.effect i s).Recorded c := by
  cases a with
  | commit plan => exact (ha plan rfl).elim
  | register h serviceOnly =>
    rcases hc h rfl with ⟨g, hg, hgh, hcell⟩ | hmap
    · exact .inl ⟨g, by simp [effect, Registry.register, hg, hgh],
        by simpa [effect, Registry.register, update_of_ne hgh] using hcell⟩
    · exact .inr hmap
  | remove h =>
    rcases hc h rfl with ⟨g, hg, hgh, hcell⟩ | hmap
    · exact .inl ⟨g, by simp [effect, Registry.remove, hg, hgh],
        by simpa [effect, Registry.remove, update_of_ne hgh] using hcell⟩
    · exact .inr hmap
  | releaseCell h c' =>
    by_cases hcc : c' = c
    · rcases hc h (by simp [drops, hcc]) with ⟨g, hg, hgh, hcell⟩ | hmap
      · refine .inl ⟨g, hg, ?_⟩
        simpa [effect, Registry.releaseCell, Ownership.releaseCell, update_of_ne hgh]
          using hcell
      · exact .inr hmap
    · rcases hr with ⟨g, hg, hcell⟩ | hmap
      · refine .inl ⟨g, hg, ?_⟩
        by_cases hgh : g = h
        · subst hgh
          simpa [effect, Registry.releaseCell, Ownership.releaseCell, hcell] using Ne.symm hcc
        · simpa [effect, Registry.releaseCell, Ownership.releaseCell, update_of_ne hgh]
            using hcell
      · exact .inr hmap
  | assignCell h c' =>
    simp only [effect, Registry.assignCell, Ownership.assignCell]
    split
    · rcases hr with ⟨g, hg, hcell⟩ | hmap
      · refine .inl ⟨g, hg, ?_⟩
        by_cases hgh : g = h
        · subst hgh
          by_cases hcc : c = c' <;> simp [hcc, hcell]
        · simpa [update_of_ne hgh] using hcell
      · exact .inr hmap
    · exact hr
  | touch h =>
    simp only [effect, Registry.touch]
    split
    · exact recorded_setState.mpr hr
    · exact hr
  | markDead h | markLeaving h => exact recorded_setState.mpr hr
  | releaseStream h =>
    simp only [effect]
    split <;> exact hr
  | _ => exact hr

omit [DecidableEq H] in
lemma cellToHostMap_applyMutation {o : Ownership H} {m : TopologyMutation H}
    (h : c ∈ m.add.map Prod.fst ∨ c ∉ m.remove ∧ (o.cellToHostMap c).isSome) :
    ((o.applyMutation m).cellToHostMap c).isSome := by
  unfold Ownership.applyMutation
  cases hadd : m.add.lookup c with
  | some g => simp [hadd]
  | none =>
    rcases h with hmem | ⟨hremove, hmap⟩
    · obtain ⟨x, hx, rfl⟩ := mem_map.mp hmem
      have := lookup_eq_none_iff.mp hadd x hx
      simp at this
    · simpa [hadd, hremove] using hmap

lemma mem_updateTopology {plan : TransferPlan H} {topology : List CellID}
    (hc : c ∈ Orchestrator.updateTopology topology plan.request) :
    c ∈ plan.request.mutation.add.map Prod.fst ∨ c ∉ plan.request.mutation.remove ∧
      c ∈ topology := by
  cases plan with
  | split parent srcHost host₀ host₁ host₂ host₃ =>
    rcases mem_append.mp hc with hc | hc
    · have hc' := mem_filter.mp hc
      exact .inr ⟨by simpa [request, CellTransferRequest.split] using hc'.2, hc'.1⟩
    · exact .inl (by simpa [request, CellTransferRequest.split, CellID.children] using hc)
  | merge parent host₀ host₁ host₂ host₃ choice =>
    rcases mem_append.mp hc with hc | hc
    · have hc' := mem_filter.mp hc
      exact .inr ⟨by simpa [request, CellTransferRequest.merge] using hc'.2, hc'.1⟩
    · exact .inl (by simpa [request, CellTransferRequest.merge] using hc)
  | migrate cell srcHost destHost =>
    exact .inr ⟨by simp [request, CellTransferRequest.migrate], hc⟩

lemma recorded_coordMutation {plan : TransferPlan H}
    (hc : c ∈ (s.coordMutation plan.request).topology) :
    (s.coordMutation plan.request).Recorded c ∨
      c ∈ s.topology ∧ (s.Recorded c → (s.coordMutation plan.request).Recorded c) := by
  rcases mem_updateTopology hc with hadd | ⟨hremove, hmem⟩
  · exact .inl (.inr (cellToHostMap_applyMutation (.inl hadd)))
  · refine .inr ⟨hmem, fun hr => hr.imp id fun hmap => ?_⟩
    exact cellToHostMap_applyMutation (.inr ⟨hremove, hmap⟩)

/-- The actions that drop no last record of a cell of the tiling:

* an entry is replaced or removed, and a cell released, only if each cell is recorded or promised
  elsewhere;
* an assignment reaches its host, and the host is still registered;
* the first record of all is made by a pass that goes through the whole tiling. -/
def Spares (s : Registry H) (ans : Answer H) (promised : CellID → Prop) :
    ControlAction H → Prop
  | register h _ | remove h =>
    ∀ c ∈ s.ownership.ownedCells h, c ∈ s.topology → s.RecordedBeside h c ∨ promised c
  | releaseCell h c =>
    c ∈ s.ownership.ownedCells h → c ∈ s.topology → s.RecordedBeside h c ∨ promised c
  | dispatchAssign _ c => ans.sent = true ∨ (c ∈ s.topology → s.Recorded c ∨ promised c)
  | assignCell h c =>
    (h ∈ s.ownership.hosts ∨ (c ∈ s.topology → s.Recorded c ∨ promised c)) ∧
      (s.Cold → ∀ c' ∈ s.topology, c' = c ∨ promised c')
  | commit _ => ¬ s.Cold
  | _ => True

lemma next_promises {todo : List (ControlAction H)} {promised : CellID → Prop}
    (hspare : a.Spares s ans promised) (ha : a.next i s ans = some todo) (hp : a.Promises c)
    (hc : c ∈ s.topology) : (a.effect i s).Recorded c ∨ promised c ∨ ∃ b ∈ todo, b.Promises c := by
  cases a with
  | place c' h =>
    obtain rfl : c' = c := hp
    simp only [next] at ha
    split at ha
    · rename_i hanswer
      split at ha <;> rename_i howner
      · rw [howner] at hanswer
        split at ha <;> cases ha
        · exact .inl (.inl ⟨_, hanswer⟩)
        · exact .inr (.inr ⟨dispatchAssign h c', by simp, rfl⟩)
      · cases ha
        exact .inr (.inr ⟨dispatchAssign h c', by simp, rfl⟩)
    · cases ha
  | dispatchAssign h c' =>
    obtain rfl : c' = c := hp
    simp only [next] at ha
    split at ha
    · split at ha <;> cases ha
      exact .inr (.inr ⟨assignCell h c', by simp, rfl⟩)
    · rename_i hsent
      exact ((hspare.resolve_left hsent) hc).imp_right .inl
  | assignCell h c' =>
    obtain rfl : c' = c := hp
    by_cases hh : h ∈ s.ownership.hosts
    · refine .inl (.inl ⟨h, ?_, ?_⟩)
      · simp [effect, Registry.assignCell, Ownership.assignCell, hh]
      · simp [effect, Registry.assignCell, Ownership.assignCell, hh]
    · rcases (hspare.1.resolve_left hh) hc with hr | hpr
      · exact .inl (recorded_effect (by simp) (by simp [drops]) hr)
      · exact .inr (.inl hpr)
  | _ => exact hp.elim

lemma cold_effect (hcold : s.Cold) (ha : ∀ plan, a ≠ commit plan)
    (hassign : ∀ h c, a = assignCell h c → h ∉ s.ownership.hosts) : (a.effect i s).Cold := by
  cases a with
  | commit plan => exact (ha plan rfl).elim
  | assignCell h c =>
    have hh := hassign h c rfl
    simpa [effect, Registry.Cold, Registry.assignCell, Ownership.assignCell, hh] using hcold
  | register h serviceOnly | remove h =>
    refine ⟨fun g hg => ?_, hcold.2⟩
    by_cases hgh : g = h
    · simp [effect, Registry.register, Registry.remove, hgh]
    · simp only [effect, Registry.register, Registry.remove] at hg ⊢
      rw [update_of_ne hgh]
      exact hcold.1 g (by simpa [hgh] using hg)
  | releaseCell h c =>
    refine ⟨fun g hg => ?_, hcold.2⟩
    by_cases hgh : g = h
    · subst hgh
      simp [effect, Registry.releaseCell, Ownership.releaseCell, hcold.1 g hg]
    · simp only [effect, Registry.releaseCell, Ownership.releaseCell]
      rw [update_of_ne hgh]
      exact hcold.1 g hg
  | touch h =>
    simp only [effect, Registry.touch, Registry.setState]
    repeat' split
    all_goals exact hcold
  | markDead h | markLeaving h =>
    simp only [effect, Registry.markDead, Registry.markLeaving, Registry.setState]
    split <;> exact hcold
  | releaseStream h =>
    simp only [effect]
    split <;> exact hcold
  | _ => exact hcold

lemma effect_topology (ha : ∀ plan, a ≠ commit plan) :
    (a.effect i s).topology = s.topology ∧ (a.effect i s).grid = s.grid := by
  cases a with
  | commit plan => exact (ha plan rfl).elim
  | touch h =>
    simp only [effect, Registry.touch, Registry.setState]
    repeat' split
    all_goals exact ⟨rfl, rfl⟩
  | markDead h | markLeaving h =>
    simp only [effect, Registry.markDead, Registry.markLeaving, Registry.setState]
    split <;> exact ⟨rfl, rfl⟩
  | releaseStream h =>
    simp only [effect]
    split <;> exact ⟨rfl, rfl⟩
  | _ => exact ⟨rfl, rfl⟩

lemma recorded_of_spares {promised : CellID → Prop} (hspare : a.Spares s ans promised)
    (ha : ∀ plan, a ≠ commit plan) (hr : s.Recorded c) (hc : c ∈ s.topology) :
    (a.effect i s).Recorded c ∨ promised c := by
  by_cases hkept : ∀ h ∈ a.drops c, s.RecordedBeside h c
  · exact .inl (recorded_effect ha hkept hr)
  push Not at hkept
  obtain ⟨h, hdrop, hbeside⟩ := hkept
  -- the cell is recorded by this entry only
  have hcell : c ∈ s.ownership.ownedCells h := by
    rcases hr with ⟨g, hg, hcell⟩ | hmap
    · by_cases hgh : g = h
      · exact hgh ▸ hcell
      · exact (hbeside (.inl ⟨g, hg, hgh, hcell⟩)).elim
    · exact (hbeside (.inr hmap)).elim
  refine .inr (Or.resolve_left ?_ hbeside)
  cases a <;> simp only [drops] at hdrop
  case register h' _ =>
    obtain rfl : h' = h := Option.some.inj hdrop
    exact hspare c hcell hc
  case remove h' =>
    obtain rfl : h' = h := Option.some.inj hdrop
    exact hspare c hcell hc
  case releaseCell h' c' =>
    split at hdrop
    · rename_i hcc
      subst hcc
      obtain rfl : h' = h := Option.some.inj hdrop
      exact hspare hcell hc
    · cases hdrop
  all_goals cases hdrop

end ControlAction

end Records

namespace ControlPlane

/-- Every cell of the tiling is recorded or promised, or nothing is recorded and the tiling is part
of the grid. -/
def Covered (s : ControlPlane H) : Prop :=
  s.registry.Cold ∧ (∀ c ∈ s.registry.topology, c ∈ s.registry.grid) ∨
    ∀ c ∈ s.registry.topology, s.registry.Recorded c ∨ Promised s.threads c

variable [DecidableEq H]

/-- No step drops the last record of a cell of the tiling. -/
def Careful (s : ControlPlane H) : ControlEvent H → Prop
  | .run i ans => ∀ t ∈ s.threads[i]?, ∀ a ∈ t.todo.head?,
      a.Spares s.registry ans (Promised (s.threads.set i ⟨t.role, t.todo.tail⟩))
  | _ => True

variable {s t : ControlPlane H}

lemma Covered.run {i : ℕ} {ans : Answer H} {role : ThreadRole H} {a : ControlAction H}
    {rest todo : List (ControlAction H)} (hcov : s.Covered)
    (hi : s.threads[i]? = some ⟨role, a :: rest⟩) (htodo : a.next i s.registry ans = some todo)
    (hspare : a.Spares s.registry ans (Promised (s.threads.set i ⟨role, rest⟩))) :
    Covered ⟨a.effect i s.registry, s.threads.set i ⟨role.after a, todo ++ rest⟩⟩ := by
  by_cases hcommit : ∃ plan, a = .commit plan
  · obtain ⟨plan, rfl⟩ := hcommit
    refine .inr fun c hc => ?_
    rcases hcov with ⟨hcold, -⟩ | hwarm
    · exact (hspare hcold).elim
    rcases recorded_coordMutation hc with hr | ⟨hmem, hkeep⟩
    · exact .inl hr
    rcases hwarm c hmem with hr | hp
    · exact .inl (hkeep hr)
    · rcases hp.beside hi with hp | hp
      · exact hp.elim
      · exact .inr (hp.of_rest hi)
  · have ha : ∀ plan, a ≠ .commit plan := fun plan h => hcommit ⟨plan, h⟩
    have htiling := effect_topology (i := i) (s := s.registry) ha
    unfold Covered
    simp only [htiling.1, htiling.2]
    rcases hcov with ⟨hcold, hgrid⟩ | hwarm
    · by_cases hassign : ∃ h c, a = .assignCell h c ∧ h ∈ s.registry.ownership.hosts
      · -- the first record of all
        obtain ⟨h, c, rfl, hh⟩ := hassign
        refine .inr fun c' hc' => ?_
        rcases hspare.2 hcold c' hc' with rfl | hp
        · refine .inl (.inl ⟨h, ?_, ?_⟩)
          · simp [effect, Registry.assignCell, Ownership.assignCell, hh]
          · simp [effect, Registry.assignCell, Ownership.assignCell, hh]
        · exact .inr (hp.of_rest hi)
      · refine .inl ⟨cold_effect hcold ha fun h c hac hh => ?_, hgrid⟩
        exact hassign ⟨h, c, hac, hh⟩
    · refine .inr fun c hc => ?_
      rcases hwarm c hc with hr | hp
      · exact (recorded_of_spares hspare ha hr hc).imp_right (Promised.of_rest hi)
      rcases hp.beside hi with hp | hp
      · rcases next_promises hspare htodo hp hc with hr | hp | ⟨b, hb, hp⟩
        · exact .inl hr
        · exact .inr (hp.of_rest hi)
        · exact .inr (promised_todo hi hb hp)
      · exact .inr (hp.of_rest hi)

lemma Covered.step {e : ControlEvent H} (hcov : s.Covered) (hK : s.Careful e)
    (hstep : s.step e = some t) : t.Covered := by
  rcases step_cases hstep
    with ⟨role, a, -, rfl⟩ | ⟨i, msg, g, rfl, hi, rfl⟩ | ⟨i, g, rfl, hi, rfl⟩ |
    ⟨i, ans, role, a, rest, todo, rfl, hi, htodo, rfl⟩
  · refine hcov.imp_right fun hwarm c hc => (hwarm c hc).imp_right ?_
    rintro ⟨u, hu, hp⟩
    exact ⟨u, mem_append_left _ hu, hp⟩
  · exact hcov.imp_right fun hwarm c hc => (hwarm c hc).imp_right fun hp => hp.of_idle hi
  · exact hcov.imp_right fun hwarm c hc => (hwarm c hc).imp_right fun hp => hp.of_idle hi
  · exact hcov.run hi htodo (hK _ hi a rfl)

section Quiet

variable (s)

def Idle : Prop := ∀ t ∈ s.threads, t.todo = []

/-- The next rebalance has a host to give cells to, and goes through this cell. -/
def PickedUp (c : CellID) : Prop :=
  s.registry.assignableHosts ≠ [] ∧ c ∈ s.registry.enumerateCells s.registry.ownedCells

end Quiet

/-- A rebalance places the cells that it picks up. -/
lemma PickedUp.places {c : CellID} {i : ℕ} {ans : Answer H} {todo : List (ControlAction H)}
    (hc : s.PickedUp c)
    (hnext : (ControlAction.enumerateCells s.registry.assignableHosts s.registry.ownedCells).next i
      s.registry ans = some todo) :
    ∃ h ∈ s.registry.assignableHosts, .place c h ∈ todo := by
  simp only [ControlAction.next] at hnext
  split at hnext
  · rename_i hspread
    cases hnext
    have hmem : c ∈ ans.assignments.map Prod.fst :=
      (isPerm_iff.mp hspread.1).mem_iff.mpr (mem_dedup.mpr hc.2)
    obtain ⟨x, hx, rfl⟩ := mem_map.mp hmem
    exact ⟨x.2, hspread.2 x hx, mem_map.mpr ⟨x, hx, rfl⟩⟩
  · cases hnext

lemma Covered.pickedUp {c : CellID} (hcov : s.Covered) (hidle : s.Idle)
    (hlive : s.registry.liveHosts ≠ []) (hc : c ∈ s.registry.topology) : s.PickedUp c := by
  have hhosts : s.registry.assignableHosts ≠ [] := by
    obtain ⟨h, hh⟩ := exists_mem_of_ne_nil _ hlive
    have hh' := mem_filter.mp hh
    refine ne_nil_of_mem (a := h) (mem_filter.mpr ⟨hh'.1, ?_⟩)
    simp only [Bool.and_eq_true, decide_eq_true_eq] at hh'
    simp [hh'.2.1, hh'.2.2]
  refine ⟨hhosts, ?_⟩
  rcases hcov with ⟨hcold, hgrid⟩ | hwarm
  · rw [hcold.enumerateCells]
    exact hgrid c hc
  · rcases hwarm c hc with hr | ⟨t, ht, a, ha, -⟩
    · exact hr.mem_enumerateCells hc
    · simp [hidle t ht] at ha

/-- **No cell is orphaned for good**, in careful runs: where nothing is in flight and some live host
bears cells, each cell of the tiling has an owner that is not dead, or is picked up by the next
rebalance. -/
theorem not_orphaned (h₀ : s.Covered) (hrun : Run (Steps step) Careful s t) (hidle : t.Idle)
    (hlive : t.registry.liveHosts ≠ []) :
    ∀ c ∈ t.registry.topology, (∃ h, t.registry.Holds h c) ∨ t.PickedUp c := by
  intro c hc
  have hcov : t.Covered := hrun.invariant (I := Covered) h₀ fun hI hK hstep => hI.step hK hstep
  exact .inr (hcov.pickedUp hidle hlive hc)

/-! ### Runs with two cells -/

instance (r : Registry H) (c : CellID) : Decidable (r.Recorded c) :=
  inferInstanceAs (Decidable (_ ∨ _))

instance (r : Registry H) (h : H) (c : CellID) : Decidable (r.RecordedBeside h c) :=
  inferInstanceAs (Decidable (_ ∨ _))

instance (r : Registry H) : Decidable r.Cold := inferInstanceAs (Decidable (_ ∧ _))

instance (c : CellID) (a : ControlAction H) : Decidable (a.Promises c) := by
  induction a using ControlAction.casesOn <;> dsimp only [ControlAction.Promises] <;> infer_instance

instance (threads : List (Thread H)) (c : CellID) : Decidable (Promised threads c) :=
  inferInstanceAs (Decidable (∃ _ ∈ _, _))

instance (r : Registry H) (ans : Answer H) (promised : CellID → Prop) [DecidablePred promised]
    (a : ControlAction H) : Decidable (a.Spares r ans promised) := by
  induction a using ControlAction.casesOn <;> dsimp only [ControlAction.Spares] <;> infer_instance

instance (e : ControlEvent H) : Decidable (s.Careful e) := by
  induction e using ControlEvent.casesOn <;> dsimp only [Careful] <;> infer_instance

instance : Decidable s.Idle := inferInstanceAs (Decidable (∀ _ ∈ _, _))

instance (c : CellID) : Decidable (s.PickedUp c) := inferInstanceAs (Decidable (_ ∧ _))

def arrival (thread : ℕ) (h : H) : List (ControlEvent H) :=
  registration thread h ++ [.message thread .heartbeat, .run thread {}]

def twoCells : List CellID := [⟨0, 0, 0⟩, ⟨1, 0, 0⟩]

def firstRebalance (thread : ℕ) (h : H) : List (ControlEvent H) :=
  [.rebalance, .run thread {}, .run thread {},
    .run thread { assignments := [(⟨0, 0, 0⟩, h), (⟨1, 0, 0⟩, h)] },
    .run thread {}, .run thread {}, .run thread {}, .run thread {}]

/-- The only host gets both cells and dies while no other host is there; the next host that comes
will get them. -/
theorem not_orphaned_crash : ∃ t : ControlPlane Bool,
    Run (Steps step) Careful (start twoCells) t ∧
    (t.Idle ∧ t.registry.liveHosts ≠ [] ∧ t.registry.topology = twoCells ∧
      ¬ t.registry.Holds false ⟨0, 0, 0⟩) ∧
    ∀ c ∈ t.registry.topology, (∃ h, t.registry.Holds h c) ∨ t.PickedUp c := by
  obtain ⟨t, hrun, ht⟩ := exists_run (s := start twoCells) step Careful
    (fun t : ControlPlane Bool => t.Idle ∧ t.registry.liveHosts ≠ [] ∧
      t.registry.topology = twoCells ∧ ¬ t.registry.Holds false ⟨0, 0, 0⟩)
    (arrival 0 false ++ firstRebalance 1 false ++ [.run 1 {}, .run 1 {}] ++
      [.close 0, .run 0 {}, .run 0 {}, .run 0 {}, .run 0 {}] ++ arrival 2 true)
    (by decide +kernel)
  refine ⟨t, hrun, ht,
    not_orphaned (.inl ⟨⟨by simp [start], by simp [start]⟩, ?_⟩) hrun ht.1 ht.2.1⟩
  exact fun c hc => hc

/-- In the first rebalance the assignment of the second cell fails. From then on the first cell is
recorded, so that the second one is in no list. -/
theorem failed_dispatch_orphans : ∃ t : ControlPlane Bool,
    Run (Steps step) Always (start twoCells) t ∧ t.Idle ∧ t.registry.liveHosts ≠ [] ∧
    ⟨1, 0, 0⟩ ∈ t.registry.topology ∧ (∀ h, ¬ t.registry.Holds h ⟨1, 0, 0⟩) ∧
    ¬ t.PickedUp ⟨1, 0, 0⟩ := by
  obtain ⟨t, hrun, hidle, hlive, hmem, hfalse, htrue, hnot⟩ :=
    exists_run (s := start twoCells) step Always
      (fun t : ControlPlane Bool => t.Idle ∧ t.registry.liveHosts ≠ [] ∧
        ⟨1, 0, 0⟩ ∈ t.registry.topology ∧ ¬ t.registry.Holds false ⟨1, 0, 0⟩ ∧
        ¬ t.registry.Holds true ⟨1, 0, 0⟩ ∧ ¬ t.PickedUp ⟨1, 0, 0⟩)
      (arrival 0 false ++ firstRebalance 1 false ++ [.run 1 { sent := false }])
      (by decide +kernel)
  exact ⟨t, hrun, hidle, hlive, hmem, Bool.forall_bool.mpr ⟨hfalse, htrue⟩, hnot⟩

end ControlPlane

end Mmokit
