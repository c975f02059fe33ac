/-
Upkeep of the topology by ownership changes (`rebuildTopologyForCell` in
`pkg/universe/control_plane.go`).

The coordinator is told of each cell that is assigned or released, and then repairs the neighbour
map around that cell: a cell without an owner is deleted, a cell with an owner is inserted, and in
both cases `rebuildNeighborsFor` is to recompute the cell and its neighbours. But the neighbours
are read from the cell's own row, and that row has just been deleted, or inserted empty. So the
neighbours keep their rows: after a release they still list the cell, and after an assignment they
do not list it yet.
-/
import Mmokit.Universe.Topology

namespace Mmokit

open AdjacencyMap Ownership

open CellID (areAdjacent)

/-- Does `OwnerOf` find an owner of the cell, in the registry or in the map? -/
def Ownership.owned {H : Type*} [DecidableEq H] (o : Ownership H) (c : CellID) :
    Bool :=
  o.ownersOf c ≠ [] || (o.cellToHostMap c).isSome

structure ControlTopology (H : Type*) where
  ownership : Ownership H
  topology : Topology

inductive OwnershipChange (H : Type*)
  | assignCell (host : H) (cell : CellID)
  | releaseCell (host : H) (cell : CellID)
deriving DecidableEq

namespace ControlTopology

variable {H : Type*} [DecidableEq H] {K : Type*} [Field K] [LinearOrder K]

def rebuildTopologyForCell (base : K) (s : ControlTopology H) (cid : CellID) :
    ControlTopology H :=
  let neighbors :=
    if s.ownership.owned cid then
      if cid ∈ s.topology.neighbors then s.topology.neighbors
        else s.topology.neighbors.insert cid []
    else s.topology.neighbors.erase cid
  { s with topology := Topology.rebuildNeighborsFor ⟨neighbors⟩ [cid] base }

def step (base : K) (s : ControlTopology H) :
    OwnershipChange H → Option (ControlTopology H)
  | .assignCell h c =>
    if h ∈ s.ownership.hosts then
      some (rebuildTopologyForCell base { s with ownership := s.ownership.assignCell h c } c)
    else some s
  | .releaseCell h c =>
    some (rebuildTopologyForCell base { s with ownership := s.ownership.releaseCell h c } c)

def ownedCells (s : ControlTopology H) : Set CellID := {c | s.ownership.owned c = true}

def Symmetric (s : ControlTopology H) : Prop :=
  ∀ a b, b ∈ s.topology.neighbors.row a ↔ a ∈ s.topology.neighbors.row b

/-- The neighbour map is the one that `computeTopology` gives for the owned cells. -/
def Complete (base : K) (s : ControlTopology H) : Prop :=
  ∃ cells : List CellID, (∀ c, c ∈ cells ↔ c ∈ s.ownedCells) ∧
    AdjacencyMap.SameRows s.topology.neighbors
      (Topology.computeTopology cells base).neighbors

variable {base : K} {s s' : ControlTopology H} {cid : CellID}

lemma complete_iff : Complete base s ↔ s.topology.Represents s.ownedCells base := by
  constructor
  · rintro ⟨cells, hcells, hsame⟩
    have hfull := Topology.represents_computeTopology cells base
    have hset : {c | c ∈ cells} = s.ownedCells := Set.ext hcells
    rw [hset] at hfull
    exact AdjacencyMap.Represents.of_sameRows hfull hsame
  · intro h
    have hcells : ∀ c, c ∈ s.topology.allCells ↔ c ∈ s.ownedCells :=
      fun c => AList.mem_keys.symm.trans (h.mem_iff c)
    have hset : {c | c ∈ s.topology.allCells} = s.ownedCells := Set.ext hcells
    refine ⟨s.topology.allCells, hcells, AdjacencyMap.Represents.sameRows h ?_⟩
    exact hset ▸ Topology.represents_computeTopology s.topology.allCells base

variable {cells : Set CellID}

omit [DecidableEq H] in
lemma symmetric_of_represents (h : s.topology.Represents cells base) : Symmetric s := by
  intro a b
  rw [h.row_iff, h.row_iff, Topology.areAdjacent_comm]
  tauto

variable {t : Topology}

lemma rebuildNeighborsFor_of_empty (hrow : t.neighbors.row cid = []) :
    (t.rebuildNeighborsFor [cid] base).neighbors =
      Topology.rebuildRow t.allCells base t.neighbors cid := by
  simp [Topology.rebuildNeighborsFor, hrow]

lemma represents_insert_iff (h : t.Represents cells base) (hcid : cid ∉ cells) :
    (Topology.rebuildNeighborsFor ⟨t.neighbors.insert cid []⟩ [cid] base).Represents
        (insert cid cells) base ↔
      ∀ d ∈ cells, areAdjacent cid d base = false := by
  have hmem : cid ∈ t.neighbors.insert cid [] := by simp
  have hkeys : ∀ c, c ∈ (t.neighbors.insert cid []).keys ↔ c ∈ insert cid cells := by
    intro c
    rw [← AList.mem_keys, AList.mem_insert, h.mem_iff]
    rfl
  have heq : (Topology.rebuildNeighborsFor ⟨t.neighbors.insert cid []⟩ [cid]
      base).neighbors = _ := rebuildNeighborsFor_of_empty (row_insert_self [])
  unfold Topology.rebuildRow Topology.allCells at heq
  rw [if_pos hmem] at heq
  unfold Topology.Represents
  rw [heq]
  constructor
  · -- a neighbour that was there before does not list the new cell
    intro hrep d hd
    by_contra hadj
    have hdc : d ≠ cid := by
      rintro rfl
      exact hcid hd
    have hrow := (hrep.row_iff d cid).mpr ⟨.inr hd, .inl rfl, by
      rw [Topology.areAdjacent_comm]
      simpa using hadj⟩
    rw [row_insert_of_ne hdc, row_insert_of_ne hdc, h.row_iff] at hrow
    exact hcid hrow.2.1
  · intro halone
    refine ⟨fun v => ?_, fun v w => ?_⟩
    · rw [AList.mem_insert, AList.mem_keys, hkeys]
      constructor
      · rintro (rfl | hv)
        · exact .inl rfl
        · exact hv
      · exact .inr
    · by_cases hv : v = cid
      · subst hv
        rw [row_insert_self, List.mem_filter, hkeys]
        simp only [Bool.and_eq_true, decide_eq_true_eq]
        constructor
        · rintro ⟨hw, -, hadj⟩
          exact ⟨.inl rfl, hw, hadj⟩
        rintro ⟨-, hw, hadj⟩
        refine ⟨hw, ?_, hadj⟩
        rintro rfl
        simp [Topology.not_areAdjacent_self] at hadj
      · rw [row_insert_of_ne hv, row_insert_of_ne hv, h.row_iff]
        constructor
        · rintro ⟨hvc, hwc, hadj⟩
          exact ⟨.inr hvc, .inr hwc, hadj⟩
        rintro ⟨hvc | hvc, hwc | hwc, hadj⟩
        · exact absurd hvc hv
        · exact absurd hvc hv
        · subst hwc
          rw [Topology.areAdjacent_comm, halone v hvc] at hadj
          cases hadj
        · exact ⟨hvc, hwc, hadj⟩

lemma represents_erase_iff (h : t.Represents cells base) (hcid : cid ∈ cells) :
    (Topology.rebuildNeighborsFor ⟨t.neighbors.erase cid⟩ [cid] base).Represents
        (cells \ {cid}) base ↔
      ∀ d ∈ cells, areAdjacent cid d base = false := by
  have hout : cid ∉ t.neighbors.erase cid := by simp
  have heq : (Topology.rebuildNeighborsFor ⟨t.neighbors.erase cid⟩ [cid]
      base).neighbors = _ := rebuildNeighborsFor_of_empty row_erase_self
  unfold Topology.rebuildRow at heq
  rw [if_neg hout] at heq
  unfold Topology.Represents
  rw [heq]
  constructor
  · -- a neighbour that stays goes on listing the cell
    intro hrep d hd
    by_contra hadj
    have hdc : d ≠ cid := by
      rintro rfl
      exact hadj (Topology.not_areAdjacent_self _)
    have hrow : cid ∈ t.neighbors.row d := by
      rw [h.row_iff, Topology.areAdjacent_comm]
      exact ⟨hd, hcid, by simpa using hadj⟩
    rw [← row_erase_of_ne hdc, ← row_erase_of_ne hdc, hrep.row_iff] at hrow
    exact hrow.2.1.2 rfl
  · intro halone
    refine ⟨fun v => ?_, fun v w => ?_⟩
    · rw [AList.mem_erase, AList.mem_erase, h.mem_iff]
      constructor
      · rintro ⟨hne, -, hv⟩
        exact ⟨hv, hne⟩
      · rintro ⟨hv, hne⟩
        exact ⟨hne, hne, hv⟩
    · by_cases hv : v = cid
      · subst hv
        simp
      rw [row_erase_of_ne hv, row_erase_of_ne hv, h.row_iff]
      constructor
      · rintro ⟨hvc, hwc, hadj⟩
        refine ⟨⟨hvc, hv⟩, ⟨hwc, ?_⟩, hadj⟩
        rintro rfl
        rw [Topology.areAdjacent_comm, halone v hvc] at hadj
        cases hadj
      · rintro ⟨hvc, hwc, hadj⟩
        exact ⟨hvc.1, hwc.1, hadj⟩

/-- **One call.** Let the map be right for `cells`, and let the owned cells be `cells` but for the
cell of the call. The call leaves the map right exactly if nothing about the cell has changed, or
none of the cells is next to it. -/
theorem represents_rebuildTopologyForCell_iff (h : s.topology.Represents cells base)
    (hcells : ∀ c, c ≠ cid → (c ∈ s.ownedCells ↔ c ∈ cells)) :
    (rebuildTopologyForCell base s cid).topology.Represents s.ownedCells base ↔
      (cid ∈ s.ownedCells ↔ cid ∈ cells) ∨ ∀ d ∈ cells, areAdjacent cid d base = false := by
  by_cases howned : cid ∈ s.ownedCells
  · have howned' : s.ownership.owned cid = true := howned
    by_cases hcid : cid ∈ cells
    · -- a cell that stays
      have hset : s.ownedCells = cells := by
        ext c
        by_cases hc : c = cid
        · subst hc
          tauto
        · exact hcells c hc
      have hin : cid ∈ s.topology.neighbors := (h.mem_iff cid).mpr hcid
      simp only [rebuildTopologyForCell, howned', if_true, if_pos hin, hset, true_or, iff_true]
      exact Topology.represents_rebuildNeighborsFor _ h
    · -- a cell that comes
      have hset : s.ownedCells = insert cid cells := by
        ext c
        by_cases hc : c = cid
        · subst hc
          simp [howned]
        · simp [hc, hcells c hc]
      have hin : cid ∉ s.topology.neighbors := fun hin => hcid ((h.mem_iff cid).mp hin)
      have hiff : ¬ (cid ∈ s.ownedCells ↔ cid ∈ cells) := by tauto
      simp only [rebuildTopologyForCell, howned', if_true, if_neg hin, hiff, false_or]
      rw [hset]
      exact represents_insert_iff h hcid
  · have howned' : s.ownership.owned cid = false := by simpa [ownedCells] using howned
    by_cases hcid : cid ∈ cells
    · -- a cell that goes
      have hset : s.ownedCells = cells \ {cid} := by
        ext c
        by_cases hc : c = cid
        · subst hc
          simp [howned]
        · simp [hc, hcells c hc]
      have hiff : ¬ (cid ∈ s.ownedCells ↔ cid ∈ cells) := by tauto
      simp only [rebuildTopologyForCell, howned', Bool.false_eq_true, if_false, hiff, false_or]
      rw [hset]
      exact represents_erase_iff h hcid
    · -- a cell that stays away
      have hset : s.ownedCells = cells := by
        ext c
        by_cases hc : c = cid
        · subst hc
          tauto
        · exact hcells c hc
      simp only [rebuildTopologyForCell, howned', Bool.false_eq_true, if_false, hset, true_or,
        iff_true]
      refine Topology.represents_rebuildNeighborsFor _ ?_
      refine ⟨fun v => ?_, fun v w => ?_⟩
      · rw [AList.mem_erase, h.mem_iff]
        constructor
        · exact fun hv => hv.2
        intro hv
        refine ⟨?_, hv⟩
        rintro rfl
        exact hcid hv
      · by_cases hv : v = cid
        · subst hv
          simp [hcid]
        · exact (congrArg (w ∈ ·) (row_erase_of_ne hv)).to_iff.trans (h.row_iff v w)

end ControlTopology

namespace OwnershipChange

variable {H : Type*} [DecidableEq H]

def cell : OwnershipChange H → CellID
  | .assignCell _ c | .releaseCell _ c => c

def apply (o : Ownership H) : OwnershipChange H → Ownership H
  | .assignCell h c => o.assignCell h c
  | .releaseCell h c => o.releaseCell h c

lemma owned_apply_of_ne (o : Ownership H) (ev : OwnershipChange H) {d : CellID} (hd : d ≠ ev.cell) :
    (ev.apply o).owned d = o.owned d := by
  have hupdate : ∀ (h : H) (cells : List CellID), (d ∈ cells ↔ d ∈ o.ownedCells h) →
      owned { o with ownedCells := Function.update o.ownedCells h cells } d =
        o.owned d := by
    intro h cells hmem
    have hall : ∀ g, d ∈ Function.update o.ownedCells h cells g ↔ d ∈ o.ownedCells g := by
      intro g
      by_cases hg : g = h
      · subst hg
        simpa using hmem
      · rw [Function.update_of_ne hg]
    have hown : ownersOf
        { o with ownedCells := Function.update o.ownedCells h cells } d = o.ownersOf d :=
      List.filter_congr fun g _ => decide_eq_decide.mpr (hall g)
    unfold owned
    rw [hown]
  cases ev with
  | assignCell h c =>
    have hdc : d ≠ c := hd
    simp only [apply, Ownership.assignCell]
    split
    · exact hupdate h _ (by simp [hdc])
    · rfl
  | releaseCell h c =>
    have hdc : d ≠ c := hd
    exact hupdate h _ (by simp [hdc])

end OwnershipChange

namespace ControlTopology

variable {H : Type*} [DecidableEq H] {K : Type*} [Field K] [LinearOrder K]
  {base : K} {s s₀ s' : ControlTopology H}

/-- The cell of the change keeps having an owner, or keeps having none; or no cell with an owner is
next to it. -/
def Harmless (base : K) (s : ControlTopology H) (ev : OwnershipChange H) : Prop :=
  (ev.apply s.ownership).owned ev.cell = s.ownership.owned ev.cell ∨
    ∀ d, s.ownership.owned d = true → areAdjacent ev.cell d base = false

variable {ev : OwnershipChange H}

lemma step_cases (h : step base s ev = some s') :
    s' = rebuildTopologyForCell base { s with ownership := ev.apply s.ownership } ev.cell ∨
      s' = s ∧ ev.apply s.ownership = s.ownership := by
  cases ev with
  | assignCell host c =>
    simp only [step] at h
    split at h
    · exact .inl (Option.some.inj h).symm
    · rename_i hhost
      exact .inr ⟨(Option.some.inj h).symm, if_neg hhost⟩
  | releaseCell host c => exact .inl (Option.some.inj h).symm

lemma ownedCells_rebuildTopologyForCell (s : ControlTopology H) (cid : CellID) :
    (rebuildTopologyForCell base s cid).ownedCells = s.ownedCells := rfl

lemma complete_step_iff (h : Complete base s) (hstep : step base s ev = some s') :
    Complete base s' ↔ Harmless base s ev := by
  rcases step_cases hstep with rfl | ⟨rfl, hsame⟩
  · generalize hs₁ : ({ s with ownership := ev.apply s.ownership } : ControlTopology H) = s₁
    have hown : ∀ c, c ∈ s₁.ownedCells ↔ (ev.apply s.ownership).owned c = true := by
      rw [← hs₁]
      exact fun c => Iff.rfl
    have hrep : s₁.topology.Represents s.ownedCells base := by
      rw [← hs₁]
      exact complete_iff.mp h
    rw [complete_iff, ownedCells_rebuildTopologyForCell,
      represents_rebuildTopologyForCell_iff hrep fun c hc => ?_]
    · rw [hown]
      exact or_congr Bool.eq_iff_iff.symm Iff.rfl
    · rw [hown, OwnershipChange.owned_apply_of_ne _ _ hc]
      rfl
  · exact iff_of_true h (.inl (by rw [hsame]))

/-- **Upkeep over whole runs.** As long as every change is harmless, the neighbour map is symmetric
and the one of the owned cells; the first change that is not harmless breaks it. -/
theorem upkeep_of_run (h₀ : Complete base s₀)
    (hrun : Run (Steps (step base)) (Harmless base) s₀ s) :
    (Symmetric s ∧ Complete base s) ∧ ∀ ev s', step base s ev = some s' →
      (Symmetric s' ∧ Complete base s' ↔ Harmless base s ev) := by
  have hsymm : ∀ {s : ControlTopology H}, Complete base s → Symmetric s :=
    fun h => symmetric_of_represents (complete_iff.mp h)
  have hcomplete : Complete base s := by
    refine hrun.invariant (I := fun s => Complete base s) h₀ ?_
    intro t u ev h hK hstep
    exact (complete_step_iff h hstep).mpr hK
  refine ⟨⟨hsymm hcomplete, hcomplete⟩, fun ev s' hstep => ?_⟩
  rw [← complete_step_iff hcomplete hstep]
  exact ⟨fun h => h.2, fun h => ⟨hsymm h, h⟩⟩

/-- Two hosts; the first one owns two cells that are next to each other. -/
def adjacentCells : ControlTopology Bool where
  ownership := ⟨fun _ => none, [false, true], fun h => if h then [] else [⟨0, 0, 0⟩, ⟨1, 0, 0⟩]⟩
  topology := .computeTopology [⟨0, 0, 0⟩, ⟨1, 0, 0⟩] (8 : ℚ)

lemma complete_adjacentCells : Complete (8 : ℚ) adjacentCells := by
  refine ⟨[⟨0, 0, 0⟩, ⟨1, 0, 0⟩], fun c => ?_, .of_rows (fun _ => Iff.rfl) fun _ _ => Iff.rfl⟩
  simp [adjacentCells, ownedCells, owned, ownersOf]

theorem upkeep_of_run_reassigned :
    ∃ s, Run (Steps (step (8 : ℚ))) (Harmless (8 : ℚ)) adjacentCells s ∧
      s.ownership.ownersOf ⟨0, 0, 0⟩ = [true] ∧ Symmetric s ∧ Complete (8 : ℚ) s := by
  have hrun : Run (Steps (step (8 : ℚ))) (Harmless (8 : ℚ)) adjacentCells adjacentCells := .refl
  have hassigned := hrun.get (a := .assignCell true ⟨0, 0, 0⟩) (.inl (by decide +kernel)) rfl
  have hreleased := hassigned.get (a := .releaseCell false ⟨0, 0, 0⟩)
    (.inl (by decide +kernel)) rfl
  refine ⟨_, hreleased, ?_, (upkeep_of_run complete_adjacentCells hreleased).1⟩
  decide +kernel

def twoHosts : ControlTopology Bool := ⟨⟨fun _ => none, [false, true], fun _ => []⟩, ⟨∅⟩⟩

/-- Two neighbouring cells are assigned: the second one lists the first one, but not the other way
round. -/
theorem assigned_neighbors_asymmetric :
    ∃ s, Run (Steps (step (8 : ℚ))) Always twoHosts s ∧ ¬ Symmetric s ∧ ¬ Complete (8 : ℚ) s := by
  obtain ⟨s, hrun, h₁, h₂⟩ := exists_run (s := twoHosts) (step (8 : ℚ)) Always
    (fun s => s.topology.neighbors.row ⟨1, 0, 0⟩ = [⟨0, 0, 0⟩] ∧
      s.topology.neighbors.row ⟨0, 0, 0⟩ = [])
    [.assignCell false ⟨0, 0, 0⟩, .assignCell true ⟨1, 0, 0⟩] (by decide +kernel)
  have hasymm : ¬ Symmetric s := by
    intro h
    have := (h ⟨1, 0, 0⟩ ⟨0, 0, 0⟩).mp (by simp [h₁])
    simp [h₂] at this
  exact ⟨s, hrun, hasymm, fun h => hasymm (symmetric_of_represents (complete_iff.mp h))⟩

end ControlTopology

end Mmokit
