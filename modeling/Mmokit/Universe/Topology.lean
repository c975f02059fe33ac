/-
The neighbour map of the cells (`pkg/universe/topology.go`).

`computeTopology` builds the map from scratch. The commit of a split or of a merge does not: it
edits the rows around the cells that went and came (`updateAfterSplit`, `updateAfterMerge`) and then
recomputes the rows of the affected cells and of their neighbours (`rebuildNeighborsFor`).

Go's maps are iterated in no particular order; rows are compared as sets.
-/
import Mmokit.Library.AdjacencyMap
import Mmokit.Universe.CellGeometry

namespace Mmokit

open List AdjacencyMap CellID

open CellID (areAdjacent)

structure Topology where
  neighbors : AdjacencyMap CellID

namespace Topology

variable {K : Type*} [Field K] [LinearOrder K]

def computeTopology (cells : List CellID) (base : K) : Topology :=
  ⟨cells.foldl
    (fun t a => t.insert a (cells.filter fun b => areAdjacent a b base)) ∅⟩

def allCells (t : Topology) : List CellID := t.neighbors.keys

def updateAfterSplit (t : Topology) (parent : CellID) (children : List CellID)
    (base : K) : Topology :=
  let oldNeighbors := t.neighbors.row parent
  let t₁ := t.neighbors.erase parent
  let t₂ := children.foldl
    (fun t child => t.insert child
      ((children.filter fun sibling => areAdjacent child sibling base) ++
        oldNeighbors.filter fun old => areAdjacent child old base)) t₁
  ⟨oldNeighbors.foldl
    (fun t old => t.insert old
      (((t.row old).filter fun n => n ≠ parent) ++
        children.filter fun child => areAdjacent old child base)) t₂⟩

def detachChildren (t : AdjacencyMap CellID) (childSet children : List CellID) :
    AdjacencyMap CellID × List CellID :=
  children.foldl
    (fun s child => (s.1.erase child, s.2 ++ (s.1.row child).filter fun n => n ∉ childSet)) (t, [])

def updateAfterMerge (t : Topology) (children : List CellID) (parent : CellID)
    (base : K) : Topology :=
  let t₁ := (detachChildren t.neighbors children children).1
  let externalNeighbors := (detachChildren t.neighbors children children).2.dedup
  let adj := externalNeighbors.filter fun n => areAdjacent parent n base
  let t₂ := t₁.insert parent adj
  ⟨externalNeighbors.foldl
    (fun t n => t.insert n (((t.row n).filter fun nb => nb ∉ children) ++ [parent])) t₂⟩

def rebuildRow (allKeys : List CellID) (base : K) (t : AdjacencyMap CellID)
    (cell : CellID) : AdjacencyMap CellID :=
  if cell ∈ t then
    t.insert cell (allKeys.filter fun other => other ≠ cell && areAdjacent cell other base)
  else t.erase cell

def rebuildNeighborsFor (t : Topology) (affected : List CellID) (base : K) : Topology :=
  if affected = [] then t
  else
    let frontier := (affected.flatMap fun c => c :: t.neighbors.row c).dedup
    ⟨frontier.foldl (rebuildRow t.allCells base) t.neighbors⟩

def commitSplit (t : Topology) (parent : CellID) (base : K) : Topology :=
  (t.updateAfterSplit parent parent.children base).rebuildNeighborsFor parent.children
    base

def commitMerge (t : Topology) (parent : CellID) (base : K) : Topology :=
  (t.updateAfterMerge parent.children parent base).rebuildNeighborsFor [parent]
    base

/-- The topology lists, for each of the cells, the cells next to it. -/
def Represents (t : Topology) (cells : Set CellID) (base : K) : Prop :=
  AdjacencyMap.Represents (fun a b => areAdjacent a b base = true) cells t.neighbors

variable {t : Topology} {cells : Set CellID} {base : K} {parent : CellID}

/-! ### The full computation and the rebuild -/

lemma not_areAdjacent_self (c : CellID) : areAdjacent c c base = false := by
  simp [areAdjacent]

lemma areAdjacent_comm (a b : CellID) :
    areAdjacent a b base = areAdjacent b a base := by
  unfold areAdjacent
  simp only [max_comm, ne_comm]

theorem represents_computeTopology (cells : List CellID) (base : K) :
    (computeTopology cells base).Represents {c | c ∈ cells} base := by
  obtain ⟨hkeys, hrest, hrows⟩ := foldl_amend
    (f := fun a _ => cells.filter fun b => areAdjacent a b base)
    (p := fun _ _ => False) (q := fun a b => b ∈ cells ∧ areAdjacent a b base = true)
    (fun v l w => by simp) cells ∅
  refine ⟨fun v => ?_, fun v w => ?_⟩
  · exact (hkeys v).trans (by simp)
  by_cases hv : v ∈ cells
  · exact (hrows v hv w).trans (by simp [hv])
  · have hrow : (computeTopology cells base).neighbors.row v = [] := hrest v hv
    simp [hrow, hv]

lemma represents_rebuildRow {t : AdjacencyMap CellID} {allKeys : List CellID} (cell : CellID)
    (hkeys : ∀ c, c ∈ allKeys ↔ c ∈ cells)
    (h : AdjacencyMap.Represents (fun a b => areAdjacent a b base = true) cells t) :
    AdjacencyMap.Represents (fun a b => areAdjacent a b base = true) cells
      (rebuildRow allKeys base t cell) := by
  unfold rebuildRow
  split
  · rename_i hcell
    have hmem := (h.mem_iff cell).mp hcell
    refine ⟨fun v => ?_, fun v w => ?_⟩
    · rw [AList.mem_insert, h.mem_iff]
      constructor
      · rintro (rfl | hv)
        · exact hmem
        · exact hv
      · exact .inr
    · by_cases hv : v = cell
      · subst hv
        rw [row_insert_self, mem_filter, hkeys]
        simp only [Bool.and_eq_true, decide_eq_true_eq]
        constructor
        · rintro ⟨hw, -, hadj⟩
          exact ⟨hmem, hw, hadj⟩
        rintro ⟨-, hw, hadj⟩
        refine ⟨hw, ?_, hadj⟩
        rintro rfl
        simp [not_areAdjacent_self] at hadj
      · rw [row_insert_of_ne hv, h.row_iff]
  · rename_i hcell
    have hout : cell ∉ cells := fun hc => hcell ((h.mem_iff cell).mpr hc)
    refine ⟨fun v => ?_, fun v w => ?_⟩
    · rw [AList.mem_erase, h.mem_iff]
      constructor
      · exact fun hv => hv.2
      intro hv
      refine ⟨?_, hv⟩
      rintro rfl
      exact hout hv
    · by_cases hv : v = cell
      · subst hv
        simp [hout]
      · rw [row_erase_of_ne hv, h.row_iff]

/-- **A rebuild of a correct topology changes nothing**, whatever cells are called affected. -/
theorem represents_rebuildNeighborsFor (affected : List CellID) (h : t.Represents cells base) :
    (t.rebuildNeighborsFor affected base).Represents cells base := by
  unfold rebuildNeighborsFor
  split
  · exact h
  have hkeys : ∀ c, c ∈ t.allCells ↔ c ∈ cells := fun c => AList.mem_keys.symm.trans (h.mem_iff c)
  -- one row after the other
  generalize (affected.flatMap fun c => c :: t.neighbors.row c).dedup = frontier
  generalize t.allCells = allKeys at hkeys
  have hstart : AdjacencyMap.Represents (fun a b => areAdjacent a b base = true) cells
    t.neighbors := h
  generalize t.neighbors = m at hstart
  induction frontier generalizing m with
  | nil => exact hstart
  | cons cell frontier ih => exact ih _ (represents_rebuildRow cell hkeys hstart)

/-! ### Splits and merges replace cells -/

lemma replaced_updateAfterSplit {children : List CellID} (h : t.Represents cells base)
    (hnew : ∀ c ∈ children, c ∉ cells) :
    AdjacencyMap.Replaced (fun a b => areAdjacent a b base = true) {parent}
      {c | c ∈ children} t.neighbors
      (t.updateAfterSplit parent children base).neighbors := by
  have hold : ∀ w, w ∈ t.neighbors.row parent →
      w ∈ t.neighbors ∧ w ≠ parent ∧ w ∉ children := by
    intro w hw
    obtain ⟨-, hmem, hadj⟩ := (h.row_iff parent w).mp hw
    refine ⟨(h.mem_iff w).mpr hmem, ?_, fun hc => hnew w hc hmem⟩
    rintro rfl
    simp [not_areAdjacent_self] at hadj
  have hborder : ∀ w, t.neighbors.Border {parent} w ↔ w ∈ t.neighbors.row parent := by
    intro w
    constructor
    · rintro ⟨-, r, rfl, hw⟩
      exact hw
    · exact fun hw => ⟨(hold w hw).2.1, parent, rfl, hw⟩
  unfold updateAfterSplit
  dsimp only
  -- the loop over the children, then the one over the old neighbours
  obtain ⟨hkeys₂, hrest₂, hrows₂⟩ := foldl_amend
    (f := fun child _ => (children.filter fun sibling => areAdjacent child sibling base) ++
      (t.neighbors.row parent).filter fun old => areAdjacent child old base)
    (p := fun _ _ => False)
    (q := fun child w => (w ∈ children ∨ w ∈ t.neighbors.row parent) ∧
      areAdjacent child w base = true)
    (fun v l w => by simp [or_and_right]) children (t.neighbors.erase parent)
  generalize children.foldl _ (t.neighbors.erase parent) = t₂ at hkeys₂ hrest₂ hrows₂ ⊢
  obtain ⟨hkeys, hrest, hrows⟩ := foldl_amend
    (f := fun old l => (l.filter fun n => n ≠ parent) ++
      children.filter fun child => areAdjacent old child base)
    (p := fun _ w => w ≠ parent)
    (q := fun old w => w ∈ children ∧ areAdjacent old w base = true)
    (fun v l w => by simp) (t.neighbors.row parent) t₂
  generalize (t.neighbors.row parent).foldl _ t₂ = t₃ at hkeys hrest hrows ⊢
  refine ⟨fun v => ?_, fun v hv w => ?_, fun v hv hb w => ?_, fun v hv hvp hb => ?_⟩
  · rw [hkeys, hkeys₂, AList.mem_erase]
    constructor
    · rintro ((⟨hne, hv⟩ | hv) | hv)
      · exact .inl ⟨hv, hne⟩
      · exact .inr hv
      · exact .inl ⟨(hold v hv).1, (hold v hv).2.1⟩
    · rintro (⟨hv, hne⟩ | hv)
      · exact .inl (.inl ⟨hne, hv⟩)
      · exact .inl (.inr hv)
  · have hvold : v ∉ t.neighbors.row parent := fun hv' => (hold v hv').2.2 hv
    rw [hrest v hvold, hrows₂ v hv, hborder]
    simp
  · have hv' : v ∉ children := hv
    have hvold := (hborder v).mp hb
    rw [hrows v hvold, hrest₂ v hv', row_erase_of_ne (hold v hvold).2.1]
    rfl
  · have hv' : v ∉ children := hv
    have hvp' : v ≠ parent := hvp
    rw [hrest v (fun hv' => hb ((hborder v).mpr hv')), hrest₂ v hv',
      row_erase_of_ne hvp']

lemma detachChildren_spec (m : AdjacencyMap CellID) (childSet children : List CellID) :
    (∀ v, v ∈ (detachChildren m childSet children).1 ↔ v ∈ m ∧ v ∉ children) ∧
      (∀ v, v ∉ children → (detachChildren m childSet children).1.row v = m.row v) ∧
      ∀ w, w ∈ (detachChildren m childSet children).2 ↔
        w ∉ childSet ∧ ∃ c ∈ children, w ∈ m.row c := by
  have hloop : ∀ (children : List CellID) (m : AdjacencyMap CellID) (ext : List CellID),
      let s := children.foldl (fun s child =>
        (s.1.erase child, s.2 ++ (s.1.row child).filter fun n => n ∉ childSet)) (m, ext)
      (∀ v, v ∈ s.1 ↔ v ∈ m ∧ v ∉ children) ∧
        (∀ v, v ∉ children → s.1.row v = m.row v) ∧
        ∀ w, w ∈ s.2 ↔ w ∈ ext ∨ w ∉ childSet ∧ ∃ c ∈ children, w ∈ m.row c := by
    intro children
    induction children with
    | nil => simp
    | cons u children ih =>
      intro m ext
      obtain ⟨hkeys, hrows, hext⟩ :=
        ih (m.erase u) (ext ++ (m.row u).filter fun n => n ∉ childSet)
      refine ⟨fun v => ?_, fun v hv => ?_, fun w => ?_⟩
      · rw [foldl_cons, hkeys, AList.mem_erase, mem_cons]
        tauto
      · rw [mem_cons, not_or] at hv
        rw [foldl_cons, hrows v hv.2, row_erase_of_ne hv.1]
      rw [foldl_cons, hext, mem_append, mem_filter, decide_eq_true_eq]
      constructor
      · rintro ((hw | ⟨hw, hout⟩) | ⟨hout, c, hc, hw⟩)
        · exact .inl hw
        · exact .inr ⟨hout, u, mem_cons_self, hw⟩
        by_cases hcu : c = u
        · simp [hcu] at hw
        · rw [row_erase_of_ne hcu] at hw
          exact .inr ⟨hout, c, mem_cons_of_mem u hc, hw⟩
      · rintro (hw | ⟨hout, c, hc, hw⟩)
        · exact .inl (.inl hw)
        by_cases hcu : c = u
        · subst hcu
          exact .inl (.inr ⟨hw, hout⟩)
        · have hc' := (mem_cons.mp hc).resolve_left hcu
          exact .inr ⟨hout, c, hc', by rwa [row_erase_of_ne hcu]⟩
  obtain ⟨hkeys, hrows, hext⟩ := hloop children m []
  exact ⟨hkeys, hrows, fun w => (hext w).trans (by simp)⟩

lemma replaced_updateAfterMerge {children : List CellID} (h : t.Represents cells base)
    (hparent : parent ∉ cells)
    (hnext : ∀ v ∈ cells, v ∉ children → ∀ c ∈ children, areAdjacent c v base = true →
      areAdjacent v parent base = true) :
    AdjacencyMap.Replaced (fun a b => areAdjacent a b base = true) {c | c ∈ children}
      {parent} t.neighbors
      (t.updateAfterMerge children parent base).neighbors := by
  obtain ⟨hkeys₁, hrows₁, hext⟩ := detachChildren_spec t.neighbors children children
  unfold updateAfterMerge
  dsimp only
  generalize (detachChildren t.neighbors children children).1 = t₁ at hkeys₁ hrows₁ ⊢
  have hborder : ∀ w, t.neighbors.Border {c | c ∈ children} w ↔
      w ∈ (detachChildren t.neighbors children children).2.dedup := by
    intro w
    rw [mem_dedup, hext]
    rfl
  generalize (detachChildren t.neighbors children children).2.dedup = external at hborder ⊢
  have hin : ∀ w ∈ external, w ∈ t.neighbors ∧ w ∉ children ∧ w ≠ parent ∧
      areAdjacent w parent base = true := by
    intro w hw
    obtain ⟨hout, c, hc, hcw⟩ := (hborder w).mpr hw
    obtain ⟨-, hmem, hadj⟩ := (h.row_iff c w).mp hcw
    refine ⟨(h.mem_iff w).mpr hmem, hout, ?_, hnext w hmem hout c hc hadj⟩
    rintro rfl
    exact hparent hmem
  obtain ⟨hkeys, hrest, hrows⟩ := foldl_amend
    (f := fun _ l => (l.filter fun nb => nb ∉ children) ++ [parent])
    (p := fun _ w => w ∉ children) (q := fun _ w => w = parent)
    (fun v l w => by simp) external
    (t₁.insert parent (external.filter fun n => areAdjacent parent n base))
  generalize external.foldl _ _ = t₃ at hkeys hrest hrows ⊢
  refine ⟨fun v => ?_, fun v hv w => ?_, fun v hv hb w => ?_, fun v hv hvc hb => ?_⟩
  · rw [hkeys, AList.mem_insert, hkeys₁]
    constructor
    · rintro ((rfl | hv) | hv)
      · exact .inr rfl
      · exact .inl hv
      · exact .inl ⟨(hin v hv).1, (hin v hv).2.1⟩
    · rintro (hv | rfl)
      · exact .inl (.inr hv)
      · exact .inl (.inl rfl)
  · obtain rfl : v = parent := hv
    have hvext : v ∉ external := fun hv => (hin v hv).2.2.1 rfl
    rw [hrest v hvext, row_insert_self, mem_filter, hborder]
    constructor
    · exact fun ⟨hw, hadj⟩ => ⟨.inr hw, hadj⟩
    rintro ⟨hw | hw, hadj⟩
    · obtain rfl : w = v := hw
      simp [not_areAdjacent_self] at hadj
    · exact ⟨hw, hadj⟩
  · have hvp : v ≠ parent := hv
    have hvext := (hborder v).mp hb
    rw [hrows v hvext, row_insert_of_ne hvp, hrows₁ v (hin v hvext).2.1]
    constructor
    · rintro (hw | rfl)
      · exact .inl hw
      · exact .inr ⟨rfl, (hin v hvext).2.2.2⟩
    · rintro (hw | ⟨hw, -⟩)
      · exact .inl hw
      · exact .inr hw
  · have hvp : v ≠ parent := hv
    rw [hrest v (fun hv' => hb ((hborder v).mpr hv')), row_insert_of_ne hvp,
      hrows₁ v hvc]

/-! ### The two commits -/

section Commits

variable [IsStrictOrderedRing K]

theorem represents_commitSplit (h : t.Represents cells base) (hbase : 0 < base)
    (htiling : Tiling cells base) (hp : parent ∈ cells) (hd : parent.depth + 1 < 32)
    (hfit : parent.ChildrenFit) :
    (t.commitSplit parent base).Represents (cells \ {parent} ∪ {c | c ∈ parent.children})
      base := by
  have hnew : ∀ c ∈ parent.children, c ∉ cells := fun c =>
    htiling.child_notMem hbase hp hd hfit
  refine represents_rebuildNeighborsFor _ ?_
  refine AdjacencyMap.Represents.replace h (fun hadj => (areAdjacent_comm _ _).trans hadj)
    (Set.singleton_subset_iff.mpr hp) ?_ (replaced_updateAfterSplit h hnew)
  -- what touches a child touches the parent
  intro v hv hvp c hc hadj
  have hvd := htiling.depth_lt v hv
  have hcd : c.depth = parent.depth + 1 := depth_of_mem_children hc
  have htouch := ((areAdjacent_iff hbase hvd (by omega)).mp hadj).2
  refine ⟨parent, rfl, (areAdjacent_iff hbase hvd (by omega)).mpr ⟨hvp, ?_⟩⟩
  exact ((touches_iff_children hbase hd hfit).mpr ⟨c, hc, htouch.symm⟩).symm

theorem represents_commitMerge (h : t.Represents cells base) (hbase : 0 < base)
    (htiling : Tiling cells base) (hfit : parent.ChildrenFit)
    (hc : ∀ c ∈ parent.children, c ∈ cells) :
    (t.commitMerge parent base).Represents (cells \ {c | c ∈ parent.children} ∪ {parent})
      base := by
  have hd : parent.depth + 1 < 32 := by
    have hmem : (⟨int32 (parent.x * 2), int32 (parent.y * 2), parent.depth + 1⟩ : CellID) ∈
        parent.children := mem_cons_self
    exact htiling.depth_lt _ (hc _ hmem)
  have hparent : parent ∉ cells := htiling.parent_notMem hbase hd hfit hc
  refine represents_rebuildNeighborsFor _ ?_
  refine AdjacencyMap.Represents.replace h (fun hadj => (areAdjacent_comm _ _).trans hadj) hc ?_
    (replaced_updateAfterMerge h hparent ?_)
  · -- what touches the parent touches a child
    intro v hv hvc p hp hadj
    obtain rfl : p = parent := hp
    have hvd := htiling.depth_lt v hv
    have htouch := ((areAdjacent_iff hbase hvd (by omega)).mp hadj).2
    obtain ⟨c, hmem, hcv⟩ := (touches_iff_children hbase hd hfit).mp htouch.symm
    refine ⟨c, hmem, (areAdjacent_iff hbase hvd ?_).mpr ⟨?_, hcv.symm⟩⟩
    · exact htiling.depth_lt c (hc c hmem)
    · rintro rfl
      exact hvc hmem
  · intro v hv hvc c hmem hadj
    have hvd := htiling.depth_lt v hv
    have htouch := ((areAdjacent_iff hbase (htiling.depth_lt c (hc c hmem)) hvd).mp hadj).2
    refine (areAdjacent_iff hbase hvd (by omega)).mpr ⟨?_, ?_⟩
    · rintro rfl
      exact hparent hv
    · exact ((touches_iff_children hbase hd hfit).mpr ⟨c, hmem, htouch⟩).symm

end Commits

end Topology

/-! ### Histories of splits and merges -/

/-- A committed split, or merge. -/
inductive TilingOp
  | split (parent : CellID)
  | merge (parent : CellID)
deriving DecidableEq

/-- The cell whose children come or go. -/
def TilingOp.parent : TilingOp → CellID
  | .split parent | .merge parent => parent

/-- The cells of the mesh, and the map that is kept of them. -/
structure MeshTopology where
  cells : Finset CellID
  topology : Topology

namespace MeshTopology

variable {K : Type*} [Field K] [LinearOrder K]

def initial (cells : List CellID) (base : K) : MeshTopology :=
  ⟨cells.toFinset, Topology.computeTopology cells base⟩

/-- A split replaces one cell by its children, provided that they are not too deep; a merge replaces
four siblings by their parent. -/
def step (base : K) (s : MeshTopology) : TilingOp → Option MeshTopology
  | .split parent =>
    if parent ∈ s.cells ∧ parent.depth + 1 < 32 then
      some ⟨s.cells \ {parent} ∪ parent.children.toFinset, s.topology.commitSplit parent base⟩
    else none
  | .merge parent =>
    if parent.children.toFinset ⊆ s.cells then
      some ⟨s.cells \ parent.children.toFinset ∪ {parent}, s.topology.commitMerge parent base⟩
    else none

/-- No child's coordinate overflows. -/
def Fit (_ : MeshTopology) (op : TilingOp) : Prop := op.parent.ChildrenFit

instance (s : MeshTopology) (op : TilingOp) : Decidable (s.Fit op) :=
  inferInstanceAs (Decidable op.parent.ChildrenFit)

variable [IsStrictOrderedRing K] {base : K} {s s' : MeshTopology} {op : TilingOp}

/-- The cells do not overlap, and the map lists the neighbours of each. -/
structure Inv (base : K) (s : MeshTopology) : Prop where
  tiling : Tiling {c | c ∈ s.cells} base
  represents : s.topology.Represents {c | c ∈ s.cells} base

lemma inv_step (hbase : 0 < base) (h : s.Inv base) (hfit : s.Fit op)
    (hstep : step base s op = some s') : s'.Inv base := by
  cases op with
  | split parent =>
    simp only [step] at hstep
    split at hstep
    · rename_i hcond
      cases hstep
      have hset : {c | c ∈ s.cells \ {parent} ∪ parent.children.toFinset} =
          {c | c ∈ s.cells} \ {parent} ∪ {c | c ∈ parent.children} := by
        ext c
        simp
      refine ⟨?_, ?_⟩
      · exact hset ▸ h.tiling.split hbase hcond.1 hcond.2 hfit
      · exact hset ▸ Topology.represents_commitSplit h.represents hbase h.tiling hcond.1 hcond.2
          hfit
    · cases hstep
  | merge parent =>
    simp only [step] at hstep
    split at hstep
    · rename_i hcond
      cases hstep
      have hc : ∀ c ∈ parent.children, c ∈ {c | c ∈ s.cells} :=
        fun c hc => hcond (mem_toFinset.mpr hc)
      have hset : {c | c ∈ s.cells \ parent.children.toFinset ∪ {parent}} =
          {c | c ∈ s.cells} \ {c | c ∈ parent.children} ∪ {parent} := by
        ext c
        simp only [Set.mem_ofPred_eq, Finset.mem_union, Finset.mem_sdiff, Finset.mem_singleton,
          mem_toFinset, Set.mem_union, Set.mem_sdiff, Set.mem_singleton_iff]
      refine ⟨?_, ?_⟩
      · exact hset ▸ h.tiling.merge hbase hfit hc
      · exact hset ▸ Topology.represents_commitMerge h.represents hbase h.tiling hfit hc
    · cases hstep

lemma inv_of_run {cells : List CellID} (hbase : 0 < base) (htiling : Tiling {c | c ∈ cells} base)
    (hrun : Run (Steps (step base)) Fit (initial cells base) s) : s.Inv base := by
  refine hrun.invariant (I := fun s => s.Inv base) ?_
    fun h hfit hstep => inv_step hbase h hfit hstep
  have hset : {c | c ∈ (initial cells base).cells} = {c | c ∈ cells} := by
    ext c
    simp [initial]
  exact ⟨hset ▸ htiling, hset ▸ Topology.represents_computeTopology cells base⟩

/-- **The incremental topology is the full one.** From any cells without overlap, after any splits
and merges whose children's coordinates fit, the map has the keys and the rows that
`computeTopology` gives for the current cells. -/
theorem incremental_eq_computeTopology (cells : List CellID) (hbase : 0 < base)
    (htiling : Tiling {c | c ∈ cells} base)
    (hrun : Run (Steps (step base)) Fit (initial cells base) s) (current : List CellID)
    (hcurrent : ∀ c, c ∈ current ↔ c ∈ s.cells) :
    AdjacencyMap.SameRows s.topology.neighbors
      (Topology.computeTopology current base).neighbors := by
  have hinv := inv_of_run hbase htiling hrun
  have hset : {c | c ∈ current} = {c | c ∈ s.cells} := Set.ext hcurrent
  have hfull := Topology.represents_computeTopology current base
  rw [hset] at hfull
  exact hinv.represents.sameRows hfull

/-- Two cells of the base grid; the first one is split, one of its children too, and that is merged
again. -/
theorem incremental_eq_computeTopology_twoCells :
    Tiling {c | c ∈ [(⟨0, 0, 0⟩ : CellID), ⟨1, 0, 0⟩]} (8 : ℚ) ∧
      ∃ s, Run (Steps (step (8 : ℚ))) Fit (initial [⟨0, 0, 0⟩, ⟨1, 0, 0⟩] (8 : ℚ)) s ∧
        s.cells = {⟨1, 0, 0⟩, ⟨0, 0, 1⟩, ⟨1, 0, 1⟩, ⟨0, 1, 1⟩, ⟨1, 1, 1⟩} ∧
        AdjacencyMap.SameRows s.topology.neighbors
          (Topology.computeTopology [⟨1, 0, 0⟩, ⟨0, 0, 1⟩, ⟨1, 0, 1⟩, ⟨0, 1, 1⟩, ⟨1, 1, 1⟩]
            (8 : ℚ)).neighbors := by
  have htiling : Tiling {c | c ∈ [(⟨0, 0, 0⟩ : CellID), ⟨1, 0, 0⟩]} (8 : ℚ) := by
    refine ⟨?_, ?_⟩
    · have h : ∀ c ∈ [(⟨0, 0, 0⟩ : CellID), ⟨1, 0, 0⟩], c.depth < 32 := by decide
      exact h
    rintro a ha b hb hab
    simp only [Set.mem_ofPred_eq, mem_cons, not_mem_nil, or_false] at ha hb
    rcases ha with rfl | rfl <;> rcases hb with rfl | rfl
    · exact absurd rfl hab
    · norm_num [CellID.Overlap, worldBounds, size, squaresPerBase]
    · norm_num [CellID.Overlap, worldBounds, size, squaresPerBase]
    · exact absurd rfl hab
  obtain ⟨s, hrun, hcells⟩ := exists_run (s := initial [⟨0, 0, 0⟩, ⟨1, 0, 0⟩] (8 : ℚ))
    (step (8 : ℚ)) Fit
    (fun s => s.cells = {⟨1, 0, 0⟩, ⟨0, 0, 1⟩, ⟨1, 0, 1⟩, ⟨0, 1, 1⟩, ⟨1, 1, 1⟩})
    [.split ⟨0, 0, 0⟩, .split ⟨1, 1, 1⟩, .merge ⟨1, 1, 1⟩] (by decide +kernel)
  refine ⟨htiling, s, hrun, hcells, ?_⟩
  exact incremental_eq_computeTopology _ (by norm_num) htiling hrun _ (by simp [hcells])

/-- **A wrapped child is no neighbour.** The children of the cell at the right end of `int32` are at
the left of the origin. They touch the first cell, which their parent did not, and its row is not
computed again. -/
theorem wrapped_child_no_neighbor :
    ∃ s, Run (Steps (step (8 : ℚ))) Always (initial [⟨0, 0, 0⟩, ⟨2147483647, 0, 30⟩] (8 : ℚ)) s ∧
      s.cells = {⟨0, 0, 0⟩, ⟨-2, 0, 31⟩, ⟨-1, 0, 31⟩, ⟨-2, 1, 31⟩, ⟨-1, 1, 31⟩} ∧
      s.topology.neighbors.row ⟨0, 0, 0⟩ = [] ∧
      ⟨0, 0, 0⟩ ∈ s.topology.neighbors.row ⟨-1, 0, 31⟩ ∧
      ⟨-1, 0, 31⟩ ∈ (Topology.computeTopology [⟨0, 0, 0⟩, ⟨-2, 0, 31⟩, ⟨-1, 0, 31⟩, ⟨-2, 1, 31⟩,
        ⟨-1, 1, 31⟩] (8 : ℚ)).neighbors.row ⟨0, 0, 0⟩ := by
  have hfull : ⟨-1, 0, 31⟩ ∈ (Topology.computeTopology [⟨0, 0, 0⟩, ⟨-2, 0, 31⟩, ⟨-1, 0, 31⟩,
      ⟨-2, 1, 31⟩, ⟨-1, 1, 31⟩] (8 : ℚ)).neighbors.row ⟨0, 0, 0⟩ := by
    decide +kernel
  obtain ⟨s, hrun, hcells, hrow, hback⟩ := exists_run
    (s := initial [⟨0, 0, 0⟩, ⟨2147483647, 0, 30⟩] (8 : ℚ)) (step (8 : ℚ)) Always
    (fun s => s.cells = {⟨0, 0, 0⟩, ⟨-2, 0, 31⟩, ⟨-1, 0, 31⟩, ⟨-2, 1, 31⟩, ⟨-1, 1, 31⟩} ∧
      s.topology.neighbors.row ⟨0, 0, 0⟩ = [] ∧
      ⟨0, 0, 0⟩ ∈ s.topology.neighbors.row ⟨-1, 0, 31⟩)
    [.split ⟨2147483647, 0, 30⟩] (by decide +kernel)
  exact ⟨s, hrun, hcells, hrow, hback, hfull⟩

/-- **The neighbour map is the geometry of the cells.** After any splits and merges whose children's
coordinates fit, its keys are the current cells, and a row lists the other cells that touch its key;
so the map is symmetric. -/
theorem neighbors_touch (cells : List CellID) (hbase : 0 < base)
    (htiling : Tiling {c | c ∈ cells} base)
    (hrun : Run (Steps (step base)) Fit (initial cells base) s) :
    (∀ c, c ∈ s.topology.neighbors ↔ c ∈ s.cells) ∧
    (∀ a b, b ∈ s.topology.neighbors.row a ↔
      a ∈ s.cells ∧ b ∈ s.cells ∧ a ≠ b ∧ a.Touches b base) ∧
    ∀ a b, b ∈ s.topology.neighbors.row a → a ∈ s.topology.neighbors.row b := by
  have hinv := inv_of_run hbase htiling hrun
  have hrow (a b : CellID) : b ∈ s.topology.neighbors.row a ↔
      a ∈ s.cells ∧ b ∈ s.cells ∧ a ≠ b ∧ a.Touches b base := by
    rw [hinv.represents.row_iff]
    refine and_congr_right fun ha => and_congr_right fun hb => ?_
    exact areAdjacent_iff hbase (hinv.tiling.depth_lt a ha) (hinv.tiling.depth_lt b hb)
  refine ⟨hinv.represents.mem_iff, hrow, fun a b hb => ?_⟩
  obtain ⟨ha, hb, hne, htouch⟩ := (hrow a b).mp hb
  exact (hrow b a).mpr ⟨hb, ha, hne.symm, htouch.symm⟩

theorem neighbors_touch_split : ∃ s,
    (Run (Steps (step (8 : ℚ))) Fit (initial [⟨0, 0, 0⟩] (8 : ℚ)) s ∧
      ⟨1, 1, 1⟩ ∈ s.topology.neighbors.row ⟨0, 0, 1⟩) ∧
    ⟨0, 0, 1⟩ ∈ s.topology.neighbors.row ⟨1, 1, 1⟩ := by
  have htiling : Tiling {c | c ∈ [(⟨0, 0, 0⟩ : CellID)]} (8 : ℚ) :=
    ⟨by simp, by simp +contextual⟩
  obtain ⟨s, hrun, hrow⟩ := exists_run (s := initial [⟨0, 0, 0⟩] (8 : ℚ)) (step (8 : ℚ)) Fit
    (fun s => ⟨1, 1, 1⟩ ∈ s.topology.neighbors.row ⟨0, 0, 1⟩) [.split ⟨0, 0, 0⟩]
    (by decide +kernel)
  exact ⟨s, ⟨hrun, hrow⟩, (neighbors_touch _ (by norm_num) htiling hrun).2.2 _ _ hrow⟩

end MeshTopology

end Mmokit
