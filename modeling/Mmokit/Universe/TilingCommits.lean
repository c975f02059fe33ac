/-
Every reachable tiling is a partition of the grid.

A process of the coordinator keeps the tiling in three places: `cellToHostMap` and the registry say
which host runs a cell (`Ownership`), and `CellOwner` names the cells that the process itself runs.
`CellOwnerAtPos` looks a position up in them, in whatever order the maps are iterated.
-/
import Mmokit.Universe.CellText
import Mmokit.Universe.TilingPartition
import Mmokit.Universe.TopologyUpkeep

namespace Mmokit

open CellID List CellTransferRequest Ownership

structure CoordMaps (H : Type*) where
  /-- `cellToHostMap` and the registry. -/
  ownership : Ownership H
  /-- The keys of `Cells`: the cells that the process runs. -/
  cells : Finset CellID
  cellOwner : CellID → Option String

inductive TilingCommit (H : Type*)
  | split (parent : CellID) (srcHost : H) (childHosts : List H)
  | merge (parent : CellID) (siblingHosts : List H) (choice : H)
deriving DecidableEq

namespace CoordMaps

variable {H : Type*}

/-- The end of `createNode`: a cell that the process runs is entered under its mesh identifier. -/
def createNode (s : CoordMaps H) (cell : CellID) : CoordMaps H :=
  { s with
    cells := insert cell s.cells
    cellOwner := Function.update s.cellOwner cell (some cell.meshID) }

def dropNode (s : CoordMaps H) (cell : CellID) : CoordMaps H :=
  { s with cells := s.cells.erase cell, cellOwner := Function.update s.cellOwner cell none }

section Commits

variable [DecidableEq H]

def createChildren (isLocal : H → Bool) (req : CellTransferRequest H)
    (s : CoordMaps H) : CoordMaps H :=
  ((req.commands.filter fun cmd => isLocal cmd.destHostID).map (·.destCellID)).foldl createNode s

def stepSplitApplyCoordMutation (req : CellTransferRequest H) (s : CoordMaps H) :
    CoordMaps H :=
  let s₁ := { s with ownership := s.ownership.applyMutation req.mutation }
  if req.srcCell ∈ s₁.cells then s₁.dropNode req.srcCell else s₁

/-- `stepMergeApplyCoordMutation`. The survivor is the destination of the first command. -/
def stepMergeApplyCoordMutation (req : CellTransferRequest H) (s : CoordMaps H) :
    CoordMaps H :=
  let parent := req.srcCell
  let survivor := (req.commands.map (·.destCellID)).headD parent
  let s₁ := { s with ownership := s.ownership.applyMutation req.mutation }
  let s₂ := (parent.children.filter (· ≠ survivor)).foldl dropNode s₁
  if survivor ∈ s₂.cells then (s₂.dropNode survivor).createNode parent else s₂

def applyRegistryDelta (req : CellTransferRequest H) (pre : CellID → Option H)
    (s : CoordMaps H) : CoordMaps H :=
  { s with ownership := s.ownership.applyRegistryDelta req.mutation pre }

def applySplitCommit (isLocal : H → Bool) (req : CellTransferRequest H)
    (s : CoordMaps H) : CoordMaps H :=
  applyRegistryDelta req (s.ownership.preOwnership req)
    (stepSplitApplyCoordMutation req (s.createChildren isLocal req))

def applyMergeCommit (req : CellTransferRequest H) (s : CoordMaps H) :
    CoordMaps H :=
  applyRegistryDelta req (s.ownership.preOwnership req) (stepMergeApplyCoordMutation req s)

/-- A committed request. A split is of a cell that the source host owns, into cells that the types
of the source can hold; a merge is of four such siblings with their owners. -/
def step (isLocal : H → Bool) (s : CoordMaps H) :
    TilingCommit H → Option (CoordMaps H)
  | .split parent srcHost childHosts =>
    if s.ownership.OwnerOf parent srcHost ∧ childHosts.length = 4 ∧ parent.depth + 1 < 32 ∧
        parent.ChildrenFit then
      some (s.applySplitCommit isLocal (.split 0 parent srcHost childHosts))
    else none
  | .merge parent siblingHosts choice =>
    if siblingHosts.length = 4 ∧ parent.ChildrenFit ∧
        ((parent.children.zip siblingHosts).all fun a => s.ownership.OwnerOf a.1 a.2) = true then
      some (s.applyMergeCommit (.merge 0 parent siblingHosts choice))
    else none

end Commits

def IsCurrent (s : CoordMaps H) (c : CellID) : Prop :=
  (s.ownership.cellToHostMap c).isSome = true

/-- `CellOwnerAtPos` may return this answer: it takes any hit in `CellOwner`, and without one any
hit among the keys of `AllOwnedCells`, which are mesh identifiers. -/
def CellOwnerAtPos {K : Type*} [Field K] [LinearOrder K] [DecidableEq H]
    (s : CoordMaps H) (base x y : K) (answer : String) : Prop :=
  (∃ cell, s.cellOwner cell = some answer ∧ (cell.worldBounds base).Contains x y) ∨
    (∀ cell id, s.cellOwner cell = some id → ¬ (cell.worldBounds base).Contains x y) ∧
      ((∃ key cell, s.ownership.owned key = true ∧ parseCellID key.meshID = some cell ∧
          (cell.worldBounds base).Contains x y ∧ answer = key.meshID) ∨
        (∀ key cell, s.ownership.owned key = true → parseCellID key.meshID = some cell →
          ¬ (cell.worldBounds base).Contains x y) ∧ answer = "")

section Effects

variable {parent c : CellID} {s : CoordMaps H}

lemma children_nodup (parent : CellID) : parent.children.Nodup := by
  simp [children]

lemma map_fst_children_zip {hosts : List H} (hlen : hosts.length = 4) :
    (parent.children.zip hosts).map Prod.fst = parent.children :=
  map_fst_zip (by simp [children, hlen])

lemma lookup_of_nodup {α β : Type*} [BEq α] [LawfulBEq α] {l : List (α × β)} {entry : α × β}
    (hnodup : (l.map Prod.fst).Nodup) (hentry : entry ∈ l) : l.lookup entry.1 = some entry.2 := by
  induction l with
  | nil => exact absurd hentry not_mem_nil
  | cons e l ih =>
    rw [map_cons, nodup_cons] at hnodup
    rcases mem_cons.mp hentry with rfl | hmem
    · rw [lookup_cons, beq_self_eq_true]
    have hne : entry.1 ≠ e.1 := by
      intro heq
      exact hnodup.1 (heq ▸ mem_map_of_mem hmem)
    rw [lookup_cons, beq_false_of_ne hne]
    exact ih hnodup.2 hmem

lemma cellOwner_dropNode_of_ne {d : CellID} (h : c ≠ d) :
    (s.dropNode d).cellOwner c = s.cellOwner c := Function.update_of_ne h ..

lemma cellOwner_createNode_of_ne {d : CellID} (h : c ≠ d) :
    (s.createNode d).cellOwner c = s.cellOwner c := Function.update_of_ne h ..

def Paired (s : CoordMaps H) : Prop := ∀ c, c ∈ s.cells ↔ (s.cellOwner c).isSome = true

lemma Paired.createNode (h : s.Paired) (d : CellID) : (s.createNode d).Paired := by
  intro c
  by_cases hc : c = d
  · simp [CoordMaps.createNode, hc]
  · simp [CoordMaps.createNode, hc, h c]

lemma Paired.dropNode (h : s.Paired) (d : CellID) : (s.dropNode d).Paired := by
  intro c
  by_cases hc : c = d
  · simp [CoordMaps.dropNode, hc]
  · simp [CoordMaps.dropNode, hc, h c]

lemma Paired.foldl {f : CoordMaps H → CellID → CoordMaps H}
    (hf : ∀ {s : CoordMaps H}, s.Paired → ∀ d, (f s d).Paired) (l : List CellID) (h : s.Paired) :
    (l.foldl f s).Paired := by
  induction l generalizing s with
  | nil => exact h
  | cons d l ih => exact ih (hf h d)

lemma preOwnership_eq {o : Ownership H} {req : CellTransferRequest H}
    (hcmd : ∀ cmd ∈ req.commands, o.cellToHostMap cmd.srcCellID = some cmd.srcHostID) (c : CellID) :
    o.preOwnership req c = o.cellToHostMap c := by
  rw [preOwnership]
  split
  · rename_i cmd hfind
    have hsrc : cmd.srcCellID = c := by simpa using find?_some hfind
    rw [← hsrc, hcmd cmd (mem_of_find?_eq_some hfind)]
  · rfl

lemma cellOwner_foldl_createNode (l : List CellID) (s : CoordMaps H) (c : CellID) :
    (l.foldl createNode s).cellOwner c = (if c ∈ l then some c.meshID else s.cellOwner c) ∧
      (l.foldl createNode s).ownership = s.ownership := by
  induction l generalizing s with
  | nil => simp
  | cons d l ih =>
    obtain ⟨howner, hown⟩ := ih (s.createNode d)
    refine ⟨?_, hown⟩
    rw [foldl_cons, howner]
    by_cases hcl : c ∈ l
    · simp [hcl]
    by_cases hcd : c = d
    · subst hcd
      simp [hcl, createNode]
    · simp [hcl, hcd, createNode]

lemma cellOwner_foldl_dropNode (l : List CellID) (s : CoordMaps H) (c : CellID) :
    (l.foldl dropNode s).cellOwner c = (if c ∈ l then none else s.cellOwner c) ∧
      (l.foldl dropNode s).ownership = s.ownership := by
  induction l generalizing s with
  | nil => simp
  | cons d l ih =>
    obtain ⟨howner, hown⟩ := ih (s.dropNode d)
    refine ⟨?_, hown⟩
    rw [foldl_cons, howner]
    by_cases hcl : c ∈ l
    · simp [hcl]
    by_cases hcd : c = d
    · subst hcd
      simp [hcl, dropNode]
    · simp [hcl, hcd, dropNode]

end Effects

section Invariant

variable {K : Type*} [Field K] [LinearOrder K]

/-- The current cells are a partition into cells that the types of the source can hold, and the
other maps agree with `cellToHostMap`. -/
structure Inv (rect : Box K) (base : K) (s : CoordMaps H) : Prop where
  partitions : Partitions {c | s.IsCurrent c} rect base
  valid : ∀ c, s.IsCurrent c →
    (0 ≤ c.x ∧ c.x < 2 ^ 31) ∧ (0 ≤ c.y ∧ c.y < 2 ^ 31) ∧ c.depth < 32
  faithful : s.ownership.Faithful
  owner : ∀ c id, s.cellOwner c = some id → id = c.meshID ∧ s.IsCurrent c
  paired : s.Paired

variable {rect : Box K} {base : K} {s s' : CoordMaps H} {parent c : CellID}

lemma Inv.inRange (h : s.Inv rect base) (hc : s.IsCurrent c) : c.InRange := by
  obtain ⟨⟨hx, hx'⟩, ⟨hy, hy'⟩, hd⟩ := h.valid c hc
  exact ⟨⟨by omega, hx'⟩, ⟨by omega, hy'⟩, by omega⟩

lemma isCurrent_of_map {host : H} (h : s.ownership.cellToHostMap c = some host) :
    s.IsCurrent c := by
  rw [IsCurrent, h]
  rfl

variable [DecidableEq H] {isLocal : H → Bool}

lemma isSome_commit {o : Ownership H} (m : TopologyMutation H) (pre : CellID → Option H)
    (c : CellID) :
    (((o.applyMutation m).applyRegistryDelta m pre).cellToHostMap c).isSome = true ↔
      c ∈ m.add.map Prod.fst ∨ c ∉ m.remove ∧ (o.cellToHostMap c).isSome = true := by
  rw [cellToHostMap_applyRegistryDelta]
  cases hadd : m.add.lookup c with
  | some h =>
    have hmem : c ∈ m.add.map Prod.fst := by
      by_contra hnot
      have hnone : m.add.lookup c = none := by
        rw [lookup_eq_none_iff]
        intro entry hentry
        have hne : c ≠ entry.1 := fun heq => hnot (heq ▸ mem_map_of_mem hentry)
        simpa using hne
      rw [hadd] at hnone
      cases hnone
    rw [cellToHostMap_applyMutation_of_add hadd]
    simp only [Option.isSome_some, true_iff]
    exact .inl hmem
  | none =>
    have hnot : c ∉ m.add.map Prod.fst := by
      intro hmem
      obtain ⟨entry, hentry, rfl⟩ := mem_map.mp hmem
      have := lookup_eq_none_iff.mp hadd entry hentry
      simp at this
    rw [cellToHostMap_applyMutation_of_remove hadd]
    by_cases hrem : c ∈ m.remove
    · simp [hrem, hnot]
    · simp [hrem, hnot]

section Split

variable {srcHost : H} {childHosts : List H}

lemma ownership_applySplitCommit (isLocal : H → Bool) (req : CellTransferRequest H) :
    (s.applySplitCommit isLocal req).ownership =
      (s.ownership.applyMutation req.mutation).applyRegistryDelta req.mutation
        (s.ownership.preOwnership req) := by
  have hcreate : (s.createChildren isLocal req).ownership = s.ownership :=
    (cellOwner_foldl_createNode _ s req.srcCell).2
  unfold applySplitCommit applyRegistryDelta stepSplitApplyCoordMutation
  simp only
  split
  · simp only [dropNode, hcreate]
  · simp only [hcreate]

omit [DecidableEq H] in
lemma mem_add_split (hlen : childHosts.length = 4) :
    c ∈ (split 0 parent srcHost childHosts).mutation.add.map Prod.fst ↔
      c ∈ parent.children := by
  show c ∈ (parent.children.zip childHosts).map Prod.fst ↔ _
  rw [map_fst_children_zip hlen]

lemma isCurrent_applySplitCommit (hlen : childHosts.length = 4) :
    (s.applySplitCommit isLocal (.split 0 parent srcHost childHosts)).IsCurrent c ↔
      s.IsCurrent c ∧ c ≠ parent ∨ c ∈ parent.children := by
  rw [IsCurrent, ownership_applySplitCommit, isSome_commit, mem_add_split hlen]
  show _ ∨ c ∉ [parent] ∧ s.IsCurrent c ↔ _
  rw [mem_singleton]
  tauto

lemma paired_applySplitCommit (h : s.Paired) (req : CellTransferRequest H) :
    (s.applySplitCommit isLocal req).Paired := by
  have hcreate : (s.createChildren isLocal req).Paired :=
    Paired.foldl (fun h d => h.createNode d) _ h
  show (stepSplitApplyCoordMutation req (s.createChildren isLocal req)).Paired
  unfold stepSplitApplyCoordMutation
  simp only
  split
  · exact Paired.dropNode hcreate _
  · exact hcreate

lemma cellOwner_applySplitCommit (h : s.Paired) {id : String}
    (hid : (s.applySplitCommit isLocal (.split 0 parent srcHost childHosts)).cellOwner c =
      some id) :
    c ∈ parent.children ∧ id = c.meshID ∨ s.cellOwner c = some id ∧ c ≠ parent := by
  set req := split 0 parent srcHost childHosts with hreq
  generalize hl : (req.commands.filter fun cmd => isLocal cmd.destHostID).map (·.destCellID) = l
  have hsub : ∀ c ∈ l, c ∈ parent.children := by
    intro c hc
    rw [← hl] at hc
    obtain ⟨cmd, hcmd, rfl⟩ := mem_map.mp hc
    have hmem := mem_of_mem_filter hcmd
    rw [hreq] at hmem
    simp only [split, mem_mapIdx] at hmem
    obtain ⟨i, hi, rfl⟩ := hmem
    exact (of_mem_zip (getElem_mem hi)).1
  have hcreate : s.createChildren isLocal req = l.foldl createNode s := by
    rw [createChildren, hl]
  have hnew : ∀ {c id}, (l.foldl createNode s).cellOwner c = some id →
      c ∈ parent.children ∧ id = c.meshID ∨ s.cellOwner c = some id := by
    intro c id hid
    rw [(cellOwner_foldl_createNode l s c).1] at hid
    split at hid
    · rename_i hcl
      exact .inl ⟨hsub c hcl, (Option.some.inj hid).symm⟩
    · exact .inr hid
  have hsrc : req.srcCell = parent := rfl
  have hpaired : (l.foldl createNode s).Paired := Paired.foldl (fun h d => h.createNode d) l h
  unfold applySplitCommit applyRegistryDelta stepSplitApplyCoordMutation at hid
  simp only [hcreate, hsrc] at hid
  split at hid
  · -- the process runs the parent
    by_cases hcp : c = parent
    · simp [dropNode, hcp] at hid
    · rw [cellOwner_dropNode_of_ne hcp] at hid
      exact (hnew hid).imp_right fun hid => ⟨hid, hcp⟩
  · -- it does not, so the parent is not in its maps
    rename_i hout
    have hcp : c ≠ parent := by
      rintro rfl
      exact hout ((hpaired c).mpr (by rw [hid]; rfl))
    exact (hnew hid).imp_right fun hid => ⟨hid, hcp⟩

lemma inv_split [IsStrictOrderedRing K] (hbase : 0 < base) (h : s.Inv rect base)
    (howner : s.ownership.OwnerOf parent srcHost) (hlen : childHosts.length = 4)
    (hd : parent.depth + 1 < 32) (hfit : parent.ChildrenFit) :
    (s.applySplitCommit isLocal (.split 0 parent srcHost childHosts)).Inv rect base := by
  have hmap := h.faithful.map_of_ownerOf howner
  have hparent : s.IsCurrent parent := isCurrent_of_map hmap
  have hcurrent : {c | (s.applySplitCommit isLocal
      (.split 0 parent srcHost childHosts)).IsCurrent c} =
        {c | s.IsCurrent c ∧ c ≠ parent ∨ c ∈ parent.children} :=
    Set.ext fun c => isCurrent_applySplitCommit hlen
  refine ⟨?_, ?_, ?_, ?_, paired_applySplitCommit h.paired _⟩
  · rw [hcurrent]
    exact h.partitions.split hbase hparent hd hfit
  · intro c hc
    rcases (isCurrent_applySplitCommit hlen).mp hc with ⟨hc, -⟩ | hc
    · exact h.valid c hc
    · obtain ⟨⟨hx₀, -⟩, ⟨hy₀, -⟩, -⟩ := h.valid parent hparent
      obtain ⟨i, j, hi, hj, rfl⟩ := (mem_children_iff_of_fit hfit).mp hc
      obtain ⟨hx, hy⟩ := hfit
      unfold int32 at hx hy
      refine ⟨⟨?_, ?_⟩, ⟨?_, ?_⟩, hd⟩ <;> dsimp only <;> omega
  · rw [ownership_applySplitCommit]
    refine faithful_commit h.faithful ?_ ?_
    · intro c _ host hhost
      rw [preOwnership_eq, hhost]
      intro cmd hcmd
      simp only [split, mem_mapIdx] at hcmd
      obtain ⟨i, -, rfl⟩ := hcmd
      exact hmap
    · intro entry hentry
      have hchild : entry.1 ∈ parent.children := (of_mem_zip hentry).1
      refine ⟨?_, lookup_of_nodup ?_ hentry⟩
      · have hnot := h.partitions.child_notMem hbase hparent hd hfit hchild
        simpa [IsCurrent] using hnot
      · show ((parent.children.zip childHosts).map Prod.fst).Nodup
        rw [map_fst_children_zip hlen]
        exact children_nodup parent
  · intro c id hid
    rcases cellOwner_applySplitCommit h.paired hid with ⟨hc, rfl⟩ | ⟨hid, hcp⟩
    · exact ⟨rfl, (isCurrent_applySplitCommit hlen).mpr (.inr hc)⟩
    · obtain ⟨rfl, hc⟩ := h.owner c id hid
      exact ⟨rfl, (isCurrent_applySplitCommit hlen).mpr (.inl ⟨hc, hcp⟩)⟩

end Split

section Merge

variable {siblingHosts : List H} {choice : H}

lemma ownership_applyMergeCommit (req : CellTransferRequest H) :
    (s.applyMergeCommit req).ownership =
      (s.ownership.applyMutation req.mutation).applyRegistryDelta req.mutation
        (s.ownership.preOwnership req) := by
  unfold applyMergeCommit applyRegistryDelta stepMergeApplyCoordMutation
  simp only
  split
  · simp only [createNode, dropNode, (cellOwner_foldl_dropNode _ _ req.srcCell).2]
  · simp only [(cellOwner_foldl_dropNode _ _ req.srcCell).2]

lemma isCurrent_applyMergeCommit :
    (s.applyMergeCommit (.merge 0 parent siblingHosts choice)).IsCurrent c ↔
      s.IsCurrent c ∧ c ∉ parent.children ∨ c = parent := by
  rw [IsCurrent, ownership_applyMergeCommit, isSome_commit]
  show c ∈ [parent] ∨ c ∉ parent.children ∧ s.IsCurrent c ↔ _
  rw [mem_singleton]
  tauto

lemma paired_applyMergeCommit (h : s.Paired) (req : CellTransferRequest H) :
    (s.applyMergeCommit req).Paired := by
  show (stepMergeApplyCoordMutation req s).Paired
  unfold stepMergeApplyCoordMutation
  simp only
  have hstart : Paired
    (CoordMaps.mk (s.ownership.applyMutation req.mutation) s.cells s.cellOwner) := h
  split
  · exact ((Paired.foldl (fun h d => h.dropNode d) _ hstart).dropNode _).createNode _
  · exact Paired.foldl (fun h d => h.dropNode d) _ hstart

lemma cellOwner_applyMergeCommit (h : s.Paired) {id : String}
    (hid : (s.applyMergeCommit (.merge 0 parent siblingHosts choice)).cellOwner c = some id) :
    c = parent ∧ id = c.meshID ∨ s.cellOwner c = some id ∧ c ∉ parent.children := by
  have hsrc : (merge 0 parent siblingHosts choice).srcCell = parent := rfl
  unfold applyMergeCommit applyRegistryDelta stepMergeApplyCoordMutation at hid
  simp only [hsrc] at hid
  generalize ((merge 0 parent siblingHosts choice).commands.map
    (·.destCellID)).headD parent = survivor at hid
  generalize hs₁ : CoordMaps.mk (s.ownership.applyMutation
    (merge 0 parent siblingHosts choice).mutation) s.cells s.cellOwner = s₁ at hid
  have howner₁ : s₁.cellOwner = s.cellOwner := by
    rw [← hs₁]
  have hpaired₁ : s₁.Paired := by
    rw [← hs₁]
    exact h
  -- the donors are dropped
  have hdrop : ∀ {c id}, c ≠ survivor →
      ((parent.children.filter (· ≠ survivor)).foldl dropNode s₁).cellOwner c = some id →
        s.cellOwner c = some id ∧ c ∉ parent.children := by
    intro c id hcs hid
    rw [(cellOwner_foldl_dropNode _ s₁ c).1, howner₁] at hid
    split at hid
    · cases hid
    · rename_i hcl
      exact ⟨hid, fun hcc => hcl (mem_filter.mpr ⟨hcc, by simpa using hcs⟩)⟩
  have hpaired := Paired.foldl (fun h d => h.dropNode d) (parent.children.filter (· ≠ survivor))
    hpaired₁
  split at hid
  · -- the process runs the survivor, which becomes the parent
    by_cases hcp : c = parent
    · subst hcp
      have hid' : c.meshID = id := by simpa [createNode] using hid
      exact .inl ⟨rfl, hid'.symm⟩
    rw [cellOwner_createNode_of_ne hcp] at hid
    have hcs : c ≠ survivor := by
      rintro rfl
      simp [dropNode] at hid
    rw [cellOwner_dropNode_of_ne hcs] at hid
    exact .inr (hdrop hcs hid)
  · -- it does not, so no sibling is left in its maps
    rename_i hout
    have hcs : c ≠ survivor := by
      rintro rfl
      exact hout ((hpaired c).mpr (by rw [hid]; rfl))
    exact .inr (hdrop hcs hid)

lemma inv_merge [IsStrictOrderedRing K] (hbase : 0 < base) (h : s.Inv rect base)
    (hlen : siblingHosts.length = 4) (hfit : parent.ChildrenFit)
    (howner : ∀ a ∈ parent.children.zip siblingHosts, s.ownership.OwnerOf a.1 a.2) :
    (s.applyMergeCommit (.merge 0 parent siblingHosts choice)).Inv rect base := by
  have hmap : ∀ a ∈ parent.children.zip siblingHosts, s.ownership.cellToHostMap a.1 = some a.2 :=
    fun a ha => h.faithful.map_of_ownerOf (howner a ha)
  have hchild : ∀ c ∈ parent.children, s.IsCurrent c := by
    intro c hc
    rw [← map_fst_children_zip hlen] at hc
    obtain ⟨a, ha, rfl⟩ := mem_map.mp hc
    exact isCurrent_of_map (hmap a ha)
  -- the first child says that the parent is not too deep
  have hfirst := h.valid _ (hchild _ (mem_cons_self (l := parent.children.tail)))
  have hd : parent.depth + 1 < 32 := hfirst.2.2
  have hparent : ¬ s.IsCurrent parent := fun hp =>
    h.partitions.child_notMem hbase hp hd hfit mem_cons_self (hchild _ mem_cons_self)
  have hcurrent : {c | (s.applyMergeCommit (.merge 0 parent siblingHosts choice)).IsCurrent c} =
      {c | s.IsCurrent c ∧ c ∉ parent.children ∨ c = parent} :=
    Set.ext fun c => isCurrent_applyMergeCommit
  refine ⟨?_, ?_, ?_, ?_, paired_applyMergeCommit h.paired _⟩
  · rw [hcurrent]
    exact h.partitions.merge hbase hd hfit hchild
  · intro c hc
    rcases isCurrent_applyMergeCommit.mp hc with ⟨hc, -⟩ | rfl
    · exact h.valid c hc
    · obtain ⟨⟨hx, hx'⟩, ⟨hy, hy'⟩, -⟩ := hfirst
      dsimp only at hx hx' hy hy'
      rw [hfit.1] at hx hx'
      rw [hfit.2] at hy hy'
      exact ⟨⟨by omega, by omega⟩, ⟨by omega, by omega⟩, by omega⟩
  · rw [ownership_applyMergeCommit]
    refine faithful_commit h.faithful ?_ ?_
    · intro c _ host hhost
      rw [preOwnership_eq, hhost]
      intro cmd hcmd
      simp only [CellTransferRequest.merge, mem_map] at hcmd
      obtain ⟨donor, hdonor, rfl⟩ := hcmd
      exact hmap donor (mem_of_mem_eraseIdx hdonor)
    · intro entry hentry
      obtain rfl := mem_singleton.mp hentry
      refine ⟨?_, by simp [CellTransferRequest.merge]⟩
      simpa [IsCurrent] using hparent
  · intro c id hid
    rcases cellOwner_applyMergeCommit h.paired hid with ⟨rfl, rfl⟩ | ⟨hid, hcc⟩
    · exact ⟨rfl, isCurrent_applyMergeCommit.mpr (.inr rfl)⟩
    · obtain ⟨rfl, hc⟩ := h.owner c id hid
      exact ⟨rfl, isCurrent_applyMergeCommit.mpr (.inl ⟨hc, hcc⟩)⟩

end Merge

lemma inv_step [IsStrictOrderedRing K] (hbase : 0 < base) (h : s.Inv rect base)
    {commit : TilingCommit H} (hstep : s.step isLocal commit = some s') : s'.Inv rect base := by
  cases commit with
  | split parent srcHost childHosts =>
    simp only [step, Option.ite_none_right_eq_some, Option.some.injEq] at hstep
    obtain ⟨⟨howner, hlen, hd, hfit⟩, rfl⟩ := hstep
    exact inv_split hbase h howner hlen hd hfit
  | merge parent siblingHosts choice =>
    simp only [step, Option.ite_none_right_eq_some, Option.some.injEq] at hstep
    obtain ⟨⟨hlen, hfit, hall⟩, rfl⟩ := hstep
    refine inv_merge hbase h hlen hfit fun a ha => ?_
    exact of_decide_eq_true (all_eq_true.mp hall a ha)

/-- The cells are those of the grid. -/
structure Started (x₀ y₀ : ℤ) (width height : ℕ) (s : CoordMaps H) : Prop where
  current : ∀ c, s.IsCurrent c ↔ c ∈ gridCells x₀ y₀ width height
  faithful : s.ownership.Faithful
  owner : ∀ c id, s.cellOwner c = some id → id = c.meshID ∧ s.IsCurrent c
  paired : s.Paired

omit [DecidableEq H] in
lemma Started.inv [IsStrictOrderedRing K] {x₀ y₀ : ℤ} {width height : ℕ} (hbase : 0 < base)
    (hx₀ : 0 ≤ x₀) (hy₀ : 0 ≤ y₀) (hx : x₀ + width ≤ 2 ^ 31) (hy : y₀ + height ≤ 2 ^ 31)
    (h : s.Started x₀ y₀ width height) : s.Inv (gridBox x₀ y₀ width height base) base := by
  refine ⟨?_, ?_, h.faithful, h.owner, h.paired⟩
  · have hcurrent : {c | s.IsCurrent c} = gridCells x₀ y₀ width height := Set.ext h.current
    rw [hcurrent]
    exact partitions_gridCells x₀ y₀ width height hbase
  · intro c hc
    obtain ⟨hd, ⟨hcx, hcx'⟩, ⟨hcy, hcy'⟩⟩ := (h.current c).mp hc
    exact ⟨⟨by omega, by omega⟩, ⟨by omega, by omega⟩, by omega⟩

lemma owned_iff (h : s.ownership.Faithful) : s.ownership.owned c = true ↔ s.IsCurrent c := by
  rw [owned, Bool.or_eq_true]
  refine or_iff_right_of_imp fun hmem => ?_
  cases howners : s.ownership.ownersOf c with
  | nil => simp [howners] at hmem
  | cons host hosts => exact isCurrent_of_map (h c host (howners ▸ mem_cons_self))

lemma cellOwnerAtPos_iff (h : s.Inv rect base) (hc : s.IsCurrent c) {x y : K}
    (hpos : (c.worldBounds base).Contains x y) {answer : String} :
    s.CellOwnerAtPos base x y answer ↔ answer = c.meshID := by
  have huniq : ∀ {d : CellID}, s.IsCurrent d → (d.worldBounds base).Contains x y → d = c :=
    fun hd hdpos => h.partitions.unique hd hc hdpos hpos
  have hparse : ∀ {d : CellID}, s.IsCurrent d → parseCellID d.meshID = some d :=
    fun hd => parseCellID_meshID (h.inRange hd)
  constructor
  · rintro (⟨d, hid, hdpos⟩ | ⟨-, ⟨key, d, howned, hkey, hdpos, rfl⟩ | ⟨hnone, -⟩⟩)
    · -- a cell of the process
      obtain ⟨rfl, hd⟩ := h.owner d answer hid
      rw [huniq hd hdpos]
    · -- a cell of another process
      have hd := (owned_iff h.faithful).mp howned
      obtain rfl : key = d := Option.some.inj ((hparse hd).symm.trans hkey)
      rw [huniq hd hdpos]
    · exact absurd hpos (hnone c c ((owned_iff h.faithful).mpr hc) (hparse hc))
  · rintro rfl
    by_cases hhit : ∃ d id, s.cellOwner d = some id ∧ (d.worldBounds base).Contains x y
    · obtain ⟨d, id, hid, hdpos⟩ := hhit
      obtain ⟨rfl, hd⟩ := h.owner d id hid
      obtain rfl := huniq hd hdpos
      exact .inl ⟨d, hid, hdpos⟩
    · refine .inr ⟨fun d id hid hdpos => hhit ⟨d, id, hid, hdpos⟩, .inl ?_⟩
      exact ⟨c, c, (owned_iff h.faithful).mpr hc, hparse hc, hpos, rfl⟩

lemma parent_of_mem_children (hfit : parent.ChildrenFit) (hx : 0 ≤ parent.x) (hy : 0 ≤ parent.y)
    (hc : c ∈ parent.children) : c.parent = parent := by
  obtain ⟨i, j, hi, hj, rfl⟩ := (mem_children_iff_of_fit hfit).mp hc
  have hhalf : ∀ {v k : ℤ}, 0 ≤ v → (k = 0 ∨ k = 1) → (v * 2 + k).tdiv 2 = v := by
    intro v k hv hk
    rw [Int.tdiv_eq_ediv_of_nonneg (by omega)]
    omega
  simp [CellID.parent, hhalf hx hi, hhalf hy hj]

omit [DecidableEq H] in
lemma ownerOf_of_map (h : s.ownership.Faithful) {host : H}
    (hmap : s.ownership.cellToHostMap c = some host) : s.ownership.OwnerOf c host := by
  cases howners : s.ownership.ownersOf c with
  | nil => exact .inr ⟨howners, hmap⟩
  | cons g hosts =>
    have hg : g ∈ s.ownership.ownersOf c := howners ▸ mem_cons_self
    obtain rfl : g = host := Option.some.inj ((h c g hg).symm.trans hmap)
    exact .inl hg

lemma exists_merge_of_split {srcHost : H} {childHosts : List H} (hlen : childHosts.length = 4)
    (hfit : parent.ChildrenFit)
    (h : (s.applySplitCommit isLocal (.split 0 parent srcHost childHosts)).ownership.Faithful) :
    ∃ s₂, (s.applySplitCommit isLocal (.split 0 parent srcHost childHosts)).step isLocal
      (.merge parent childHosts srcHost) = some s₂ := by
  refine ⟨_, if_pos ⟨hlen, hfit, all_eq_true.mpr fun a ha => decide_eq_true ?_⟩⟩
  refine ownerOf_of_map h ?_
  rw [ownership_applySplitCommit, cellToHostMap_applyRegistryDelta]
  refine cellToHostMap_applyMutation_of_add (lookup_of_nodup ?_ ha)
  show ((parent.children.zip childHosts).map Prod.fst).Nodup
  rw [map_fst_children_zip hlen]
  exact children_nodup parent

lemma isCurrent_merge_of_split [IsStrictOrderedRing K] (hbase : 0 < base) (h : s.Inv rect base)
    (hparent : s.IsCurrent parent) (hd : parent.depth + 1 < 32) (hfit : parent.ChildrenFit)
    {srcHost choice : H} {childHosts siblingHosts : List H} (hlen : childHosts.length = 4) :
    ((s.applySplitCommit isLocal (.split 0 parent srcHost childHosts)).applyMergeCommit
      (.merge 0 parent siblingHosts choice)).IsCurrent c ↔ s.IsCurrent c := by
  have hchild : c ∈ parent.children → ¬ s.IsCurrent c :=
    fun hc => h.partitions.child_notMem hbase hparent hd hfit hc
  rw [isCurrent_applyMergeCommit, isCurrent_applySplitCommit hlen]
  by_cases hcp : c = parent
  · subst hcp
    simp [hparent]
  · tauto

/-- **Every reachable tiling is a partition**: a position of the grid is in exactly one current
cell, which is the answer of `CellOwnerAtPos`, and a merge gives back what a split took. -/
theorem partition_of_run [IsStrictOrderedRing K] {x₀ y₀ : ℤ} {width height : ℕ} {s₀ : CoordMaps H}
    (hbase : 0 < base) (hx₀ : 0 ≤ x₀) (hy₀ : 0 ≤ y₀) (hx : x₀ + width ≤ 2 ^ 31)
    (hy : y₀ + height ≤ 2 ^ 31) (h₀ : s₀.Started x₀ y₀ width height)
    (hrun : Run (Steps (step isLocal)) Always s₀ s) :
    (∀ x y, (gridBox x₀ y₀ width height base).Contains x y →
      ∃ c, (s.IsCurrent c ∧ (c.worldBounds base).Contains x y ∧
          ∀ d, s.IsCurrent d → (d.worldBounds base).Contains x y → d = c) ∧
        ∀ answer, s.CellOwnerAtPos base x y answer ↔ answer = c.meshID) ∧
      (∀ c d, s.IsCurrent c → s.IsCurrent d → c.meshID = d.meshID → c = d) ∧
      ∀ parent srcHost childHosts s₁, s.step isLocal (.split parent srcHost childHosts) = some s₁ →
        (∀ c ∈ parent.children, c.parent = parent) ∧
          (∃ siblingHosts choice s₂,
            s₁.step isLocal (.merge parent siblingHosts choice) = some s₂) ∧
          ∀ siblingHosts choice s₂, s₁.step isLocal (.merge parent siblingHosts choice) = some s₂ →
            ∀ c, s₂.IsCurrent c ↔ s.IsCurrent c := by
  have h : s.Inv (gridBox x₀ y₀ width height base) base := by
    refine hrun.invariant (I := Inv (gridBox x₀ y₀ width height base) base)
       (h₀.inv hbase hx₀ hy₀ hx hy) ?_
    intro t u commit ht _ hstep
    exact inv_step hbase ht hstep
  refine ⟨?_, ?_, ?_⟩
  · intro x y hpos
    obtain ⟨c, hc, hcpos⟩ := h.partitions.covers hpos
    refine ⟨c, ⟨hc, hcpos, fun d hd hdpos => h.partitions.unique hd hc hdpos hcpos⟩, ?_⟩
    exact fun answer => cellOwnerAtPos_iff h hc hcpos
  · intro c d hc hd hmesh
    exact meshID_inj (h.inRange hc) (h.inRange hd) hmesh
  · intro parent srcHost childHosts s₁ hsplit
    have h₁ := inv_step hbase h hsplit
    simp only [step, Option.ite_none_right_eq_some, Option.some.injEq] at hsplit
    obtain ⟨⟨howner, hlen, hd, hfit⟩, rfl⟩ := hsplit
    have hparent : s.IsCurrent parent := isCurrent_of_map (h.faithful.map_of_ownerOf howner)
    obtain ⟨⟨hpx, -⟩, ⟨hpy, -⟩, -⟩ := h.valid parent hparent
    refine ⟨fun c hc => parent_of_mem_children hfit hpx hpy hc, ?_, ?_⟩
    · exact ⟨childHosts, srcHost, exists_merge_of_split hlen hfit h₁.faithful⟩
    intro siblingHosts choice s₂ hmerge c
    simp only [step, Option.ite_none_right_eq_some, Option.some.injEq] at hmerge
    obtain ⟨-, rfl⟩ := hmerge
    exact isCurrent_merge_of_split hbase h hparent hd hfit hlen

end Invariant

def oneCell : CoordMaps Bool where
  ownership :=
    ⟨fun c => if c = ⟨0, 0, 0⟩ then some false else none, [false, true],
      fun host => if host then [] else [⟨0, 0, 0⟩]⟩
  cells := {⟨0, 0, 0⟩}
  cellOwner := fun c => if c = ⟨0, 0, 0⟩ then some c.meshID else none

lemma started_oneCell : oneCell.Started 0 0 1 1 := by
  refine ⟨?_, ?_, ?_, ?_⟩
  · rintro ⟨x, y, depth⟩
    simp only [IsCurrent, oneCell, gridCells, Set.mem_ofPred_eq, CellID.mk.injEq]
    split <;> simp <;> omega
  · intro c host hhost
    obtain ⟨-, howned⟩ := mem_ownersOf.mp hhost
    cases host with
    | false =>
      obtain rfl : c = ⟨0, 0, 0⟩ := by simpa [oneCell] using howned
      rfl
    | true => simp [oneCell] at howned
  · intro c id hid
    simp only [oneCell, Option.ite_none_right_eq_some, Option.some.injEq] at hid
    obtain ⟨rfl, rfl⟩ := hid
    exact ⟨rfl, rfl⟩
  · intro c
    simp [oneCell]

theorem partition_of_run_split : ∃ s, Run (Steps (step not)) Always oneCell s ∧
    s.ownership.cellToHostMap ⟨1, 1, 1⟩ = some true ∧
      ∀ x y, (gridBox 0 0 1 1 (8 : ℚ)).Contains x y →
        ∃ c, s.IsCurrent c ∧ (c.worldBounds (8 : ℚ)).Contains x y ∧
          ∀ answer, s.CellOwnerAtPos (8 : ℚ) x y answer ↔ answer = c.meshID := by
  obtain ⟨s, hrun, howner⟩ := exists_run (s := oneCell) (step not) Always
    (fun s => s.ownership.cellToHostMap ⟨1, 1, 1⟩ = some true)
    [.split ⟨0, 0, 0⟩ false [false, true, false, true]] (by decide +kernel)
  refine ⟨s, hrun, howner, fun x y hpos => ?_⟩
  obtain ⟨c, ⟨hc, hcpos, -⟩, hanswer⟩ := (partition_of_run (by norm_num : (0 : ℚ) < 8) le_rfl le_rfl
    (by norm_num) (by norm_num) started_oneCell hrun).1 x y hpos
  exact ⟨c, hc, hcpos, hanswer⟩

end CoordMaps

end Mmokit
