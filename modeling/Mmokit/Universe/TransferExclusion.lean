/-
Requests that do not share cells.

`BeginSplit`, `BeginMerge` and `BeginMigrate` look at the ownership of cells but not at the
requests in flight. So two requests on one cell can be in flight together (`requests_overlap`), and
the later commit then works with hosts that no longer own the cells.
-/
import Mmokit.Universe.TransferOutcome
import Mathlib.Tactic.IntervalCases

namespace Mmokit

open List CellTransferRequest

variable {H : Type*}

/-- The cells that a call is about: for a split and a merge the parent and the children. -/
def TransferEvent.cells : TransferEvent H → List CellID
  | .beginSplit parent .. | .beginMerge parent .. => parent :: parent.children
  | .beginMigrate cell .. => [cell]
  | _ => []

namespace CellTransferRequest

/-- The cells that a request involves: source, donors, survivor, children and parent. -/
def cells (req : CellTransferRequest H) : List CellID :=
  req.srcCell :: req.commands.flatMap fun cmd => [cmd.srcCellID, cmd.destCellID]

def recordedHost (req : CellTransferRequest H) (c : CellID) : Option H :=
  match req.commands.find? fun cmd => cmd.srcCellID = c with
  | some cmd => some cmd.srcHostID
  | none => (req.commands.find? fun cmd => cmd.destCellID = c).map CellTransferCommand.destHostID

/-- A request changes only its cells. -/
structure Footprint (req : CellTransferRequest H) : Prop where
  remove : ∀ c ∈ req.mutation.remove, c ∈ req.cells
  add : ∀ entry ∈ req.mutation.add, entry.1 ∈ req.cells

end CellTransferRequest

namespace Ownership

variable {o : Ownership H} {c : CellID}

structure Agrees (o o' : Ownership H) (c : CellID) : Prop where
  owners : o'.ownersOf c = o.ownersOf c
  map : o'.cellToHostMap c = o.cellToHostMap c

lemma Agrees.ownerOf {o' : Ownership H} (h : Agrees o o' c) {host : H} (howner : o.OwnerOf c host) :
    o'.OwnerOf c host := by
  rwa [OwnerOf, h.owners, h.map]

lemma Agrees.refl (o : Ownership H) : Agrees o o c := ⟨rfl, rfl⟩

lemma Agrees.trans {o₁ o₂ : Ownership H} (h : Agrees o o₁ c) (h' : Agrees o₁ o₂ c) :
    Agrees o o₂ c :=
  ⟨h'.owners.trans h.owners, h'.map.trans h.map⟩

lemma agrees_applyMutation {m : TopologyMutation H} (hadd : ∀ entry ∈ m.add, entry.1 ≠ c)
    (hremove : c ∉ m.remove) : Agrees o (o.applyMutation m) c := by
  refine ⟨rfl, ?_⟩
  have hlookup : m.add.lookup c = none := by
    rw [lookup_eq_none_iff]
    intro entry hentry
    simpa using (hadd entry hentry).symm
  simp [applyMutation, hlookup, hremove]

lemma agrees_foldl {α : Type*} {f : Ownership H → α → Ownership H} {l : List α}
    (hf : ∀ o, ∀ x ∈ l, Agrees o (f o x) c) (o : Ownership H) : Agrees o (l.foldl f o) c := by
  induction l generalizing o with
  | nil => exact .refl o
  | cons x l ih =>
    exact (hf o x (by simp)).trans (ih (fun o y hy => hf o y (by simp [hy])) (f o x))

variable [DecidableEq H]

lemma agrees_update (host : H) (cells : List CellID) (hcells : c ∈ cells ↔ c ∈ o.ownedCells host) :
    Agrees o { o with ownedCells := Function.update o.ownedCells host cells } c := by
  refine ⟨filter_congr fun h _ => ?_, rfl⟩
  rcases eq_or_ne h host with rfl | hne
  · simp [hcells]
  · simp [Function.update_of_ne hne]

lemma agrees_releaseCell {c' : CellID} (hne : c ≠ c') (host : H) :
    Agrees o (o.releaseCell host c') c :=
  agrees_update host _ (by simp [hne])

lemma agrees_assignCell {c' : CellID} (hne : c ≠ c') (host : H) :
    Agrees o (o.assignCell host c') c := by
  rw [assignCell]
  split
  · exact agrees_update host _ (by simp [hne])
  · exact .refl o

lemma agrees_releasePrevious {c' : CellID} (hne : c ≠ c') (pre : CellID → Option H) :
    Agrees o (o.releasePrevious pre c') c := by
  rw [releasePrevious]
  cases pre c' with
  | none => exact .refl o
  | some host => exact agrees_releaseCell hne host

lemma agrees_reassign {entry : CellID × H} (hne : c ≠ entry.1) (pre : CellID → Option H) :
    Agrees o (o.reassign pre entry) c := by
  refine Agrees.trans ?_ (agrees_assignCell hne entry.2)
  cases pre entry.1 with
  | none => exact .refl o
  | some host =>
    dsimp only
    split
    · exact agrees_releaseCell hne host
    · exact .refl o

lemma agrees_applyRegistryDelta {m : TopologyMutation H} (hadd : ∀ entry ∈ m.add, entry.1 ≠ c)
    (hremove : c ∉ m.remove) (pre : CellID → Option H) :
    Agrees o (o.applyRegistryDelta m pre) c := by
  refine Agrees.trans (agrees_foldl (fun o c' hc' => ?_) o)
    (agrees_foldl (fun o entry hentry => ?_) _)
  · have hne : c ≠ c' := fun heq => hremove (heq ▸ hc')
    exact agrees_releasePrevious hne pre
  · exact agrees_reassign (hadd entry hentry).symm pre

end Ownership

namespace Orchestrator

def Holds (s : Orchestrator H) (req : CellTransferRequest H) : Prop :=
  ∀ c ∈ req.mutation.remove, ∃ h, req.recordedHost c = some h ∧ s.ownership.OwnerOf c h

def Active (s : Orchestrator H) (req : CellTransferRequest H) : Prop :=
  (∃ id, s.inflight id = some req) ∨ ∃ stage, (req, stage) ∈ s.commits

/-- A call is for cells that no active request involves. -/
def FreeCells (s : Orchestrator H) (event : TransferEvent H) : Prop :=
  ∀ req, s.Active req → req.cells.Disjoint event.cells

/-- Requests under way have no cell in common. -/
structure Exclusive (s : Orchestrator H) : Prop where
  inv : Inv s
  footprint : ∀ {req}, s.Active req → req.Footprint
  disjoint : ∀ {a b}, s.Active a → s.Active b → a.id ≠ b.id → a.cells.Disjoint b.cells
  holds : ∀ {id req}, s.inflight id = some req → s.Holds req
  holds_commit : ∀ {req}, (req, .coordMutation) ∈ s.commits → s.Holds req

lemma exclusive_init (ownership : Ownership H) (topology : List CellID) (live : List H) :
    Exclusive { ownership := ownership, topology := topology, liveHosts := live } := by
  constructor
  · exact inv_init ..
  all_goals simp [Active]

lemma freeCells_of_quiet (s : Orchestrator H) (event : TransferEvent H) (h : event.cells = []) :
    s.FreeCells event := by
  intro req _ c _ hc
  simp [h] at hc

def aboutToCommit (s : Orchestrator H) : Option (CellTransferRequest H) :=
  s.commits.findSome? fun c => match c.2 with
    | .coordMutation => some c.1
    | _ => none

lemma mem_commits_of_aboutToCommit {s : Orchestrator H} {req : CellTransferRequest H}
    (h : s.aboutToCommit = some req) : (req, .coordMutation) ∈ s.commits := by
  obtain ⟨c, hc, heq⟩ := exists_of_findSome?_eq_some h
  split at heq
  · next hstage =>
    rw [← Option.some.inj heq, ← hstage]
    exact hc
  · cases heq

lemma cells_split {id : ℕ} {parent : CellID} {srcHost : H} {hosts : List H}
    (hlen : hosts.length = 4) :
    (∀ c ∈ (split id parent srcHost hosts).cells, c ∈ parent :: parent.children) ∧
      (split id parent srcHost hosts).Footprint := by
  obtain ⟨h₀, h₁, h₂, h₃, rfl⟩ := length_eq_four.mp hlen
  refine ⟨?_, ?_, ?_⟩ <;>
    simp [split, cells, CellID.children, mapIdx_cons]

variable [DecidableEq H] {s t : Orchestrator H} {event : TransferEvent H}
  {req : CellTransferRequest H}

lemma holds_ack {slot : ℕ} {host : H} : s.Holds (req.ack slot host) ↔ s.Holds req := Iff.rfl

section Merge

variable (id : ℕ) {parent : CellID} {hosts : List H} (choice : H)

lemma recordedHost_merge (hlen : hosts.length = 4) {c : CellID} (hc : c ∈ parent.children) :
    ∃ a ∈ parent.children.zip hosts, a.1 = c ∧
      (CellTransferRequest.merge id parent hosts choice).recordedHost c = some a.2 := by
  have hidx := CellTransferRequest.survivorIdx_lt choice hlen
  obtain ⟨h₀, h₁, h₂, h₃, rfl⟩ := length_eq_four.mp hlen
  simp only [CellTransferRequest.merge, CellTransferRequest.recordedHost]
  generalize CellTransferRequest.survivorIdx [h₀, h₁, h₂, h₃] choice = i at hidx ⊢
  simp only [CellID.children, mem_cons, not_mem_nil, or_false] at hc
  -- the survivor is one of the four, and so is the sibling
  interval_cases i <;> rcases hc with rfl | rfl | rfl | rfl <;> simp [CellID.children, eraseIdx]

lemma cells_merge (hlen : hosts.length = 4) :
    (∀ c ∈ (CellTransferRequest.merge id parent hosts choice).cells,
      c ∈ parent :: parent.children) ∧
      (CellTransferRequest.merge id parent hosts choice).Footprint := by
  have hidx := CellTransferRequest.survivorIdx_lt choice hlen
  obtain ⟨h₀, h₁, h₂, h₃, rfl⟩ := length_eq_four.mp hlen
  simp only [CellTransferRequest.merge, CellTransferRequest.cells]
  generalize CellTransferRequest.survivorIdx [h₀, h₁, h₂, h₃] choice = i at hidx ⊢
  refine ⟨?_, ?_, ?_⟩ <;> interval_cases i <;>
    simp [CellID.children, cells, eraseIdx]

end Merge

lemma begun_cells (h : s.begun event = some req) : ∀ c ∈ req.cells, c ∈ event.cells := by
  obtain ⟨parent, _, hosts, rfl, -, hlen, rfl⟩ | ⟨parent, hosts, choice, rfl, hlen, -, rfl⟩ |
    ⟨cell, _, _, rfl, -, -, rfl⟩ := begun_cases h
  · exact (cells_split hlen).1
  · exact (cells_merge _ _ hlen).1
  · simp [migrate, cells, TransferEvent.cells]

lemma begun_footprint (h : s.begun event = some req) : req.Footprint := by
  obtain ⟨parent, _, hosts, rfl, -, hlen, rfl⟩ | ⟨parent, hosts, choice, rfl, hlen, -, rfl⟩ |
    ⟨cell, _, _, rfl, -, -, rfl⟩ := begun_cases h
  · exact (cells_split hlen).2
  · exact (cells_merge _ _ hlen).2
  · constructor <;> simp [migrate, cells]

lemma begun_holds (h : s.begun event = some req) : s.Holds req := by
  obtain ⟨parent, srcHost, hosts, rfl, howner, hlen, rfl⟩ |
    ⟨parent, hosts, choice, rfl, hlen, howner, rfl⟩ | ⟨cell, _, _, rfl, -, -, rfl⟩ := begun_cases h
  · intro c hc
    obtain rfl : c = parent := by simpa [split] using hc
    obtain ⟨h₀, h₁, h₂, h₃, rfl⟩ := length_eq_four.mp hlen
    refine ⟨srcHost, ?_, howner⟩
    simp [recordedHost, split, CellID.children]
  · intro c hc
    obtain ⟨a, ha, rfl, hrec⟩ := recordedHost_merge (s.nextID + 1) choice hlen hc
    exact ⟨a.2, hrec, howner a ha⟩
  · simp [Holds, migrate]

lemma Exclusive.launch (h : Exclusive s) (hfree : s.FreeCells event)
    (hreq : s.begun event = some req) : Exclusive (s.launch req) := by
  -- an active request is the new one, or it was active
  have hactive : ∀ {a}, (s.launch req).Active a → a = req ∨ s.Active a := by
    rintro a (⟨id, hid⟩ | hcommit)
    · rw [inflight_launch] at hid
      split at hid
      · exact .inl (Option.some.inj hid).symm
      · exact .inr (.inl ⟨id, hid⟩)
    · exact .inr (.inr hcommit)
  have hdisjoint : ∀ {a}, s.Active a → a.cells.Disjoint req.cells := by
    intro a ha c hc hc'
    exact hfree a ha hc (begun_cells hreq c hc')
  constructor
  · exact h.inv.launch hreq
  · intro a ha
    rcases hactive ha with rfl | ha
    · exact begun_footprint hreq
    · exact h.footprint ha
  · intro a b ha hb hne
    rcases hactive ha with rfl | ha' <;> rcases hactive hb with rfl | hb'
    · exact absurd rfl hne
    · exact fun c hc hc' => hdisjoint hb' hc' hc
    · exact hdisjoint ha'
    · exact h.disjoint ha' hb' hne
  · intro id a ha
    rw [inflight_launch] at ha
    split at ha
    · cases ha
      show s.Holds req
      exact begun_holds hreq
    · exact h.holds ha
  · exact h.holds_commit

lemma Exclusive.holds_commitStep (h : Exclusive s) {stage : CommitStage H}
    (hmem : (req, stage) ∈ s.commits) {a : CellTransferRequest H} (ha : s.Active a)
    (hne : a.id ≠ req.id) (hold : s.Holds a) : (s.commitStep req stage).Holds a := by
  intro c hc
  obtain ⟨host, hrec, howner⟩ := hold c hc
  refine ⟨host, hrec, ?_⟩
  have hreq : s.Active req := .inr ⟨stage, hmem⟩
  have hcells : c ∉ req.cells := h.disjoint ha hreq hne ((h.footprint ha).remove c hc)
  have hadd : ∀ entry ∈ req.mutation.add, entry.1 ≠ c := by
    rintro entry hentry rfl
    exact hcells ((h.footprint hreq).add entry hentry)
  have hremove : c ∉ req.mutation.remove := fun hr => hcells ((h.footprint hreq).remove c hr)
  cases stage with
  | coordMutation => exact (Ownership.agrees_applyMutation hadd hremove).ownerOf howner
  | registryDelta pre => exact (Ownership.agrees_applyRegistryDelta hadd hremove pre).ownerOf howner
  | report => exact howner

lemma Move.active_cases (hm : Move s t) (hactive : t.Active req) :
    s.Active req ∨ ∃ old slot host, s.Active old ∧ req = old.ack slot host := by
  rcases hactive with ⟨id, hid⟩ | ⟨stage, hstage⟩
  · rcases hm.inflight_cases hid with ⟨hold, -⟩ | ⟨old, _, host, slot, hold, -, rfl, -⟩
    · exact .inl (.inl ⟨id, hold⟩)
    · exact .inr ⟨old, slot, host, .inl ⟨id, hold⟩, rfl⟩
  · rcases hm.commits_cases hstage
      with ⟨stage', hold⟩ | ⟨id, old, _, host, slot, hold, -, -, rfl, -⟩
    · exact .inl (.inr ⟨stage', hold⟩)
    · exact .inr ⟨old, slot, host, .inl ⟨id, hold⟩, rfl⟩

lemma Move.active_cells (hm : Move s t) (hactive : t.Active req) :
    ∃ old, s.Active old ∧ old.id = req.id ∧ old.cells = req.cells ∧
      (old.Footprint → req.Footprint) := by
  rcases hm.active_cases hactive with h | ⟨old, slot, host, h, rfl⟩
  · exact ⟨req, h, rfl, rfl, id⟩
  · exact ⟨old, h, rfl, rfl, fun hf => ⟨hf.remove, hf.add⟩⟩

lemma Exclusive.move (h : Exclusive s) (hm : Move s t) : Exclusive t := by
  constructor
  · exact h.inv.move hm
  · intro req hactive
    obtain ⟨old, hold, -, -, hf⟩ := hm.active_cells hactive
    exact hf (h.footprint hold)
  · intro a b ha hb hne
    obtain ⟨a', ha', hid, hcells, -⟩ := hm.active_cells ha
    obtain ⟨b', hb', hid', hcells', -⟩ := hm.active_cells hb
    rw [← hcells, ← hcells']
    exact h.disjoint ha' hb' (by rwa [hid, hid'])
  · intro id req hin
    cases hm with
    | hostsChange _ => exact h.holds hin
    | giveUp _ _ =>
      rw [inflight_giveUp] at hin
      split at hin
      · cases hin
      · exact h.holds hin
    | await hold _ =>
      rw [inflight_await] at hin
      split at hin
      · cases hin
        exact holds_ack.mpr (h.holds hold)
      · exact h.holds hin
    | complete _ _ _ =>
      rw [inflight_complete] at hin
      split at hin
      · cases hin
      · exact h.holds hin
    | rollback _ =>
      rw [inflight_rollback] at hin
      split at hin
      · cases hin
      · exact h.holds hin
    | @commitStep req' stage hmem =>
      have hold : s.inflight id = some req := by cases stage <;> exact hin
      have hne : req.id ≠ req'.id := by
        intro heq
        have := h.inv.inflight_of_commit hmem
        rw [← heq, h.inv.named hold, hold] at this
        cases this
      exact h.holds_commitStep hmem (.inl ⟨id, hold⟩) hne (h.holds hold)
  · intro req hcommit
    cases hm with
    | hostsChange _ | giveUp _ _ | await _ _ | rollback _ => exact h.holds_commit hcommit
    | complete hold _ _ =>
      rcases mem_append.mp hcommit with hcommit | hcommit
      · exact h.holds_commit hcommit
      · obtain ⟨rfl, -⟩ := Prod.mk.inj (mem_singleton.mp hcommit)
        exact holds_ack.mpr (h.holds hold)
    | @commitStep req' stage hmem =>
      have hold : (req, .coordMutation) ∈ s.commits ∧ req.id ≠ req'.id := by
        cases stage with
        | coordMutation | registryDelta _ =>
          obtain ⟨c, hc, heq⟩ := mem_map.mp hcommit
          split at heq
          · cases heq
          · next hne =>
            subst heq
            exact ⟨hc, hne⟩
        | report => simpa using mem_filter.mp hcommit
      exact h.holds_commitStep hmem (.inr ⟨_, hold.1⟩) hold.2 (h.holds_commit hold.1)

lemma Exclusive.step (h : Exclusive s) (hfree : s.FreeCells event)
    (hstep : s.step event = some t) : Exclusive t :=
  step_preserves hstep h (fun _ hreq => h.launch hfree hreq) fun ha hm => ha.move hm

/-- **Requests do not overlap** in a run in which every call is for free cells, and when a request
is committed, each cell that it removes still belongs to its recorded host. -/
theorem requests_disjoint {ownership : Ownership H} {topology : List CellID} {live : List H}
    (hrun : Run (Steps step) FreeCells
      { ownership := ownership, topology := topology, liveHosts := live } s) :
    (∀ i j a b, s.inflight i = some a → s.inflight j = some b → i ≠ j → a.cells.Disjoint b.cells) ∧
    ∀ req, (req, .coordMutation) ∈ s.commits →
      ∀ c ∈ req.mutation.remove, ∃ h, req.recordedHost c = some h ∧ s.ownership.OwnerOf c h := by
  have hs : Exclusive s :=
    hrun.invariant (I := Exclusive) (exclusive_init ..) fun h hfree hstep => h.step hfree hstep
  refine ⟨fun i j a b ha hb hne => ?_, fun req hreq => hs.holds_commit hreq⟩
  apply hs.disjoint (.inl ⟨i, ha⟩) (.inl ⟨j, hb⟩)
  rwa [hs.inv.named ha, hs.inv.named hb]

lemma step_of_begun (h : s.begun event = some req) : s.step event = some (s.launch req) := by
  obtain ⟨_, _, _, rfl, -⟩ | ⟨_, _, _, rfl, -⟩ | ⟨_, _, _, rfl, -⟩ := begun_cases h <;>
    exact Option.map_eq_some_iff.mpr ⟨req, h, rfl⟩

theorem requests_disjoint_split : ∃ s : Orchestrator ℕ, ∃ req, (req, .coordMutation) ∈ s.commits ∧
    req.mutation.remove = [⟨0, 0, 0⟩] ∧
    ∀ c ∈ req.mutation.remove, ∃ h, req.recordedHost c = some h ∧ s.ownership.OwnerOf c h := by
  have hbegin : Run (Steps step) FreeCells twoHosts
      (twoHosts.launch (.split 1 ⟨0, 0, 0⟩ 1 [1, 2, 1, 2])) := by
    refine .tail (a := .beginSplit ⟨0, 0, 0⟩ 1 [1, 2, 1, 2]) .refl ?_ ?_
    · simp [FreeCells, Active, twoHosts]
    · exact step_of_begun (by decide +kernel)
  obtain ⟨s, hrun, hs⟩ := exists_run (s := twoHosts.launch (.split 1 ⟨0, 0, 0⟩ 1 [1, 2, 1, 2])) step
    (fun _ event => event.cells = [])
    (fun s => s.aboutToCommit.map (·.mutation.remove) = some [⟨0, 0, 0⟩])
    [.onReady 1 ⟨0, 0, 1⟩ 1 true, .onReady 1 ⟨1, 1, 1⟩ 2 true, .onReady 1 ⟨1, 0, 1⟩ 2 true,
      .onReady 1 ⟨0, 1, 1⟩ 1 true]
    (by decide +kernel)
  obtain ⟨req, hreq, hremove⟩ := Option.map_eq_some_iff.mp hs
  have hmem := mem_commits_of_aboutToCommit hreq
  have hrun' := hbegin.trans (hrun.mono freeCells_of_quiet)
  exact ⟨s, req, hmem, hremove, (requests_disjoint hrun').2 req hmem⟩

/-- **Overlapping requests.** A migration of a cell is committed while a split of it is in flight;
the split then removes a cell that no longer belongs to the recorded host. -/
theorem requests_overlap : ∃ s t : Orchestrator ℕ, Run (Steps step) Always twoHosts s ∧
    (∃ a b, s.inflight 1 = some a ∧ s.inflight 2 = some b ∧ ¬ a.cells.Disjoint b.cells) ∧
    Run (Steps step) Always s t ∧
    ∃ req, (req, .coordMutation) ∈ t.commits ∧ ⟨0, 0, 0⟩ ∈ req.mutation.remove ∧
      req.recordedHost ⟨0, 0, 0⟩ = some 1 ∧ ¬ t.ownership.OwnerOf ⟨0, 0, 0⟩ 1 := by
  have hboth : Run (Steps step) Always twoHosts
      ((twoHosts.launch (.migrate 1 ⟨0, 0, 0⟩ 1 2)).launch
        (.split 2 ⟨0, 0, 0⟩ 1 [1, 2, 1, 2])) := by
    refine .tail (t := twoHosts.launch (.migrate 1 ⟨0, 0, 0⟩ 1 2))
      (a := .beginSplit ⟨0, 0, 0⟩ 1 [1, 2, 1, 2])
      (.tail (a := .beginMigrate ⟨0, 0, 0⟩ 1 2) .refl trivial ?_) trivial ?_ <;>
      exact step_of_begun (by decide +kernel)
  obtain ⟨t, hrun, hcommit, howner⟩ := exists_run
    (s := (twoHosts.launch (.migrate 1 ⟨0, 0, 0⟩ 1 2)).launch (.split 2 ⟨0, 0, 0⟩ 1 [1, 2, 1, 2]))
    step Always
    (fun t => t.aboutToCommit.map (fun req => (req.mutation.remove, req.recordedHost ⟨0, 0, 0⟩)) =
        some ([⟨0, 0, 0⟩], some 1) ∧ ¬ t.ownership.OwnerOf ⟨0, 0, 0⟩ 1)
    [.onReady 1 ⟨0, 0, 0⟩ 2 true, .commitStep 1, .commitStep 1, .commitStep 1,
      .onReady 2 ⟨0, 0, 1⟩ 1 true, .onReady 2 ⟨1, 1, 1⟩ 2 true, .onReady 2 ⟨1, 0, 1⟩ 2 true,
      .onReady 2 ⟨0, 1, 1⟩ 1 true]
    (by decide +kernel)
  obtain ⟨req, hreq, hremove⟩ := Option.map_eq_some_iff.mp hcommit
  obtain ⟨hremove, hrec⟩ := Prod.mk.inj hremove
  refine ⟨_, t, hboth, ⟨_, _, rfl, rfl, ?_⟩, hrun, req, mem_commits_of_aboutToCommit hreq, ?_, hrec,
    howner⟩
  · intro hdisjoint
    exact hdisjoint (a := ⟨0, 0, 0⟩) (by decide) (by decide)
  · simp [hremove]

end Orchestrator

end Mmokit
