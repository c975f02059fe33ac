/-
The identifier ranges of several hosts (`coord_assignment.go`, `mesh_control_client.go`,
`net_id_alloc.go`).

Each host is a process with an allocator of its own. The coordinator sends a `NetIDRangeGrant` ahead
of a `CellAssign`; its range is in no other grant, and it raises the floor of the host's allocator.
Nothing but the floor keeps the allocators apart: a host that creates further cells, such as the
children of a split, takes ranges above its last grant, and those belong to the grants of others.
-/
import Mmokit.Universe.NetIDUniqueness

namespace Mmokit

open Function List Option NodeProcess NetIDAllocator

namespace NodeProcess

variable {Key : Type*}

def Holds (p : NodeProcess Key) (base : UInt32) : Prop :=
  (∃ k node, p.cells k = some node ∧ node.netIDBase = base) ∨ base ∈ p.netIDAlloc.freeList

def created : ProcessEvent Key → List Key
  | .assignCell key | .receive key _ | .migrate _ key => [key]
  | .split _ children => children.map Prod.fst
  | .netIDRangeGrant _ | .spawn _ | .despawn _ _ | .stopCell _ | .merge _ _ _ _ | .depart _ => []

def countNew (p : NodeProcess Key) (keys : List Key) : ℕ := keys.countP fun k => (p.cells k).isNone

def floorTakes (p : NodeProcess Key) (ev : ProcessEvent Key) : ℕ :=
  p.countNew (created ev) - p.netIDAlloc.freeList.length

def hasRoom (p : NodeProcess Key) : ProcessEvent Key → Bool
  | .spawn key => (p.cells key).all fun node => node.nextNetID.toNat < 10000000
  | _ => true

def mints (p : NodeProcess Key) : ProcessEvent Key → List (Key × NetID)
  | .spawn key => ((p.cells key).map fun node => (key, node.mint)).toList
  | _ => []

/-- All that `q` holds was held by `p`, but for `n` ranges from the floor. -/
structure Draws (p q : NodeProcess Key) (n : ℕ) : Prop where
  size : q.netIDAlloc.size = p.netIDAlloc.size
  next_le : p.netIDAlloc.next.toNat ≤ q.netIDAlloc.next.toNat
  holds : ∀ base, q.Holds base → p.Holds base ∨
    base.toNat + 10000000 ≤ q.netIDAlloc.next.toNat ∧
      ∃ i < n, base = p.netIDAlloc.next + UInt32.ofNat i * p.netIDAlloc.size

variable {p q r : NodeProcess Key} {n : ℕ}

lemma Draws.trans (h : Draws p q n) (h' : Draws q r 0) : Draws p r n where
  size := h'.size.trans h.size
  next_le := h.next_le.trans h'.next_le
  holds base hbase := by
    rcases h'.holds base hbase with hbase | ⟨-, i, hi, -⟩
    · exact (h.holds base hbase).imp_right fun ⟨hle, hi⟩ => ⟨hle.trans h'.next_le, hi⟩
    · exact absurd hi (Nat.not_lt_zero i)

lemma draws_of_cells (halloc : q.netIDAlloc = p.netIDAlloc)
    (hcells : ∀ k node, q.cells k = some node →
      ∃ k' node', p.cells k' = some node' ∧ node'.netIDBase = node.netIDBase) : Draws p q n where
  size := by rw [halloc]
  next_le := by rw [halloc]
  holds base hbase := by
    rcases hbase with ⟨k, node, hnode, rfl⟩ | hfree
    · obtain ⟨k', node', hnode', hbase⟩ := hcells k node hnode
      exact .inl (.inl ⟨k', node', hnode', hbase⟩)
    · rw [halloc] at hfree
      exact .inl (.inr hfree)

lemma draws_setBase (start : UInt32) :
    Draws p { p with netIDAlloc := p.netIDAlloc.setBase start } n := by
  unfold setBase
  split
  · rename_i hlt
    exact ⟨rfl, (UInt32.lt_iff_toNat_lt.mp hlt).le, fun base hbase => .inl hbase⟩
  · exact ⟨rfl, le_rfl, fun base hbase => .inl hbase⟩

section Operations

variable [DecidableEq Key]

variable {key : Key}

lemma draws_createNode (hsize : p.netIDAlloc.size = netIDRangeSize) {live : List NetID}
    (hq : p.createNode key live = some q) : Draws p q (1 - p.netIDAlloc.freeList.length) ∧
      (∀ k, (q.cells k).isNone → (p.cells k).isNone ∧ k ≠ key) ∧
      (p.netIDAlloc.freeList = [] ∧ q.netIDAlloc.freeList = [] ∧
          q.netIDAlloc.next = p.netIDAlloc.next + p.netIDAlloc.size ∨
        p.netIDAlloc.freeList.length = q.netIDAlloc.freeList.length + 1 ∧
          q.netIDAlloc.next = p.netIDAlloc.next) := by
  obtain ⟨base, halloc, hnew, hold⟩ := createNode_spec hq
  have hcells : ∀ k node, q.cells k = some node →
      p.cells k = some node ∨ node.netIDBase = base := by
    intro k node hnode
    by_cases hk : k = key
    · subst hk
      obtain rfl := some.inj (hnew.symm.trans hnode)
      exact .inr rfl
    · exact .inl ((hold k hk).symm.trans hnode)
  have hnone : ∀ k, (q.cells k).isNone → (p.cells k).isNone ∧ k ≠ key := by
    intro k hk
    have hne : k ≠ key := by
      rintro rfl
      simp [hnew] at hk
    exact ⟨hold k hne ▸ hk, hne⟩
  rcases allocate_cases halloc with ⟨hfree, hnext, hsize'⟩ | ⟨hfree, hroom, rfl, heq⟩
  · -- a released range
    refine ⟨⟨hsize', hnext ▸ le_rfl, ?_⟩, hnone, .inr ⟨by simp [hfree], hnext⟩⟩
    rintro b (⟨k, node, hnode, rfl⟩ | hb)
    · rcases hcells k node hnode with hnode | hbase
      · exact .inl (.inl ⟨k, node, hnode, rfl⟩)
      · rw [hbase]
        exact .inl (.inr (hfree ▸ by simp))
    · exact .inl (.inr (hfree ▸ mem_append_left _ hb))
  · -- the floor
    have hnat := toNat_next_add hsize hroom
    refine ⟨⟨by rw [heq], by rw [heq]; dsimp only; omega, ?_⟩, hnone,
      .inl ⟨hfree, by rw [heq]; exact hfree, by rw [heq]⟩⟩
    rintro b (⟨k, node, hnode, rfl⟩ | hb)
    · rcases hcells k node hnode with hnode | hbase
      · exact .inl (.inl ⟨k, node, hnode, rfl⟩)
      · refine .inr ⟨?_, 0, by simp [hfree], by simp [hbase]⟩
        rw [hbase, heq]
        exact hnat.ge
    · rw [heq, hfree] at hb
      cases hb

variable {children : List (Key × List NetID)}

lemma draws_receiveCells (hsize : p.netIDAlloc.size = netIDRangeSize)
    (hq : children.foldlM receiveCell p = some q) :
    Draws p q (p.countNew (children.map Prod.fst) - p.netIDAlloc.freeList.length) := by
  induction children generalizing p with
  | nil =>
    obtain rfl : p = q := by simpa using hq
    exact ⟨rfl, le_rfl, fun base hbase => .inl hbase⟩
  | cons child children ih =>
    obtain ⟨p', hp', hq⟩ := bind_eq_some_iff.mp hq
    unfold receiveCell at hp'
    split at hp'
    · -- the cell is there already
      rename_i hsome
      cases hp'
      have hcount : p.countNew ((child :: children).map Prod.fst) =
          p.countNew (children.map Prod.fst) := by
        simp [countNew, isNone_eq_false_iff.mpr hsome]
      rw [hcount]
      exact ih hsize hq
    · rename_i hnone
      rw [Bool.not_eq_true, isSome_eq_false_iff] at hnone
      obtain ⟨hdraws, hcells, halloc⟩ := draws_createNode hsize hp'
      have hcount : p'.countNew (children.map Prod.fst) + 1 ≤
          p.countNew ((child :: children).map Prod.fst) := by
        have hmono : p'.countNew (children.map Prod.fst) ≤ p.countNew (children.map Prod.fst) :=
          countP_mono_left fun k _ hk => (hcells k hk).1
        simpa [countNew, countP_cons, hnone] using hmono
      have hrest := ih (hdraws.size.trans hsize) hq
      refine ⟨hrest.size.trans hdraws.size, hdraws.next_le.trans hrest.next_le, ?_⟩
      intro base hbase
      rcases hrest.holds base hbase with hbase | ⟨hle, i, hi, rfl⟩
      · rcases hdraws.holds base hbase with hbase | ⟨hle, i, hi, rfl⟩
        · exact .inl hbase
        · exact .inr ⟨hle.trans hrest.next_le, i, by omega, rfl⟩
      -- a later child, counted from the floor that this one left
      refine .inr ⟨hle, ?_⟩
      rcases halloc with ⟨hfree, hfree', hnext⟩ | ⟨hfree, hnext⟩
      · refine ⟨i + 1, ?_, ?_⟩
        · simp only [hfree, hfree', length_nil] at hi ⊢
          omega
        · have hone : UInt32.ofNat 1 * p.netIDAlloc.size = p.netIDAlloc.size := UInt32.one_mul _
          rw [hnext, hdraws.size, UInt32.ofNat_add, UInt32.add_mul, hone, UInt32.add_assoc,
            UInt32.add_comm p.netIDAlloc.size]
      · exact ⟨i, by omega, by rw [hnext, hdraws.size]⟩

lemma draws_receiveCell (hsize : p.netIDAlloc.size = netIDRangeSize) {child : Key × List NetID}
    (hq : p.receiveCell child = some q) :
    Draws p q (p.countNew [child.1] - p.netIDAlloc.freeList.length) := by
  have hq' : [child].foldlM receiveCell p = some q := by simpa using hq
  exact draws_receiveCells hsize hq'

lemma draws_releaseCells (keys : List Key) : Draws p (p.releaseCells keys) 0 := by
  have halloc : (p.releaseCells keys).netIDAlloc = { p.netIDAlloc with
      freeList := p.netIDAlloc.freeList ++ keys.filterMap fun k =>
        (p.cells k).map Node.netIDBase } :=
    foldl_release _ _
  refine ⟨by rw [halloc], by rw [halloc], ?_⟩
  rintro base (⟨k, node, hnode, rfl⟩ | hfree)
  · simp only [releaseCells] at hnode
    split at hnode
    · cases hnode
    · exact .inl (.inl ⟨k, node, hnode, rfl⟩)
  · rw [halloc, mem_append, mem_filterMap] at hfree
    rcases hfree with hfree | ⟨k, -, hnode⟩
    · exact .inl (.inr hfree)
    · obtain ⟨node, hnode, hbase⟩ := map_eq_some_iff.mp hnode
      exact .inl (.inl ⟨k, node, hnode, hbase⟩)

lemma draws_transferFrom (hsize : p.netIDAlloc.size = netIDRangeSize) {src : Key}
    (hq : p.transferFrom src children = some q) :
    Draws p q (p.countNew (children.map Prod.fst) - p.netIDAlloc.freeList.length) := by
  unfold transferFrom at hq
  cases hsrc : p.cells src with
  | none => simp [hsrc] at hq
  | some node =>
    simp only [hsrc, ite_none_right_eq_some] at hq
    obtain ⟨p', hp', rfl⟩ := map_eq_some_iff.mp hq.2
    exact (draws_receiveCells hsize hp').trans (draws_releaseCells [src])

lemma draws_setNode {old : Node} {new : Option Node} (hold : p.cells key = some old)
    (hnew : ∀ node, new = some node → node.netIDBase = old.netIDBase) :
    Draws p (p.setNode key new) n := by
  refine draws_of_cells rfl fun k node hnode => ?_
  rw [setNode_cells] at hnode
  split at hnode
  · exact ⟨key, old, hold, (hnew node hnode).symm⟩
  · exact ⟨k, node, hnode, rfl⟩

lemma draws_mergeInto {donors : List Key} {survivor parent : Key} {incoming : List NetID}
    (hq : p.mergeInto donors survivor parent incoming = some q) : Draws p q 0 := by
  unfold mergeInto at hq
  cases hsurvivor : p.cells survivor with
  | none => simp [hsurvivor] at hq
  | some node =>
    simp only [hsurvivor, ite_none_right_eq_some] at hq
    obtain ⟨-, hq⟩ := hq
    cases hq
    refine Draws.trans ?_ (draws_releaseCells donors)
    refine draws_of_cells rfl fun k m hm => ?_
    rw [setNode_cells] at hm
    split at hm
    · cases hm
      exact ⟨survivor, node, hsurvivor, rfl⟩
    rw [setNode_cells] at hm
    split at hm
    · cases hm
    · exact ⟨k, m, hm, rfl⟩

lemma draws_step (hsize : p.netIDAlloc.size = netIDRangeSize) {ev : ProcessEvent Key}
    (hstep : p.step ev = some q) : Draws p q (p.floorTakes ev) := by
  cases ev with
  | assignCell key =>
    have hq : p.receiveCell (key, []) = some q := hstep
    exact draws_receiveCell hsize hq
  | netIDRangeGrant start =>
    cases hstep
    exact draws_setBase start
  | spawn key =>
    obtain ⟨node, hnode, rfl⟩ := map_eq_some_iff.mp hstep
    refine draws_setNode hnode fun node' hnode' => ?_
    cases hnode'
    rfl
  | despawn key netID =>
    obtain ⟨node, hnode, rfl⟩ := map_eq_some_iff.mp hstep
    refine draws_setNode hnode fun node' hnode' => ?_
    cases hnode'
    rfl
  | stopCell key =>
    cases hstep
    refine draws_of_cells rfl fun k node hnode => ?_
    rw [setNode_cells] at hnode
    split at hnode
    · cases hnode
    · exact ⟨k, node, hnode, rfl⟩
  | split parent children => exact draws_transferFrom hsize hstep
  | merge donors survivor parent incoming =>
    simpa [floorTakes, countNew, created] using draws_mergeInto hstep
  | migrate src dst => exact draws_transferFrom hsize hstep
  | receive key incoming =>
    have hq : p.receiveCell (key, incoming) = some q := hstep
    exact draws_receiveCell hsize hq
  | depart keys =>
    simp only [step, ite_none_right_eq_some] at hstep
    obtain rfl := some.inj hstep.2
    simpa [floorTakes, countNew, created] using draws_releaseCells keys

end Operations

lemma mem_mints {ev : ProcessEvent Key} {m : Key × NetID} (hm : m ∈ p.mints ev)
    (hroom : p.hasRoom ev = true) : ∃ node, p.cells m.1 = some node ∧ m.2 = node.mint ∧
      node.nextNetID.toNat < 10000000 := by
  cases ev with
  | spawn key =>
    simp only [mints, mem_toList, map_eq_some_iff] at hm
    obtain ⟨node, hnode, rfl⟩ := hm
    simp only [hasRoom, hnode, all_some, decide_eq_true_eq] at hroom
    exact ⟨node, hnode, rfl, hroom⟩
  | _ => cases hm

end NodeProcess

structure NetIDCluster (Host Key : Type*) where
  processes : Host → NodeProcess Key := fun _ => {}
  nextNetIDStart : UInt32 := 0
  grants : List (Host × UInt32) := []
  minted : List (Host × Key × NetID) := []

inductive NetIDClusterEvent (Host Key : Type*)
  /-- `dispatchCellAssign` sends a grant. -/
  | dispatchGrant (host : Host)
  /-- Something happens on a host; a grant arrives in this way, or never. -/
  | process (host : Host) (ev : ProcessEvent Key)

namespace NetIDCluster

variable {Host Key : Type*} [DecidableEq Host] [DecidableEq Key]

/-- The first grant takes its range from the allocator of the coordinator's own process. -/
def seedNetIDStart (coord : Host) (s : NetIDCluster Host Key) : Option (NetIDCluster Host Key) :=
  if s.nextNetIDStart = 0 then
    (s.processes coord).netIDAlloc.allocate.map fun r =>
      { s with
        processes := update s.processes coord
          { s.processes coord with netIDAlloc := r.2 }
        nextNetIDStart := r.1 }
  else some s

def arrives (s : NetIDCluster Host Key) (host : Host) : ProcessEvent Key → Bool
  | .netIDRangeGrant start => (host, start) ∈ s.grants
  | _ => true

def step (coord : Host) (s : NetIDCluster Host Key) :
    NetIDClusterEvent Host Key → Option (NetIDCluster Host Key)
  | .dispatchGrant host =>
    (s.seedNetIDStart coord).map fun s =>
      { s with
        nextNetIDStart := s.nextNetIDStart + netIDRangeSize
        grants := s.grants ++ [(host, s.nextNetIDStart)] }
  | .process host ev =>
    if s.arrives host ev then
      ((s.processes host).step ev).map fun p =>
        { s with
          processes := update s.processes host p
          minted := s.minted ++ ((s.processes host).mints ev).map fun m => (host, m) }
    else none

/-- Grants stay within the number space, and the first one is not a released range. Ranges from the
floor of an allocator were granted to its host, or are the coordinator's own from before the first
grant. No cell mints more than its range holds. -/
def Supplied (coord : Host) (s : NetIDCluster Host Key) : NetIDClusterEvent Host Key → Prop
  | .dispatchGrant _ => s.nextNetIDStart.toNat + 10000000 < 2 ^ 32 ∧
      (s.nextNetIDStart = 0 → (s.processes coord).netIDAlloc.freeList = [])
  | .process host ev => (s.processes host).hasRoom ev = true ∧
      ∀ i < (s.processes host).floorTakes ev,
        (host, (s.processes host).netIDAlloc.next +
          UInt32.ofNat i * (s.processes host).netIDAlloc.size) ∈ s.grants ∨
        host = coord ∧ s.nextNetIDStart = 0

/-- The range was granted to the host, or the coordinator's process had it before any grant. -/
def Issued (coord : Host) (s : NetIDCluster Host Key) (host : Host) (base : UInt32) : Prop :=
  (host, base) ∈ s.grants ∨
    host = coord ∧ base.toNat + 10000000 ≤ (s.processes coord).netIDAlloc.next.toNat ∧
      ∀ grant ∈ s.grants, base.toNat + 10000000 ≤ grant.2.toNat

/-- Ranges come from a grant, and grants are apart. -/
structure Inv (coord : Host) (s : NetIDCluster Host Key) : Prop where
  size : ∀ host, (s.processes host).netIDAlloc.size = netIDRangeSize
  start : s.nextNetIDStart = 0 ↔ s.grants = []
  grant_le : ∀ grant ∈ s.grants, grant.2.toNat + 10000000 ≤ s.nextNetIDStart.toNat
  apart : ∀ a ∈ s.grants, ∀ b ∈ s.grants, a.1 ≠ b.1 → NodeProcess.Apart a.2 b.2
  held : ∀ host base, (s.processes host).Holds base → s.Issued coord host base
  minted : ∀ m ∈ s.minted, ∃ base, s.Issued coord m.1 base ∧ NodeProcess.InRange base m.2.2

variable {coord : Host} {s s' : NetIDCluster Host Key}

omit [DecidableEq Host] [DecidableEq Key] in
lemma inv_empty : ({} : NetIDCluster Host Key).Inv coord where
  size _ := rfl
  start := by simp
  grant_le := by simp
  apart := by simp
  held host base hbase := by
    rcases hbase with ⟨k, node, hnode, -⟩ | hfree
    · cases hnode
    · cases hfree
  minted := by simp

variable {host : Host} {base : UInt32}

omit [DecidableEq Host] [DecidableEq Key] in
lemma Inv.apart_of_issued (h : s.Inv coord) {host' : Host} {base' : UInt32}
    (hissued : s.Issued coord host base) (hissued' : s.Issued coord host' base')
    (hne : host ≠ host') : NodeProcess.Apart base base' := by
  rcases hissued with hgrant | ⟨rfl, -, hle⟩
  · rcases hissued' with hgrant' | ⟨rfl, -, hle'⟩
    · exact h.apart _ hgrant _ hgrant' hne
    · exact .inr (hle' _ hgrant)
  · rcases hissued' with hgrant' | ⟨rfl, -, -⟩
    · exact .inl (hle _ hgrant')
    · exact absurd rfl hne

omit [DecidableEq Host] [DecidableEq Key] in
lemma Inv.lt_of_issued (h : s.Inv coord) (hissued : s.Issued coord host base) :
    base.toNat + 10000000 < 2 ^ 32 := by
  rcases hissued with hgrant | ⟨-, hle, -⟩
  · exact (h.grant_le _ hgrant).trans_lt s.nextNetIDStart.toNat_lt
  · exact hle.trans_lt (s.processes coord).netIDAlloc.next.toNat_lt

omit [DecidableEq Host] [DecidableEq Key] in
lemma Issued.mono (h : s.Issued coord host base) (hgrants : s'.grants = s.grants)
    (hnext : (s.processes coord).netIDAlloc.next.toNat ≤
      (s'.processes coord).netIDAlloc.next.toNat) : s'.Issued coord host base := by
  unfold Issued
  rw [hgrants]
  exact h.imp_right fun ⟨hcoord, hle, hall⟩ => ⟨hcoord, hle.trans hnext, hall⟩

lemma inv_process (h : s.Inv coord) {ev : ProcessEvent Key}
    (hK : s.Supplied coord (.process host ev)) (hstep : s.step coord (.process host ev) = some s') :
    s'.Inv coord := by
  obtain ⟨hroom, htake⟩ := hK
  simp only [step, ite_none_right_eq_some] at hstep
  obtain ⟨p, hp, rfl⟩ := map_eq_some_iff.mp hstep.2
  have hdraws := draws_step (h.size host) hp
  have hnext : ∀ host', (s.processes host').netIDAlloc.next.toNat ≤
      (update s.processes host p host').netIDAlloc.next.toNat := by
    intro host'
    by_cases hne : host' = host
    · subst hne
      rw [update_self]
      exact hdraws.next_le
    · rw [update_of_ne hne]
  refine ⟨?_, h.start, h.grant_le, h.apart, ?_, ?_⟩
  · intro host'
    by_cases hne : host' = host
    · subst hne
      dsimp only
      rw [update_self, hdraws.size]
      exact h.size host'
    · dsimp only
      rw [update_of_ne hne]
      exact h.size host'
  · intro host' base hbase
    dsimp only at hbase
    by_cases hne : host' = host
    · subst hne
      rw [update_self] at hbase
      rcases hdraws.holds base hbase with hold | ⟨hle, i, hi, rfl⟩
      · exact (h.held host' base hold).mono rfl (hnext coord)
      -- a range from the floor
      rcases htake i hi with hgrant | ⟨rfl, hzero⟩
      · exact .inl hgrant
      refine .inr ⟨rfl, ?_, ?_⟩
      · dsimp only
        rw [update_self]
        exact hle
      · simp [h.start.mp hzero]
    · rw [update_of_ne hne] at hbase
      exact (h.held host' base hbase).mono rfl (hnext coord)
  · intro m hm
    rcases mem_append.mp hm with hm | hm
    · obtain ⟨base, hissued, hrange⟩ := h.minted m hm
      exact ⟨base, hissued.mono rfl (hnext coord), hrange⟩
    obtain ⟨⟨key, n⟩, hmints, rfl⟩ := mem_map.mp hm
    obtain ⟨node, hnode, rfl, hcount⟩ := mem_mints hmints hroom
    have hissued := h.held host node.netIDBase (.inl ⟨key, node, hnode, rfl⟩)
    have hmint := toNat_mint (h.lt_of_issued hissued) hcount
    exact ⟨node.netIDBase, hissued.mono rfl (hnext coord), by dsimp only; omega, by
      dsimp only
      omega⟩

/-- The coordinator has a start for its next grant, above every range that was issued. -/
structure Seeded (coord : Host) (s s' : NetIDCluster Host Key) : Prop where
  grants : s'.grants = s.grants
  minted : s'.minted = s.minted
  size : ∀ host, (s'.processes host).netIDAlloc.size = netIDRangeSize
  holds : ∀ host base, (s'.processes host).Holds base → (s.processes host).Holds base
  next_le : (s.processes coord).netIDAlloc.next.toNat ≤ (s'.processes coord).netIDAlloc.next.toNat
  fits : s'.nextNetIDStart.toNat + 10000000 < 2 ^ 32
  issued_le : ∀ host base, s.Issued coord host base →
    base.toNat + 10000000 ≤ s'.nextNetIDStart.toNat

omit [DecidableEq Key] in
lemma seeded_of_seedNetIDStart (h : s.Inv coord)
    (hfits : s.nextNetIDStart.toNat + 10000000 < 2 ^ 32)
    (hfree : s.nextNetIDStart = 0 → (s.processes coord).netIDAlloc.freeList = [])
    (hseed : s.seedNetIDStart coord = some s') : Seeded coord s s' := by
  unfold seedNetIDStart at hseed
  split at hseed
  · -- the first grant: nothing was issued but the coordinator's own ranges
    rename_i hzero
    have hgrants := h.start.mp hzero
    obtain ⟨⟨base, alloc⟩, halloc, rfl⟩ := map_eq_some_iff.mp hseed
    rcases allocate_cases halloc with ⟨happend, -⟩ | ⟨-, hroom, rfl, rfl⟩
    · rw [hfree hzero] at happend
      simp at happend
    have hnat := toNat_next_add (h.size coord) hroom
    have hlt := ((s.processes coord).netIDAlloc.next + (s.processes coord).netIDAlloc.size).toNat_lt
    refine ⟨rfl, rfl, ?_, ?_, ?_, by dsimp only; omega, ?_⟩
    · intro host
      by_cases hne : host = coord
      · subst hne
        simpa using h.size host
      · simpa [hne] using h.size host
    · intro host base hbase
      by_cases hne : host = coord
      · subst hne
        simpa [NodeProcess.Holds] using hbase
      · simpa [hne] using hbase
    · dsimp only
      rw [update_self]
      dsimp only
      omega
    · rintro host base (hgrant | ⟨-, hle, -⟩)
      · simp [hgrants] at hgrant
      · exact hle
  · -- a later grant
    rename_i hzero
    cases hseed
    refine ⟨rfl, rfl, h.size, fun _ _ hbase => hbase, le_rfl, hfits, ?_⟩
    rintro host base (hgrant | ⟨-, -, hall⟩)
    · exact h.grant_le _ hgrant
    obtain ⟨grant, hgrant⟩ := exists_mem_of_ne_nil _ fun hnil => hzero (h.start.mpr hnil)
    have := hall grant hgrant
    have := h.grant_le grant hgrant
    omega

lemma inv_dispatchGrant (h : s.Inv coord) (hK : s.Supplied coord (.dispatchGrant host))
    (hstep : s.step coord (.dispatchGrant host) = some s') : s'.Inv coord := by
  obtain ⟨t, ht, rfl⟩ := map_eq_some_iff.mp hstep
  obtain ⟨hgrants, hminted, hsize, hholds, hnext, hfits, hle⟩ :=
    seeded_of_seedNetIDStart h hK.1 hK.2 ht
  have hnat : (t.nextNetIDStart + netIDRangeSize).toNat = t.nextNetIDStart.toNat + 10000000 := by
    have hrange : netIDRangeSize.toNat = 10000000 := rfl
    rw [UInt32.toNat_add]
    omega
  have hold : ∀ grant ∈ s.grants, grant.2.toNat + 10000000 ≤ t.nextNetIDStart.toNat :=
    fun grant hgrant => hle grant.1 grant.2 (.inl hgrant)
  have hissued : ∀ host' base, s.Issued coord host' base →
      Issued coord { t with
        nextNetIDStart := t.nextNetIDStart + netIDRangeSize
        grants := t.grants ++ [(host, t.nextNetIDStart)] } host' base := by
    intro host' base hbase
    have hbound := hle host' base hbase
    rcases hbase with hgrant | ⟨rfl, hown, hall⟩
    · exact .inl (mem_append_left _ (hgrants ▸ hgrant))
    refine .inr ⟨rfl, hown.trans hnext, fun grant hgrant => ?_⟩
    rcases mem_append.mp hgrant with hgrant | hgrant
    · exact hall grant (hgrants ▸ hgrant)
    · rw [mem_singleton.mp hgrant]
      exact hbound
  refine ⟨hsize, ?_, ?_, ?_, fun host' base hbase =>
    hissued host' base (h.held _ _ (hholds _ _ hbase)),
    ?_⟩
  · have hne : t.nextNetIDStart + netIDRangeSize ≠ 0 := by
      intro hzero
      rw [hzero] at hnat
      exact absurd hnat (by simp)
    simp [hne]
  · intro grant hgrant
    dsimp only
    rcases mem_append.mp hgrant with hgrant | hgrant
    · have := hold grant (hgrants ▸ hgrant)
      omega
    · rw [mem_singleton.mp hgrant, hnat]
  · intro a ha b hb hne
    rcases mem_append.mp ha with ha | ha <;> rcases mem_append.mp hb with hb | hb
    · exact h.apart a (hgrants ▸ ha) b (hgrants ▸ hb) hne
    · rw [mem_singleton.mp hb]
      exact .inl (hold a (hgrants ▸ ha))
    · rw [mem_singleton.mp ha]
      exact .inr (hold b (hgrants ▸ hb))
    · rw [mem_singleton.mp ha, mem_singleton.mp hb] at hne
      exact absurd rfl hne
  · intro m hm
    obtain ⟨base, hbase, hrange⟩ := h.minted m (hminted ▸ hm)
    exact ⟨base, hissued _ _ hbase, hrange⟩

/-- **Hosts mint from disjoint sets**, in every run in which every range from a floor was
granted. -/
theorem minted_ne_of_run (hrun : Run (Steps (step coord)) (Supplied coord) {} s)
    {host host' : Host} {key key' : Key} {n n' : NetID} (hn : (host, key, n) ∈ s.minted)
    (hn' : (host', key', n') ∈ s.minted) (hne : host ≠ host') : n ≠ n' := by
  have h : s.Inv coord := by
    refine hrun.invariant (I := Inv coord) inv_empty ?_
    intro t u ev ht hK hstep
    cases ev with
    | dispatchGrant host => exact inv_dispatchGrant ht hK hstep
    | process host ev => exact inv_process ht hK hstep
  obtain ⟨base, hissued, hrange⟩ := h.minted _ hn
  obtain ⟨base', hissued', hrange'⟩ := h.minted _ hn'
  rintro rfl
  exact (h.apart_of_issued hissued hissued' hne).not_inRange hrange hrange'

instance Supplied.decide (coord : Host) (s : NetIDCluster Host Key) :
    ∀ ev, Decidable (s.Supplied coord ev)
  | .dispatchGrant _ => inferInstanceAs (Decidable (_ ∧ _))
  | .process _ _ => inferInstanceAs (Decidable (_ ∧ _))

def twoGrants : List (NetIDClusterEvent (Option Bool) ℕ) :=
  [.dispatchGrant (some false), .process (some false) (.netIDRangeGrant 0),
    .process (some false) (.assignCell 1),
    .dispatchGrant (some true), .process (some true) (.netIDRangeGrant 10000000),
    .process (some true) (.assignCell 2)]

theorem minted_ne_of_run_twoGrants :
    ∃ s, Run (Steps (step none)) (Supplied none) ({} : NetIDCluster (Option Bool) ℕ) s ∧
      ∃ n n', (some false, 1, n) ∈ s.minted ∧ (some true, 2, n') ∈ s.minted ∧ n ≠ n' := by
  obtain ⟨s, hrun, hn, hn'⟩ := exists_run (s := ({} : NetIDCluster (Option Bool) ℕ)) (step none)
    (Supplied none) (fun s => (some false, 1, 1) ∈ s.minted ∧ (some true, 2, 10000001) ∈ s.minted)
    (twoGrants ++ [.process (some false) (.spawn 1), .process (some true) (.spawn 2)])
    (by decide +kernel)
  exact ⟨s, hrun, _, _, hn, hn', minted_ne_of_run hrun hn hn' (by decide)⟩

/-- **The children of a split collide.** The first host splits its cell. The children take the
ranges above the host's only grant, and the first of these was granted to the other host. -/
theorem split_children_collide :
    ∃ s, Run (Steps (step none)) Always ({} : NetIDCluster (Option Bool) ℕ) s ∧
      (some true, 2, 10000001) ∈ s.minted ∧ (some false, 11, 10000001) ∈ s.minted :=
  exists_run (s := ({} : NetIDCluster (Option Bool) ℕ)) (step none) Always _
    (twoGrants ++ [.process (some true) (.spawn 2), .process (some false) (.receive 11 []),
      .process (some false) (.receive 12 []), .process (some false) (.receive 13 []),
      .process (some false) (.receive 14 []), .process (some false) (.stopCell 1),
      .process (some false) (.spawn 11)])
    (by decide +kernel)

end NetIDCluster

end Mmokit
