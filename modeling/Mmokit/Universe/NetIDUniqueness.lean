/-
Network identifiers are unique as long as ranges are released empty.

An identifier is mintable if some cell of the process may still mint it, now or later: it lies
ahead in the range of a cell, in a released range, or beyond all ranges. The invariant is that no
live entity has a mintable identifier.
-/
import Mmokit.Universe.NetIDAlloc
import Mathlib.Data.Fintype.Basic

namespace Mmokit.NodeProcess

open List NodeProcess NetIDAllocator

variable {Key : Type*} {p q : NodeProcess Key}

def InRange (base n : UInt32) : Prop := base.toNat < n.toNat ∧ n.toNat ≤ base.toNat + 10000000

def Apart (a b : UInt32) : Prop :=
  a.toNat + 10000000 ≤ b.toNat ∨ b.toNat + 10000000 ≤ a.toNat

lemma Apart.symm {a b : UInt32} (h : Apart a b) : Apart b a := Or.symm h

lemma Apart.not_inRange {a b n : UInt32} (h : Apart a b) (ha : InRange a n) : ¬ InRange b n := by
  rintro ⟨hlo, hhi⟩
  obtain ⟨hlo', hhi'⟩ := ha
  rcases h with h | h <;> omega

/-- Some cell may mint this identifier, now or later. -/
inductive Mintable (p : NodeProcess Key) (n : NetID) : Prop
  | ahead (key : Key) (node : Node) (hnode : p.cells key = some node)
      (hrange : InRange node.netIDBase n)
      (hahead : node.netIDBase.toNat + node.nextNetID.toNat < n.toNat)
  | released (base : UInt32) (hbase : base ∈ p.netIDAlloc.freeList) (hrange : InRange base n)
  | beyond (hbeyond : p.netIDAlloc.next.toNat < n.toNat)

/-- The allocator and the cells: each range has one user, and is used in order. -/
structure Ranges (p : NodeProcess Key) : Prop where
  size : p.netIDAlloc.size = netIDRangeSize
  cell_le : ∀ k node, p.cells k = some node →
    node.netIDBase.toNat + 10000000 ≤ p.netIDAlloc.next.toNat
  free_le : ∀ base ∈ p.netIDAlloc.freeList, base.toNat + 10000000 ≤ p.netIDAlloc.next.toNat
  cells_apart : ∀ k k' node node', p.cells k = some node → p.cells k' = some node' → k ≠ k' →
    Apart node.netIDBase node'.netIDBase
  cell_free_apart : ∀ k node, p.cells k = some node → ∀ base ∈ p.netIDAlloc.freeList,
    Apart node.netIDBase base
  free_apart : p.netIDAlloc.freeList.Pairwise Apart
  count_le : ∀ k node, p.cells k = some node → node.nextNetID.toNat ≤ 10000000

/-- No live identifier can be minted again. -/
structure Inv (p : NodeProcess Key) : Prop where
  ranges : p.Ranges
  live : ∀ n, p.Live n → ¬ p.Mintable n

lemma inv_initial : ({} : NodeProcess Key).Inv where
  ranges := ⟨rfl, by simp, by simp, by simp, by simp, List.Pairwise.nil, by simp⟩
  live := by
    rintro n ⟨k, node, hnode, -⟩
    exact absurd hnode (by simp)

lemma Inv.mono (h : p.Inv) (hranges : q.Ranges) (hlive : ∀ n, q.Live n → p.Live n)
    (hmint : ∀ n, q.Mintable n → p.Mintable n) : q.Inv :=
  ⟨hranges, fun n hn hm => h.live n (hlive n hn) (hmint n hm)⟩

variable {node : Node}

lemma toNat_mint (hfit : node.netIDBase.toNat + 10000000 < 2 ^ 32)
    (hroom : node.nextNetID.toNat < 10000000) :
    node.mint.toNat = node.netIDBase.toNat + node.nextNetID.toNat + 1 := by
  unfold Node.mint
  rw [UInt32.toNat_add, UInt32.toNat_add]
  simp only [UInt32.toNat_one]
  omega

variable {key : Key}

lemma Ranges.toNat_mint (h : p.Ranges) (hnode : p.cells key = some node)
    (hroom : node.nextNetID.toNat < 10000000) :
    node.mint.toNat = node.netIDBase.toNat + node.nextNetID.toNat + 1 :=
  NodeProcess.toNat_mint ((h.cell_le key node hnode).trans_lt p.netIDAlloc.next.toNat_lt) hroom

lemma Ranges.mintable_mint (h : p.Ranges) (hnode : p.cells key = some node)
    (hroom : node.nextNetID.toNat < 10000000) : p.Mintable node.mint := by
  have hmint := h.toNat_mint hnode hroom
  refine .ahead key node hnode ⟨?_, ?_⟩ ?_ <;> omega

structure Reuses (p q : NodeProcess Key) (origin : Key → Key) : Prop where
  alloc : q.netIDAlloc = p.netIDAlloc
  cell : ∀ k node, q.cells k = some node → ∃ node', p.cells (origin k) = some node' ∧
    node'.netIDBase = node.netIDBase ∧ node'.nextNetID.toNat ≤ node.nextNetID.toNat ∧
    node.nextNetID.toNat ≤ 10000000
  injective : ∀ k k' node node', q.cells k = some node → q.cells k' = some node' →
    origin k = origin k' → k = k'

variable {origin : Key → Key}

lemma Reuses.ranges (h : Reuses p q origin) (hp : p.Ranges) : q.Ranges where
  size := h.alloc ▸ hp.size
  cell_le k node hnode := by
    obtain ⟨node', hnode', hbase, -⟩ := h.cell k node hnode
    rw [h.alloc, ← hbase]
    exact hp.cell_le _ node' hnode'
  free_le := h.alloc ▸ hp.free_le
  cells_apart k k' node node' hnode hnode' hne := by
    obtain ⟨m, hm, hbase, -⟩ := h.cell k node hnode
    obtain ⟨m', hm', hbase', -⟩ := h.cell k' node' hnode'
    rw [← hbase, ← hbase']
    exact hp.cells_apart _ _ m m' hm hm' fun heq =>
      hne (h.injective k k' node node' hnode hnode' heq)
  cell_free_apart k node hnode := by
    obtain ⟨m, hm, hbase, -⟩ := h.cell k node hnode
    rw [h.alloc, ← hbase]
    exact hp.cell_free_apart _ m hm
  free_apart := h.alloc ▸ hp.free_apart
  count_le k node hnode := by
    obtain ⟨-, -, -, -, hcount⟩ := h.cell k node hnode
    exact hcount

lemma Reuses.mintable (h : Reuses p q origin) {n : NetID} (hn : q.Mintable n) : p.Mintable n := by
  cases hn with
  | ahead k node hnode hrange hahead =>
    obtain ⟨m, hm, hbase, hle, -⟩ := h.cell k node hnode
    exact .ahead _ m hm (hbase ▸ hrange) (by rw [hbase]; omega)
  | released base hbase hrange => exact .released base (h.alloc ▸ hbase) hrange
  | beyond hbeyond => exact .beyond (h.alloc ▸ hbeyond)

lemma Inv.netIDRangeGrant (h : p.Inv) (start : UInt32) :
    { p with netIDAlloc := p.netIDAlloc.setBase start }.Inv := by
  unfold setBase
  split
  · rename_i hlt
    refine h.mono ⟨h.ranges.size, fun k node hnode => ?_, fun base hbase => ?_,
      h.ranges.cells_apart, h.ranges.cell_free_apart, h.ranges.free_apart, h.ranges.count_le⟩
      (fun n hn => hn) fun n hn => ?_
    · exact (h.ranges.cell_le k node hnode).trans hlt.le
    · exact (h.ranges.free_le base hbase).trans hlt.le
    cases hn with
    | ahead k node hnode hrange hahead => exact .ahead k node hnode hrange hahead
    | released base hbase hrange => exact .released base hbase hrange
    | beyond hbeyond => exact .beyond (hlt.trans hbeyond)
  · exact h

lemma Ranges.allocate (h : p.Ranges) {base : UInt32} {alloc : NetIDAllocator}
    (halloc : p.netIDAlloc.allocate = some (base, alloc)) :
    alloc.size = netIDRangeSize ∧ p.netIDAlloc.next.toNat ≤ alloc.next.toNat ∧
      base.toNat + 10000000 ≤ alloc.next.toNat ∧
      (∀ k node, p.cells k = some node → Apart node.netIDBase base) ∧
      (∀ b ∈ alloc.freeList, b ∈ p.netIDAlloc.freeList ∧ Apart base b) ∧
      alloc.freeList.Pairwise Apart ∧
      ∀ n, InRange base n → p.Mintable n := by
  rcases allocate_cases halloc with ⟨hfree, hnext, hsize⟩ | ⟨hfree, hroom, rfl, rfl⟩
  · -- a released range
    have hmem : base ∈ p.netIDAlloc.freeList := hfree ▸ by simp
    have hpairwise := h.free_apart
    rw [hfree, pairwise_append] at hpairwise
    refine ⟨hsize.trans h.size, hnext ▸ le_rfl, ?_, ?_, ?_, hpairwise.1, ?_⟩
    · rw [hnext]
      exact h.free_le base hmem
    · exact fun k node hnode => h.cell_free_apart k node hnode base hmem
    · intro b hb
      exact ⟨hfree ▸ mem_append_left _ hb, (hpairwise.2.2 b hb base (by simp)).symm⟩
    · exact fun n hn => .released base hmem hn
  · -- a range beyond all others
    have hnext := toNat_next_add h.size hroom
    refine ⟨h.size, by dsimp only; omega, by dsimp only; omega, ?_, ?_, ?_,
      fun n hn => .beyond hn.1⟩
    · exact fun k node hnode => .inl (h.cell_le k node hnode)
    · simp [hfree]
    · simp [hfree]

section Operations

variable [DecidableEq Key]

lemma setNode_cells (key k : Key) (node : Option Node) :
    (p.setNode key node).cells k = if k = key then node else p.cells k := by
  simp [setNode, Function.update_apply]

variable {key : Key}

lemma reuses_setNode (hp : p.Ranges) {old : Node} {new : Option Node}
    (hold : p.cells key = some old)
    (hnew : ∀ node, new = some node → old.netIDBase = node.netIDBase ∧
      old.nextNetID.toNat ≤ node.nextNetID.toNat ∧ node.nextNetID.toNat ≤ 10000000) :
    Reuses p (p.setNode key new) id where
  alloc := rfl
  cell k node hnode := by
    rw [setNode_cells] at hnode
    split at hnode
    · rename_i hk
      subst hk
      exact ⟨old, hold, hnew node hnode⟩
    · exact ⟨node, hnode, rfl, le_rfl, hp.count_le k node hnode⟩
  injective _ _ _ _ _ _ h := h

variable {node : Node}

lemma Inv.spawn (h : p.Inv) (hnode : p.cells key = some node)
    (hroom : node.nextNetID.toNat < 10000000) :
    (p.setNode key (some { node with
      nextNetID := node.nextNetID + 1, live := node.live ++ [node.mint] })).Inv := by
  have hmint := h.ranges.toNat_mint hnode hroom
  have hcount : (node.nextNetID + 1).toNat = node.nextNetID.toNat + 1 := by
    rw [UInt32.toNat_add]
    simp only [UInt32.toNat_one]
    omega
  have hreuses : Reuses p (p.setNode key (some { node with
      nextNetID := node.nextNetID + 1, live := node.live ++ [node.mint] })) id := by
    refine reuses_setNode h.ranges hnode ?_
    rintro node' hnode'
    cases hnode'
    exact ⟨rfl, by rw [hcount]; omega, by rw [hcount]; omega⟩
  refine ⟨hreuses.ranges h.ranges, ?_⟩
  -- the minted identifier itself is no longer ahead of any counter
  have hnew : ¬ (p.setNode key (some { node with
      nextNetID := node.nextNetID + 1, live := node.live ++ [node.mint] })).Mintable
        node.mint := by
    have hrange : InRange node.netIDBase node.mint := ⟨by omega, by omega⟩
    rintro (⟨k, m, hm, hrange', hahead⟩ | ⟨base, hbase, hrange'⟩ | hbeyond)
    · rw [setNode_cells] at hm
      split at hm
      · cases hm
        dsimp only at hahead
        omega
      · rename_i hk
        exact (h.ranges.cells_apart key k node m hnode hm (Ne.symm hk)).not_inRange hrange hrange'
    · exact (h.ranges.cell_free_apart key node hnode base hbase).not_inRange hrange hrange'
    · have hle := h.ranges.cell_le key node hnode
      change p.netIDAlloc.next.toNat < node.mint.toNat at hbeyond
      omega
  rintro n ⟨k, m, hm, hn⟩
  rw [setNode_cells] at hm
  split at hm
  · cases hm
    rcases mem_append.mp hn with hn | hn
    · exact fun hmintable => h.live n ⟨key, node, hnode, hn⟩ (hreuses.mintable hmintable)
    · rw [mem_singleton.mp hn]
      exact hnew
  · exact fun hmintable => h.live n ⟨k, m, hm, hn⟩ (hreuses.mintable hmintable)

lemma Inv.despawn (h : p.Inv) (hnode : p.cells key = some node) (n : NetID) :
    (p.setNode key (some { node with live := node.live.erase n })).Inv := by
  have hreuses : Reuses p (p.setNode key (some { node with live := node.live.erase n })) id := by
    refine reuses_setNode h.ranges hnode ?_
    rintro node' hnode'
    cases hnode'
    exact ⟨rfl, le_rfl, h.ranges.count_le key node hnode⟩
  refine h.mono (hreuses.ranges h.ranges) ?_ fun _ => hreuses.mintable
  rintro m ⟨k, node', hnode', hm⟩
  rw [setNode_cells] at hnode'
  split at hnode'
  · cases hnode'
    exact ⟨key, node, hnode, mem_of_mem_erase hm⟩
  · exact ⟨k, node', hnode', hm⟩

lemma Inv.stopCell (h : p.Inv) (key : Key) : (p.setNode key none).Inv := by
  have hcells : ∀ k node, (p.setNode key none).cells k = some node → p.cells k = some node := by
    intro k node hnode
    rw [setNode_cells] at hnode
    split at hnode
    · exact absurd hnode (by simp)
    · exact hnode
  have hreuses : Reuses p (p.setNode key none) id :=
    ⟨rfl, fun k node hnode => ⟨node, hcells k node hnode, rfl, le_rfl,
      h.ranges.count_le k node (hcells k node hnode)⟩, fun _ _ _ _ _ _ heq => heq⟩
  refine h.mono (hreuses.ranges h.ranges) ?_ fun _ => hreuses.mintable
  rintro n ⟨k, node, hnode, hn⟩
  exact ⟨k, node, hcells k node hnode, hn⟩

variable {live : List NetID}

lemma createNode_spec (hq : p.createNode key live = some q) :
    ∃ base, p.netIDAlloc.allocate = some (base, q.netIDAlloc) ∧
      (q.cells key = some { netIDBase := base, live := live }) ∧
      ∀ k, k ≠ key → q.cells k = p.cells k := by
  unfold createNode at hq
  cases halloc : p.netIDAlloc.allocate with
  | none => simp [halloc] at hq
  | some r =>
    simp only [halloc, Option.some.injEq] at hq
    subst hq
    exact ⟨r.1, rfl, Function.update_self _ _ _, fun k hk => Function.update_of_ne hk _ _⟩

lemma Inv.createNode (h : p.Inv) (hlive : ∀ n ∈ live, ¬ p.Mintable n)
    (hq : p.createNode key live = some q) : q.Inv ∧ ∀ n, q.Mintable n → p.Mintable n := by
  obtain ⟨base, halloc, hnew, hold⟩ := createNode_spec hq
  obtain ⟨hsize, hnext, hbase, hcells, hfree, hpairwise, hmint⟩ := h.ranges.allocate halloc
  -- a cell is the new one or an old one
  have hcell : ∀ k node, q.cells k = some node →
      (k = key ∧ node = { netIDBase := base, live := live }) ∨ p.cells k = some node := by
    intro k node hnode
    by_cases hk : k = key
    · subst hk
      exact .inl ⟨rfl, Option.some.inj (hnode.symm.trans hnew)⟩
    · exact .inr ((hold k hk).symm.trans hnode)
  have hmono : ∀ n, q.Mintable n → p.Mintable n := by
    rintro n (⟨k, node, hnode, hrange, hahead⟩ | ⟨b, hb, hrange⟩ | hbeyond)
    · rcases hcell k node hnode with ⟨-, rfl⟩ | hnode
      · exact hmint n hrange
      · exact .ahead k node hnode hrange hahead
    · exact .released b (hfree b hb).1 hrange
    · exact .beyond (hnext.trans_lt hbeyond)
  refine ⟨⟨⟨hsize, ?_, ?_, ?_, ?_, hpairwise, ?_⟩, ?_⟩, hmono⟩
  · intro k node hnode
    rcases hcell k node hnode with ⟨-, rfl⟩ | hnode
    · exact hbase
    · exact (h.ranges.cell_le k node hnode).trans hnext
  · exact fun b hb => (h.ranges.free_le b (hfree b hb).1).trans hnext
  · intro k k' node node' hnode hnode' hne
    rcases hcell k node hnode with ⟨rfl, rfl⟩ | hnode <;>
      rcases hcell k' node' hnode' with ⟨rfl, rfl⟩ | hnode'
    · exact absurd rfl hne
    · exact (hcells k' node' hnode').symm
    · exact hcells k node hnode
    · exact h.ranges.cells_apart k k' node node' hnode hnode' hne
  · intro k node hnode b hb
    rcases hcell k node hnode with ⟨-, rfl⟩ | hnode
    · exact (hfree b hb).2
    · exact h.ranges.cell_free_apart k node hnode b (hfree b hb).1
  · intro k node hnode
    rcases hcell k node hnode with ⟨-, rfl⟩ | hnode
    · exact Nat.zero_le _
    · exact h.ranges.count_le k node hnode
  · rintro n ⟨k, node, hnode, hn⟩ hmintable
    rcases hcell k node hnode with ⟨-, rfl⟩ | hnode
    · exact hlive n hn (hmono n hmintable)
    · exact h.live n ⟨k, node, hnode, hn⟩ (hmono n hmintable)

lemma Inv.receiveCell (h : p.Inv) {child : Key × List NetID}
    (hlive : ∀ n ∈ child.2, ¬ p.Mintable n) (hq : p.receiveCell child = some q) :
    q.Inv ∧ (∀ n, q.Mintable n → p.Mintable n) ∧
      (∀ k node, p.cells k = some node → q.cells k = some node) ∧
      ∀ k node, q.cells k = some node →
        p.cells k = some node ∨ k = child.1 ∧ node.live = child.2 := by
  unfold NodeProcess.receiveCell at hq
  split at hq
  · cases hq
    exact ⟨h, fun _ hn => hn, fun _ _ hnode => hnode, fun _ _ hnode => .inl hnode⟩
  rename_i hnone
  rw [Option.not_isSome_iff_eq_none] at hnone
  obtain ⟨hinv, hmono⟩ := h.createNode hlive hq
  obtain ⟨base, -, hnew, hold⟩ := createNode_spec hq
  refine ⟨hinv, hmono, fun k node hnode => ?_, fun k node hnode => ?_⟩
  · have hk : k ≠ child.1 := by
      rintro rfl
      exact absurd (hnone.symm.trans hnode) (by simp)
    rw [hold k hk, hnode]
  · by_cases hk : k = child.1
    · subst hk
      obtain rfl := Option.some.inj (hnew.symm.trans hnode)
      exact .inr ⟨rfl, rfl⟩
    · exact .inl ((hold k hk).symm.trans hnode)

variable {children : List (Key × List NetID)}

lemma Inv.receiveCells (h : p.Inv) (hlive : ∀ child ∈ children, ∀ n ∈ child.2, ¬ p.Mintable n)
    (hq : children.foldlM NodeProcess.receiveCell p = some q) :
    q.Inv ∧ (∀ k node, p.cells k = some node → q.cells k = some node) ∧
      ∀ k node, q.cells k = some node →
        p.cells k = some node ∨ ∃ child ∈ children, k = child.1 ∧ node.live = child.2 := by
  induction children generalizing p with
  | nil =>
    obtain rfl : p = q := by simpa using hq
    exact ⟨h, fun _ _ hnode => hnode, fun _ _ hnode => .inl hnode⟩
  | cons child children ih =>
    obtain ⟨p', hp', hq⟩ := Option.bind_eq_some_iff.mp hq
    obtain ⟨hinv, hmono, hkeep, hback⟩ :=
      h.receiveCell (hlive child mem_cons_self) hp'
    obtain ⟨hinv', hkeep', hback'⟩ := ih hinv
      (fun c hc n hn hm => hlive c (mem_cons_of_mem _ hc) n hn (hmono n hm)) hq
    refine ⟨hinv', fun k node hnode => hkeep' k node (hkeep k node hnode), fun k node hnode => ?_⟩
    rcases hback' k node hnode with hnode | ⟨c, hc, hk⟩
    · rcases hback k node hnode with hnode | hk
      · exact .inl hnode
      · exact .inr ⟨child, mem_cons_self, hk⟩
    · exact .inr ⟨c, mem_cons_of_mem _ hc, hk⟩

/-- No entity that stays in the process, or moves on, comes from the ranges of these cells. -/
def Drained (p : NodeProcess Key) (keys : List Key) (moved : List NetID) : Prop :=
  ∀ k ∈ keys, ∀ node ∈ p.cells k, (∀ n ∈ moved, ¬ InRange node.netIDBase n) ∧
    ∀ k', k' ∉ keys → ∀ node' ∈ p.cells k', ∀ n ∈ node'.live, ¬ InRange node.netIDBase n

lemma foldl_release (a : NetIDAllocator) (bases : List UInt32) :
    bases.foldl release a = { a with freeList := a.freeList ++ bases } := by
  induction bases generalizing a with
  | nil => simp
  | cons base bases ih => simp [ih, release]

lemma Inv.releaseCells (h : p.Inv) {keys : List Key} (hnodup : keys.Nodup)
    (hdrained : p.Drained keys []) : (p.releaseCells keys).Inv := by
  have halloc : (p.releaseCells keys).netIDAlloc = { p.netIDAlloc with
      freeList := p.netIDAlloc.freeList ++ keys.filterMap fun k =>
        (p.cells k).map Node.netIDBase } :=
    foldl_release _ _
  have hfree : ∀ base ∈ (p.releaseCells keys).netIDAlloc.freeList,
      base ∈ p.netIDAlloc.freeList ∨ ∃ k ∈ keys, ∃ node, p.cells k = some node ∧
        node.netIDBase = base := by
    intro base hbase
    rw [halloc, mem_append, mem_filterMap] at hbase
    rcases hbase with hbase | ⟨k, hk, hnode⟩
    · exact .inl hbase
    · obtain ⟨node, hnode, hbase⟩ := Option.map_eq_some_iff.mp hnode
      exact .inr ⟨k, hk, node, hnode, hbase⟩
  have hcells : ∀ k node, (p.releaseCells keys).cells k = some node →
      k ∉ keys ∧ p.cells k = some node := by
    intro k node hnode
    simp only [NodeProcess.releaseCells] at hnode
    split at hnode
    · exact absurd hnode (by simp)
    · exact ⟨‹_›, hnode⟩
  refine ⟨⟨?_, ?_, ?_, ?_, ?_, ?_, ?_⟩, ?_⟩
  · rw [halloc]
    exact h.ranges.size
  · intro k node hnode
    rw [halloc]
    exact h.ranges.cell_le k node (hcells k node hnode).2
  · intro base hbase
    rcases hfree base hbase with hold | ⟨k, -, node, hnode, rfl⟩ <;> rw [halloc]
    · exact h.ranges.free_le base hold
    · exact h.ranges.cell_le k node hnode
  · intro k k' node node' hnode hnode' hne
    exact h.ranges.cells_apart k k' node node' (hcells k node hnode).2
      (hcells k' node' hnode').2 hne
  · intro k node hnode base hbase
    obtain ⟨hk, hnode⟩ := hcells k node hnode
    rcases hfree base hbase with hold | ⟨k', hk', node', hnode', rfl⟩
    · exact h.ranges.cell_free_apart k node hnode base hold
    · exact h.ranges.cells_apart k k' node node' hnode hnode' fun heq => hk (heq ▸ hk')
  · rw [halloc]
    refine pairwise_append.mpr ⟨h.ranges.free_apart, ?_, ?_⟩
    · refine List.Pairwise.filterMap _ ?_ hnodup
      intro k k' hne base hbase base' hbase'
      obtain ⟨node, hnode, rfl⟩ := Option.map_eq_some_iff.mp hbase
      obtain ⟨node', hnode', rfl⟩ := Option.map_eq_some_iff.mp hbase'
      exact h.ranges.cells_apart k k' node node' hnode hnode' hne
    · intro base hbase base' hbase'
      obtain ⟨k, -, hmap⟩ := mem_filterMap.mp hbase'
      obtain ⟨node, hnode, rfl⟩ := Option.map_eq_some_iff.mp hmap
      exact (h.ranges.cell_free_apart k node hnode base hbase).symm
  · exact fun k node hnode => h.ranges.count_le k node (hcells k node hnode).2
  · rintro n ⟨k, node, hnode, hn⟩ hmintable
    obtain ⟨hk, hnode⟩ := hcells k node hnode
    have hlive := h.live n ⟨k, node, hnode, hn⟩
    cases hmintable with
    | ahead k' node' hnode' hrange hahead =>
      exact hlive (.ahead k' node' (hcells k' node' hnode').2 hrange hahead)
    | released base hbase hrange =>
      rcases hfree base hbase with hold | ⟨k', hk', node', hnode', rfl⟩
      · exact hlive (.released base hold hrange)
      · exact (hdrained k' hk' node' hnode').2 k hk node hnode n hn hrange
    | beyond hbeyond =>
      rw [halloc] at hbeyond
      exact hlive (.beyond hbeyond)

lemma Inv.transferFrom (h : p.Inv) {src : Key}
    (hdrained : p.Drained [src] (children.flatMap Prod.snd))
    (hq : p.transferFrom src children = some q) : q.Inv := by
  unfold NodeProcess.transferFrom at hq
  cases hsrc : p.cells src with
  | none => simp [hsrc] at hq
  | some node =>
    simp only [hsrc] at hq
    split at hq
    · rename_i hchildren
      simp only [all_eq_true, decide_eq_true_eq] at hchildren
      obtain ⟨p', hp', rfl⟩ := Option.map_eq_some_iff.mp hq
      obtain ⟨hinv, hkeep, hback⟩ := h.receiveCells (fun child hchild n hn =>
        h.live n ⟨src, node, hsrc, (hchildren child hchild).2 hn⟩) hp'
      refine hinv.releaseCells (nodup_singleton src) ?_
      intro k hk m hm
      obtain rfl := mem_singleton.mp hk
      obtain rfl : m = node := Option.some.inj
        ((Option.mem_def.mp hm).symm.trans (hkeep k node hsrc))
      obtain ⟨hmoved, hstay⟩ := hdrained k (by simp) m hsrc
      refine ⟨by simp, fun k' hk' node' hnode' n hn => ?_⟩
      rcases hback k' node' hnode' with hold | ⟨child, hchild, -, hlive⟩
      · exact hstay k' hk' node' hold n hn
      · exact hmoved n (mem_flatMap.mpr ⟨child, hchild, hlive ▸ hn⟩)
    · exact absurd hq (by simp)

omit [DecidableEq Key] in
lemma live_of_mem_liveOn {k : Key} {n : NetID} (hn : n ∈ p.liveOn k) : p.Live n := by
  unfold liveOn at hn
  cases hnode : p.cells k with
  | none => simp [hnode] at hn
  | some node => exact ⟨k, node, hnode, by simpa [hnode] using hn⟩

lemma Inv.mergeInto (h : p.Inv) {donors : List Key} {survivor parent : Key}
    {incoming : List NetID} (hincoming : ∀ n ∈ incoming, ¬ p.Mintable n)
    (hdrained : p.Drained donors (donors.flatMap p.liveOn ++ incoming))
    (hq : p.mergeInto donors survivor parent incoming = some q) : q.Inv := by
  unfold NodeProcess.mergeInto at hq
  cases hsurvivor : p.cells survivor with
  | none => simp [hsurvivor] at hq
  | some node =>
    simp only [hsurvivor] at hq
    split at hq
    · rename_i hguard
      obtain ⟨hnodup, hnotDonor, hparent, hfree⟩ := hguard
      cases hq
      -- the survivor under its new name, with all entities
      have hcells : ∀ k m, ((p.setNode survivor none).setNode parent (some { node with
          live := node.live ++ (donors.flatMap p.liveOn ++ incoming) })).cells k = some m →
          (k = parent ∧ m = { node with
            live := node.live ++ (donors.flatMap p.liveOn ++ incoming) }) ∨
          k ≠ parent ∧ k ≠ survivor ∧ p.cells k = some m := by
        intro k m hm
        rw [setNode_cells] at hm
        split at hm
        · exact .inl ⟨‹_›, (Option.some.inj hm).symm⟩
        rw [setNode_cells] at hm
        split at hm
        · exact absurd hm (by simp)
        · exact .inr ⟨‹_›, ‹_›, hm⟩
      have hreuses : Reuses p ((p.setNode survivor none).setNode parent (some { node with
          live := node.live ++ (donors.flatMap p.liveOn ++ incoming) }))
          (fun k => if k = parent then survivor else k) := by
        refine ⟨rfl, fun k m hm => ?_, fun k k' m m' hm hm' heq => ?_⟩
        · rcases hcells k m hm with ⟨rfl, rfl⟩ | ⟨hk, -, hm⟩
          · exact ⟨node, by simpa using hsurvivor, rfl, le_rfl,
              h.ranges.count_le survivor node hsurvivor⟩
          · exact ⟨m, by simpa [hk] using hm, rfl, le_rfl, h.ranges.count_le k m hm⟩
        · rcases hcells k m hm with ⟨rfl, -⟩ | ⟨hk, hks, -⟩ <;>
            rcases hcells k' m' hm' with ⟨rfl, -⟩ | ⟨hk', hks', -⟩
          · rfl
          · simp only [if_true, hk', if_false] at heq
            exact absurd heq.symm hks'
          · simp only [if_true, hk, if_false] at heq
            exact absurd heq hks
          · simpa [hk, hk'] using heq
      have hmoved : ∀ n ∈ donors.flatMap p.liveOn ++ incoming, ¬ p.Mintable n := by
        intro n hn
        rcases mem_append.mp hn with hn | hn
        · obtain ⟨k, -, hn⟩ := mem_flatMap.mp hn
          exact h.live n (live_of_mem_liveOn hn)
        · exact hincoming n hn
      have hinv : ((p.setNode survivor none).setNode parent (some { node with
          live := node.live ++ (donors.flatMap p.liveOn ++ incoming) })).Inv := by
        refine ⟨hreuses.ranges h.ranges, ?_⟩
        rintro n ⟨k, m, hm, hn⟩ hmintable
        rcases hcells k m hm with ⟨rfl, rfl⟩ | ⟨-, -, hm⟩
        · rcases mem_append.mp hn with hn | hn
          · exact h.live n ⟨survivor, node, hsurvivor, hn⟩ (hreuses.mintable hmintable)
          · exact hmoved n hn (hreuses.mintable hmintable)
        · exact h.live n ⟨k, m, hm, hn⟩ (hreuses.mintable hmintable)
      refine hinv.releaseCells hnodup ?_
      intro k hk m hm
      rcases hcells k m hm with ⟨rfl, -⟩ | ⟨-, -, hm⟩
      · exact absurd hk hparent
      obtain ⟨hmovedOut, hstay⟩ := hdrained k hk m hm
      refine ⟨by simp, fun k' hk' m' hm' n hn => ?_⟩
      rcases hcells k' m' hm' with ⟨rfl, rfl⟩ | ⟨-, -, hm'⟩
      · rcases mem_append.mp hn with hn | hn
        · exact hstay survivor hnotDonor node hsurvivor n hn
        · exact hmovedOut n hn
      · exact hstay k' hk' m' hm' n hn
    · exact absurd hq (by simp)

/-- A cell does not mint more identifiers than its range has, ranges are released only when no
entity that lives on comes from them, and entities from other processes come with identifiers that
this process will not mint. -/
def KeepsRanges (p : NodeProcess Key) : ProcessEvent Key → Prop
  | .spawn key => ∀ node ∈ p.cells key, node.nextNetID.toNat < 10000000
  | .split parent children => p.Drained [parent] (children.flatMap Prod.snd)
  | .merge donors _ _ incoming =>
    p.Drained donors (donors.flatMap p.liveOn ++ incoming) ∧ ∀ n ∈ incoming, ¬ p.Mintable n
  | .migrate src _ => p.Drained [src] (p.liveOn src)
  | .receive _ incoming => ∀ n ∈ incoming, ¬ p.Mintable n
  | .depart keys => p.Drained keys []
  | .assignCell _ | .netIDRangeGrant _ | .despawn _ _ | .stopCell _ => True

lemma Inv.step (h : p.Inv) {ev : ProcessEvent Key} (hK : p.KeepsRanges ev)
    (hstep : Steps step p ev q) : q.Inv := by
  unfold Steps at hstep
  cases ev with
  | assignCell key => exact (h.receiveCell (by simp) hstep).1
  | netIDRangeGrant start =>
    cases hstep
    exact h.netIDRangeGrant start
  | spawn key =>
    obtain ⟨node, hnode, rfl⟩ := Option.map_eq_some_iff.mp hstep
    exact h.spawn hnode (hK node hnode)
  | despawn key netID =>
    obtain ⟨node, hnode, rfl⟩ := Option.map_eq_some_iff.mp hstep
    exact h.despawn hnode netID
  | stopCell key =>
    cases hstep
    exact h.stopCell key
  | split parent children => exact h.transferFrom hK hstep
  | merge donors survivor parent incoming => exact h.mergeInto hK.2 hK.1 hstep
  | migrate src dst => exact h.transferFrom (by simpa [KeepsRanges] using hK) hstep
  | receive key incoming =>
    have hlive : ∀ n ∈ (key, incoming).2, ¬ p.Mintable n := hK
    exact (h.receiveCell hlive hstep).1
  | depart keys =>
    simp only [NodeProcess.step] at hstep
    split at hstep
    · cases hstep
      exact h.releaseCells ‹_› hK
    · exact absurd hstep (by simp)

/-- **Uniqueness.** In every run that keeps the ranges, a spawn that does mints an identifier that
no live entity of the process carries. -/
theorem mint_fresh (hrun : Run (Steps step) KeepsRanges {} p) {key : Key}
    (hspawn : p.KeepsRanges (.spawn key)) {node : Node} (hnode : p.cells key = some node) :
    ¬ p.Live node.mint := by
  have hinv : p.Inv := hrun.invariant inv_initial fun h hK hstep => h.step hK hstep
  intro hlive
  exact hinv.live _ hlive (hinv.ranges.mintable_mint hnode (hspawn node hnode))

end Operations

/-! ### Two runs -/

section Decide

variable [Fintype Key]

instance (base n : UInt32) : Decidable (InRange base n) := inferInstanceAs (Decidable (_ ∧ _))

instance (p : NodeProcess Key) (n : NetID) : Decidable (p.Live n) :=
  decidable_of_iff (∃ key, n ∈ p.liveOn key) (by
    unfold Live liveOn
    refine exists_congr fun key => ?_
    cases p.cells key <;> simp)

instance (p : NodeProcess Key) (n : NetID) : Decidable (p.Mintable n) :=
  decidable_of_iff
    ((∃ key, ((p.cells key).any fun node => InRange node.netIDBase n ∧
        node.netIDBase.toNat + node.nextNetID.toNat < n.toNat) = true) ∨
      (p.netIDAlloc.freeList.any fun base => InRange base n) = true ∨
      p.netIDAlloc.next.toNat < n.toNat) (by
    constructor
    · rintro (⟨key, hkey⟩ | hfree | hbeyond)
      · cases hnode : p.cells key with
        | none => simp [hnode] at hkey
        | some node =>
          simp only [hnode, Option.any_some, decide_eq_true_eq] at hkey
          exact .ahead key node hnode hkey.1 hkey.2
      · obtain ⟨base, hbase, hrange⟩ := any_eq_true.mp hfree
        exact .released base hbase (by simpa using hrange)
      · exact .beyond hbeyond
    · rintro (⟨key, node, hnode, hrange, hahead⟩ | ⟨base, hbase, hrange⟩ | hbeyond)
      · exact .inl ⟨key, by simpa [hnode] using ⟨hrange, hahead⟩⟩
      · exact .inr (.inl (any_eq_true.mpr ⟨base, hbase, by simpa using hrange⟩))
      · exact .inr (.inr hbeyond))

variable [DecidableEq Key]

instance (p : NodeProcess Key) (keys : List Key) (moved : List NetID) :
    Decidable (p.Drained keys moved) :=
  have (base : UInt32) (l : List NetID) : Decidable (∀ n ∈ l, ¬ InRange base n) :=
    decidableBAll _ l
  have (base : UInt32) (k' : Key) :
      Decidable (∀ node' ∈ p.cells k', ∀ n ∈ node'.live, ¬ InRange base n) :=
    Option.decidableForallMem _
  have (k : Key) : Decidable (∀ node ∈ p.cells k, (∀ n ∈ moved, ¬ InRange node.netIDBase n) ∧
      ∀ k', k' ∉ keys → ∀ node' ∈ p.cells k', ∀ n ∈ node'.live, ¬ InRange node.netIDBase n) :=
    Option.decidableForallMem _
  decidableBAll _ keys

instance KeepsRanges.decide (p : NodeProcess Key) : ∀ ev, Decidable (p.KeepsRanges ev)
  | .spawn key =>
    have : Decidable (∀ node ∈ p.cells key, node.nextNetID.toNat < 10000000) :=
      Option.decidableForallMem _
    this
  | .split _ _ => inferInstanceAs (Decidable (p.Drained _ _))
  | .merge donors _ _ incoming =>
    have : Decidable (∀ n ∈ incoming, ¬ p.Mintable n) := decidableBAll _ incoming
    inferInstanceAs (Decidable (p.Drained donors (donors.flatMap p.liveOn ++ incoming) ∧
      ∀ n ∈ incoming, ¬ p.Mintable n))
  | .migrate _ _ => inferInstanceAs (Decidable (p.Drained _ _))
  | .receive _ incoming => decidableBAll _ incoming
  | .depart _ => inferInstanceAs (Decidable (p.Drained _ _))
  | .assignCell _ | .netIDRangeGrant _ | .despawn _ _ | .stopCell _ => .isTrue trivial

end Decide

/-- **A range that is used again**: its entity was destroyed before the merge, so the identifier is
minted a second time but is not taken. -/
theorem mint_fresh_after_merge : ∃ p : NodeProcess (Fin 4), ∃ node,
    Run (Steps step) KeepsRanges {} p ∧ p.KeepsRanges (.spawn 3) ∧
      p.cells 3 = some node ∧ ¬ p.Live node.mint := by
  obtain ⟨p, hrun, hspawn, hsome⟩ := exists_run (s := {}) step KeepsRanges
    (fun p : NodeProcess (Fin 4) => p.KeepsRanges (.spawn 3) ∧ (p.cells 3).isSome = true)
    [.assignCell 1, .assignCell 2, .spawn 2, .spawn 1, .despawn 2 10000001, .merge [2] 1 0 [],
      .assignCell 3] (by decide +kernel)
  obtain ⟨node, hnode⟩ := Option.isSome_iff_exists.mp hsome
  exact ⟨p, node, hrun, hspawn, hnode, mint_fresh hrun hspawn hnode⟩

/-- **A taken identifier.** A cell spawns an entity and is merged away; the next cell gets its
range, and its first spawn mints the identifier of the entity, which lives on in the survivor. -/
theorem mint_taken : ∃ p : NodeProcess (Fin 4), Run (Steps step) Always {} p ∧
    ∃ node, p.cells 3 = some node ∧ p.Live node.mint := by
  obtain ⟨p, hrun, hp⟩ := exists_run (s := {}) step Always
    (fun p : NodeProcess (Fin 4) => p.cells 3 = some { netIDBase := 10000000 } ∧ p.Live 10000001)
    [.assignCell 1, .assignCell 2, .spawn 2, .merge [2] 1 0 [], .assignCell 3] (by decide +kernel)
  exact ⟨p, hrun, _, hp.1, hp.2⟩

end Mmokit.NodeProcess
