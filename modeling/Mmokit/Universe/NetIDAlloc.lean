/-
Network identifiers of a process (`pkg/universe/net_id_alloc.go`, `engine.NextNetID`, and the places
where cells are created and released).

Each cell mints identifiers from a range of its own: the allocator hands out the bases, and the
engine of the cell counts up from its base. When a split, a merge or a migration is completed the
source cells go away, their entities live on in other cells under their old identifiers, and the
ranges of the source cells are handed out again.

A cell is named by a key, its host together with its identifier. Completed transfers are single
steps.
-/
import Mathlib.Algebra.Group.Nat.Defs
import Mmokit.Universe.NetIDIndex
import Mmokit.Library.Runs
import Mathlib.Data.List.Basic

namespace Mmokit

/-! ### The allocator -/

def netIDRangeSize : UInt32 := 10000000

structure NetIDAllocator where
  next : UInt32
  size : UInt32
  freeList : List UInt32 := []
deriving DecidableEq

namespace NetIDAllocator

variable (a : NetIDAllocator)

def allocate : Option (UInt32 × NetIDAllocator) :=
  match a.freeList.getLast? with
  | some base => some (base, { a with freeList := a.freeList.dropLast })
  | none =>
    if 0 < a.size ∧ 0xFFFFFFFF - a.size < a.next then none
    else some (a.next, { a with next := a.next + a.size })

def release (base : UInt32) : NetIDAllocator := { a with freeList := a.freeList ++ [base] }

def setBase (base : UInt32) : NetIDAllocator := if a.next < base then { a with next := base } else a

lemma toNat_next_add {a : NetIDAllocator} (hsize : a.size = netIDRangeSize)
    (hroom : ¬ (0 < a.size ∧ 0xFFFFFFFF - a.size < a.next)) :
    (a.next + a.size).toNat = a.next.toNat + 10000000 := by
  have hpos : (0 : UInt32) < netIDRangeSize := by decide
  have hbound : (0xFFFFFFFF - netIDRangeSize).toNat = 4284967295 := by decide
  have hnat : netIDRangeSize.toNat = 10000000 := rfl
  rw [hsize] at hroom ⊢
  have hle : a.next.toNat ≤ (0xFFFFFFFF - netIDRangeSize).toNat :=
    UInt32.le_iff_toNat_le.mp (UInt32.not_lt.mp fun hlt => hroom ⟨hpos, hlt⟩)
  rw [UInt32.toNat_add, hnat]
  omega

lemma allocate_cases {a a' : NetIDAllocator} {base : UInt32} (h : a.allocate = some (base, a')) :
    (a.freeList = a'.freeList ++ [base] ∧ a'.next = a.next ∧ a'.size = a.size) ∨
      (a.freeList = [] ∧ ¬ (0 < a.size ∧ 0xFFFFFFFF - a.size < a.next) ∧ base = a.next ∧
        a' = { a with next := a.next + a.size }) := by
  unfold allocate at h
  cases hlast : a.freeList.getLast? with
  | some last =>
    simp only [hlast, Option.some.injEq, Prod.mk.injEq] at h
    obtain ⟨rfl, rfl⟩ := h
    exact .inl ⟨(List.dropLast_append_getLast? last (Option.mem_def.mpr hlast)).symm, rfl, rfl⟩
  | none =>
    simp only [hlast] at h
    split at h
    · cases h
    rename_i hroom
    simp only [Option.some.injEq, Prod.mk.injEq] at h
    obtain ⟨rfl, rfl⟩ := h
    exact .inr ⟨List.getLast?_eq_none_iff.mp hlast, hroom, rfl, rfl⟩

end NetIDAllocator

/-! ### Cells -/

structure Node where
  netIDBase : UInt32
  nextNetID : UInt32 := 0
  live : List NetID := []
deriving DecidableEq

def Node.mint (node : Node) : NetID := node.netIDBase + (node.nextNetID + 1)

structure NodeProcess (Key : Type*) where
  netIDAlloc : NetIDAllocator := ⟨0, netIDRangeSize, []⟩
  cells : Key → Option Node := fun _ => none

inductive ProcessEvent (Key : Type*)
  /-- A cell is created, at start or by `CellAssign`. -/
  | assignCell (key : Key)
  /-- A range is granted by the coordinator. -/
  | netIDRangeGrant (start : UInt32)
  | spawn (key : Key)
  | despawn (key : Key) (netID : NetID)
  /-- A cell is stopped without being transferred; its range is not handed out again. -/
  | stopCell (key : Key)
  /-- A split is completed; each child on this process comes with the entities it receives. -/
  | split (parent : Key) (children : List (Key × List NetID))
  /-- A merge into a cell of this process is completed: its donors here, the survivor and its new
  name, and the entities that come from donors on other processes. -/
  | merge (donors : List Key) (survivor parent : Key) (incoming : List NetID)
  /-- A cell moves from one host of this process to another. -/
  | migrate (src dst : Key)
  /-- A cell comes from another process with its entities. -/
  | receive (key : Key) (incoming : List NetID)
  /-- Cells move to another process, or are merged into a cell there. -/
  | depart (keys : List Key)

namespace NodeProcess

variable {Key : Type*} [DecidableEq Key] (p : NodeProcess Key)

def createNode (key : Key) (live : List NetID) : Option (NodeProcess Key) :=
  match p.netIDAlloc.allocate with
  | none => none
  | some (base, alloc) => some
      { netIDAlloc := alloc
        cells := Function.update p.cells key (some { netIDBase := base, live := live }) }

def receiveCell (child : Key × List NetID) : Option (NodeProcess Key) :=
  if (p.cells child.1).isSome then some p else p.createNode child.1 child.2

def setNode (key : Key) (node : Option Node) : NodeProcess Key :=
  { p with cells := Function.update p.cells key node }

/-- Source cells are torn down, then their ranges are released. -/
def releaseCells (keys : List Key) : NodeProcess Key where
  netIDAlloc := (keys.filterMap fun k => (p.cells k).map Node.netIDBase).foldl
    NetIDAllocator.release p.netIDAlloc
  cells k := if k ∈ keys then none else p.cells k

def liveOn (key : Key) : List NetID := ((p.cells key).map Node.live).getD []

def transferFrom (src : Key) (children : List (Key × List NetID)) : Option (NodeProcess Key) :=
  match p.cells src with
  | none => none
  | some node =>
    if (children.all fun child => child.1 ≠ src ∧ child.2 ⊆ node.live) then
      (children.foldlM receiveCell p).map fun q => q.releaseCells [src]
    else none

def mergeInto (donors : List Key) (survivor parent : Key) (incoming : List NetID) :
    Option (NodeProcess Key) :=
  match p.cells survivor with
  | none => none
  | some node =>
    if donors.Nodup ∧ survivor ∉ donors ∧ parent ∉ donors ∧
        (p.cells parent = none ∨ parent = survivor) then
      let moved := donors.flatMap p.liveOn ++ incoming
      let merged := (p.setNode survivor none).setNode parent
        (some { node with live := node.live ++ moved })
      some (merged.releaseCells donors)
    else none

def step : ProcessEvent Key → Option (NodeProcess Key)
  | .assignCell key => p.receiveCell (key, [])
  | .netIDRangeGrant start => some { p with netIDAlloc := p.netIDAlloc.setBase start }
  | .spawn key =>
    (p.cells key).map fun node => p.setNode key
      (some { node with nextNetID := node.nextNetID + 1, live := node.live ++ [node.mint] })
  | .despawn key netID =>
    (p.cells key).map fun node => p.setNode key (some { node with live := node.live.erase netID })
  | .stopCell key => some (p.setNode key none)
  | .split parent children => p.transferFrom parent children
  | .merge donors survivor parent incoming => p.mergeInto donors survivor parent incoming
  | .migrate src dst => p.transferFrom src [(dst, p.liveOn src)]
  | .receive key incoming => p.receiveCell (key, incoming)
  | .depart keys => if keys.Nodup then some (p.releaseCells keys) else none

def Live (n : NetID) : Prop := ∃ key node, p.cells key = some node ∧ n ∈ node.live

end NodeProcess

end Mmokit
