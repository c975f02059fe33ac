/-
The host registry of the coordinator (`pkg/universe/host_registry.go`) and the control streams of
its hosts (`pkg/universe/mesh_control_server.go`): the data that the control handlers, the
assignment engine and the commits of cell transfers share.

Every function here is what the source does under one lock.
-/
import Mmokit.Universe.CellTransfer

namespace Mmokit

open Function

inductive RemoteHostState
  | unknown
  | registered
  | live
  | dead
  | leaving
deriving DecidableEq

structure RemoteHost where
  state : RemoteHostState
  isLocal : Bool
  serviceOnly : Bool
  /-- The control handler that has called `Register`. The source does not keep it. -/
  installedBy : Option ℕ
deriving DecidableEq

/-- The coordinator's record of hosts and cells. -/
structure Registry (H : Type*) where
  /-- `hosts` and their `OwnedCells`, and the map of `Control`. -/
  ownership : Ownership H
  entry : H → RemoteHost
  topology : List CellID
  /-- The cells of the configured grid, all of depth 0. -/
  grid : List CellID
  /-- The handler whose control stream a host's entry in `streams` is. -/
  streams : H → Option ℕ
  /-- The handlers whose `kill` channel is closed. -/
  killed : List ℕ
  /-- The generation of a handler's stream, 0 before the handler has registered it. -/
  gen : ℕ → ℕ
  streamSeq : ℕ

namespace Registry

variable {H : Type*}

section Predicates

variable (s : Registry H)

def NotDead (h : H) : Prop := h ∈ s.ownership.hosts ∧ (s.entry h).state ≠ .dead

def Owns (h : H) (c : CellID) : Prop := h ∈ s.ownership.hosts ∧ c ∈ s.ownership.ownedCells h

def Holds (h : H) (c : CellID) : Prop := s.NotDead h ∧ c ∈ s.ownership.ownedCells h

def AllHolders (c : CellID) (P : H → Prop) : Prop :=
  ∀ g ∈ s.ownership.hosts, s.Holds g c → P g

end Predicates

variable [DecidableEq H] (s : Registry H)

instance (h : H) : Decidable (s.NotDead h) := inferInstanceAs (Decidable (_ ∧ _))

instance (h : H) (c : CellID) : Decidable (s.Owns h c) := inferInstanceAs (Decidable (_ ∧ _))

instance (h : H) (c : CellID) : Decidable (s.Holds h c) := inferInstanceAs (Decidable (_ ∧ _))

instance (c : CellID) (P : H → Prop) [DecidablePred P] : Decidable (s.AllHolders c P) :=
  List.decidableBAll (fun g => s.Holds g c → P g) s.ownership.hosts

/-! ### The methods of the registry -/

/-- `Register` inserts or replaces an entry; the new one owns no cells. -/
def register (handler : ℕ) (h : H) (serviceOnly : Bool) : Registry H :=
  { s with
    ownership := { s.ownership with
      hosts := h :: s.ownership.hosts.filter (· ≠ h)
      ownedCells := update s.ownership.ownedCells h [] }
    entry := update s.entry h ⟨.registered, false, serviceOnly, some handler⟩ }

def setState (h : H) (state : RemoteHostState) : Registry H :=
  if h ∈ s.ownership.hosts then
    { s with entry := update s.entry h { s.entry h with state := state } }
  else s

def touch (h : H) : Registry H :=
  if (s.entry h).state = .registered then s.setState h .live else s

def markDead (h : H) : Registry H := s.setState h .dead

def markLeaving (h : H) : Registry H := s.setState h .leaving

def remove (h : H) : Registry H :=
  { s with ownership := { s.ownership with
      hosts := s.ownership.hosts.filter (· ≠ h)
      ownedCells := update s.ownership.ownedCells h [] } }

def assignCell (h : H) (c : CellID) : Registry H :=
  { s with ownership := s.ownership.assignCell h c }

def releaseCell (h : H) (c : CellID) : Registry H :=
  { s with ownership := s.ownership.releaseCell h c }

/-- `HostForCell` may give this answer: any of the hosts that own the cell, whatever their state. -/
def Answers (c : CellID) : Option H → Prop
  | some h => s.Owns h c
  | none => ∀ h ∈ s.ownership.hosts, c ∉ s.ownership.ownedCells h

instance (c : CellID) : (answer : Option H) → Decidable (s.Answers c answer)
  | some h => inferInstanceAs (Decidable (s.Owns h c))
  | none => List.decidableBAll (fun h => c ∉ s.ownership.ownedCells h) s.ownership.hosts

def liveHosts : List H :=
  s.ownership.hosts.filter fun h => !(s.entry h).serviceOnly && (s.entry h).state = .live

def assignableHosts : List H :=
  s.ownership.hosts.filter fun h => !(s.entry h).serviceOnly &&
    ((s.entry h).state = .registered || (s.entry h).state = .live)

def ownedCells : List CellID := s.ownership.hosts.flatMap s.ownership.ownedCells

/-- `enumerateCells`: the keys of `AllOwnedCells`, which joins the registry (read before, here
`owned`) with the map; the configured grid if there are none. The map's keys are cells of the
tiling, since both change together. -/
def enumerateCells (owned : List CellID) : List CellID :=
  let cells := owned ++ s.topology.filter fun c => (s.ownership.cellToHostMap c).isSome
  if cells = [] then s.grid else cells

/-! ### Control streams -/

/-- `registerHostStream`: the stream replaces the host's current one, whose handler is told to
exit. -/
def registerStream (handler : ℕ) (h : H) : Registry H :=
  { s with
    streams := update s.streams h (some handler)
    killed := (s.streams h).toList ++ s.killed
    gen := update s.gen handler (s.streamSeq + 1)
    streamSeq := s.streamSeq + 1 }

def cancelStream (h : H) : Registry H :=
  { s with killed := (s.streams h).toList ++ s.killed }

def deleteStream (h : H) : Registry H :=
  { s with streams := update s.streams h none }

def coordMutation (req : CellTransferRequest H) : Registry H :=
  { s with
    ownership := s.ownership.applyMutation req.mutation
    topology := Orchestrator.updateTopology s.topology req }

end Registry

end Mmokit
