/-
The orchestrator of cell transfers (`pkg/universe/cell_transfer.go`) and what a commit does to the
ownership of cells (`commit_builders_*.go`, `applyRegistryDelta`).

A split, a merge or a migration is a request: a list of commands to source hosts, each of which is
acknowledged by its destination host.

Every step below is what the source does under one lock. Which hosts a request uses is up to
rendezvous hashing; here it is part of the event. `H` is the type of host ids.
-/
import Mmokit.Universe.CellID
import Mmokit.Library.Runs

namespace Mmokit

open Function

inductive CellTransferKind
  | split
  | merge
  | migrate
deriving DecidableEq

structure CellTransferCommand (H : Type*) where
  requestID : ℕ
  kind : CellTransferKind
  srcCellID : CellID
  destCellID : CellID
  srcHostID : H
  destHostID : H
  /-- For a split, the number of the child. -/
  quadrant : ℕ := 0
deriving DecidableEq

structure TopologyMutation (H : Type*) where
  add : List (CellID × H)
  remove : List CellID
deriving DecidableEq

/-- A request and its acknowledgements. -/
structure CellTransferRequest (H : Type*) where
  id : ℕ
  kind : CellTransferKind
  srcCell : CellID
  commands : List (CellTransferCommand H)
  expectedReady : ℕ
  /-- The hosts that have acknowledged a command. -/
  receivedOK : List H := []
  ackedCmd : List Bool
  ackCount : ℕ := 0
  mutation : TopologyMutation H
deriving DecidableEq

/-! ### Ownership -/

/-- Who owns which cell, by the registry and by the map. -/
structure Ownership (H : Type*) where
  cellToHostMap : CellID → Option H
  hosts : List H
  ownedCells : H → List CellID

namespace Ownership

variable {H : Type*} [DecidableEq H] (o : Ownership H)

/-- The registered hosts that own a cell. `HostForCell` returns any one of them. -/
def ownersOf (c : CellID) : List H := o.hosts.filter fun h => c ∈ o.ownedCells h

/-- `HostForCellID` may return this host: the registry comes first, then the map. -/
def OwnerOf (c : CellID) (h : H) : Prop :=
  h ∈ o.ownersOf c ∨ o.ownersOf c = [] ∧ o.cellToHostMap c = some h

instance (c : CellID) (h : H) : Decidable (o.OwnerOf c h) := inferInstanceAs (Decidable (_ ∨ _))

def applyMutation (m : TopologyMutation H) : Ownership H :=
  { o with cellToHostMap := fun c =>
      match m.add.lookup c with
      | some h => some h
      | none => if c ∈ m.remove then none else o.cellToHostMap c }

def assignCell (h : H) (c : CellID) : Ownership H :=
  if h ∈ o.hosts then
    { o with ownedCells := update o.ownedCells h (c :: (o.ownedCells h).filter (· ≠ c)) }
  else o

def releaseCell (h : H) (c : CellID) : Ownership H :=
  { o with ownedCells := update o.ownedCells h ((o.ownedCells h).filter (· ≠ c)) }

def preOwnership (req : CellTransferRequest H) (c : CellID) : Option H :=
  match req.commands.find? fun cmd => cmd.srcCellID = c with
  | some cmd => some cmd.srcHostID
  | none => o.cellToHostMap c

def releasePrevious (pre : CellID → Option H) (c : CellID) : Ownership H :=
  match pre c with
  | some h => o.releaseCell h c
  | none => o

def reassign (pre : CellID → Option H) (entry : CellID × H) : Ownership H :=
  let released := match pre entry.1 with
    | some h => if h ≠ entry.2 then o.releaseCell h entry.1 else o
    | none => o
  released.assignCell entry.2 entry.1

def applyRegistryDelta (m : TopologyMutation H) (pre : CellID → Option H) :
    Ownership H :=
  m.add.foldl (fun o entry => o.reassign pre entry)
    (m.remove.foldl (fun o c => o.releasePrevious pre c) o)

end Ownership

/-! ### Requests -/

namespace CellTransferRequest

variable {H : Type*} [DecidableEq H]

def matched (req : CellTransferRequest H) (destCellID : CellID) (hostID : H) : Option ℕ :=
  (req.commands.zip req.ackedCmd).findIdx? fun slot =>
    !slot.2 && slot.1.destHostID = hostID && slot.1.destCellID = destCellID

def ack (req : CellTransferRequest H) (slot : ℕ) (hostID : H) :
    CellTransferRequest H :=
  { req with
    ackedCmd := req.ackedCmd.set slot true
    ackCount := req.ackCount + 1
    receivedOK := if hostID ∈ req.receivedOK then req.receivedOK else req.receivedOK ++ [hostID] }

/-- Who hears of the outcome: those that acknowledged, the sources and, if committed, all
targets. -/
def hosts (req : CellTransferRequest H) (committed : Bool) : List H :=
  (req.receivedOK ++ req.commands.map CellTransferCommand.srcHostID ++
    (if committed then req.commands.map CellTransferCommand.destHostID else [])).eraseDups

def split (id : ℕ) (parent : CellID) (srcHost : H) (childHosts : List H) :
    CellTransferRequest H :=
  let assignments := parent.children.zip childHosts
  let commands := assignments.mapIdx fun i a => {
    requestID := id
    kind := .split
    srcCellID := parent
    destCellID := a.1
    srcHostID := srcHost
    destHostID := a.2
    quadrant := i }
  { id := id
    kind := .split
    srcCell := parent
    commands := commands
    expectedReady := 4
    ackedCmd := List.replicate commands.length false
    mutation := ⟨assignments, [parent]⟩ }

/-- The survivor of a merge: the first sibling on the chosen host, or the first sibling. -/
def survivorIdx (siblingHosts : List H) (choice : H) : ℕ :=
  (siblingHosts.findIdx? (· = choice)).getD 0

def merge (id : ℕ) (parent : CellID) (siblingHosts : List H) (choice : H) :
    CellTransferRequest H :=
  let siblings := parent.children.zip siblingHosts
  let survivor := siblings.getD (survivorIdx siblingHosts choice) (parent, choice)
  let donors := siblings.eraseIdx (survivorIdx siblingHosts choice)
  let commands := donors.map fun donor => {
    requestID := id
    kind := .merge
    srcCellID := donor.1
    destCellID := survivor.1
    srcHostID := donor.2
    destHostID := survivor.2 }
  { id := id
    kind := .merge
    srcCell := parent
    commands := commands
    expectedReady := 3
    ackedCmd := List.replicate commands.length false
    mutation := ⟨[(parent, survivor.2)], parent.children⟩ }

def migrate (id : ℕ) (cell : CellID) (srcHost destHost : H) : CellTransferRequest H :=
  { id := id
    kind := .migrate
    srcCell := cell
    commands := [{
      requestID := id
      kind := .migrate
      srcCellID := cell
      destCellID := cell
      srcHostID := srcHost
      destHostID := destHost }]
    expectedReady := 1
    ackedCmd := [false]
    mutation := ⟨[(cell, destHost)], []⟩ }

end CellTransferRequest

/-! ### The orchestrator -/

inductive Outcome
  | committed
  | rolledBack
deriving DecidableEq

inductive Notice
  | acked (slot : ℕ)
  | failed
  | timedOut
deriving DecidableEq

/-- Where the goroutine of a commit stands: before the change of the map and the topology, before
the change of the registry, or before it reports the outcome. -/
inductive CommitStage (H : Type*)
  | coordMutation
  | registryDelta (pre : CellID → Option H)
  | report

/-- The requests in all their states. -/
structure Orchestrator (H : Type*) where
  ownership : Ownership H
  topology : List CellID
  liveHosts : List H
  nextID : ℕ := 0
  inflight : ℕ → Option (CellTransferRequest H) := fun _ => none
  /-- Requests whose roll back was decided and has not been carried out. -/
  rollbacks : List (CellTransferRequest H) := []
  commits : List (CellTransferRequest H × CommitStage H) := []
  results : List (CellTransferRequest H × Outcome) := []
  notices : List (ℕ × Notice) := []

/-- A step of the orchestrator. -/
inductive TransferEvent (H : Type*)
  | hostsChange (liveHosts : List H)
  | beginSplit (parent : CellID) (srcHost : H) (childHosts : List H)
  | beginMerge (parent : CellID) (siblingHosts : List H) (choice : H)
  | beginMigrate (cell : CellID) (srcHost destHost : H)
  /-- An acknowledgement arrives; a dispatch that fails counts as one with `ok = false`. -/
  | onReady (requestID : ℕ) (destCellID : CellID) (hostID : H) (ok : Bool)
  /-- The timeout scanner finds these requests expired. -/
  | scanTimeouts (expired : List ℕ)
  | rollback (requestID : ℕ)
  | commitStep (requestID : ℕ)

namespace Orchestrator

variable {H : Type*} [DecidableEq H] (s : Orchestrator H)

def launch (req : CellTransferRequest H) : Orchestrator H :=
  { s with
    nextID := s.nextID + 1
    inflight := update s.inflight req.id (some req) }

def giveUp (requestID : ℕ) (req : CellTransferRequest H) (notice : Notice) :
    Orchestrator H :=
  { s with
    inflight := update s.inflight requestID none
    rollbacks := s.rollbacks ++ [req]
    notices := s.notices ++ [(requestID, notice)] }

def await (requestID : ℕ) (req : CellTransferRequest H) (slot : ℕ) : Orchestrator H :=
  { s with
    inflight := update s.inflight requestID (some req)
    notices := s.notices ++ [(requestID, .acked slot)] }

def complete (requestID : ℕ) (req : CellTransferRequest H) (slot : ℕ) : Orchestrator H :=
  { s with
    inflight := update s.inflight requestID none
    commits := s.commits ++ [(req, .coordMutation)]
    notices := s.notices ++ [(requestID, .acked slot)] }

def onReady (requestID : ℕ) (destCellID : CellID) (hostID : H) (ok : Bool) :
    Orchestrator H :=
  match s.inflight requestID with
  | none => s
  | some req =>
    if ok then
      match req.matched destCellID hostID with
      | none => s
      | some slot =>
        let acked := req.ack slot hostID
        if acked.ackCount < acked.expectedReady then s.await requestID acked slot
        else s.complete requestID acked slot
    else s.giveUp requestID req .failed

def expire (requestID : ℕ) : Orchestrator H :=
  match s.inflight requestID with
  | none => s
  | some req => s.giveUp requestID req .timedOut

def rollback (req : CellTransferRequest H) : Orchestrator H :=
  { s with
    inflight := update s.inflight req.id none
    rollbacks := s.rollbacks.filter (·.id ≠ req.id)
    results := s.results ++ [(req, .rolledBack)] }

def updateTopology (topology : List CellID) (req : CellTransferRequest H) : List CellID :=
  match req.kind with
  | .split => topology.filter (· ≠ req.srcCell) ++ req.srcCell.children
  | .merge => topology.filter (· ∉ req.srcCell.children) ++ [req.srcCell]
  | .migrate => topology

def setStage (req : CellTransferRequest H) (stage : CommitStage H) :
    List (CellTransferRequest H × CommitStage H) :=
  s.commits.map fun c => if c.1.id = req.id then (req, stage) else c

def commitStep (req : CellTransferRequest H) : CommitStage H → Orchestrator H
  | .coordMutation =>
    { s with
      ownership := s.ownership.applyMutation req.mutation
      topology := updateTopology s.topology req
      commits := s.setStage req (.registryDelta (s.ownership.preOwnership req)) }
  | .registryDelta pre =>
    { s with
      ownership := s.ownership.applyRegistryDelta req.mutation pre
      commits := s.setStage req .report }
  | .report =>
    { s with
      commits := s.commits.filter (·.1.id ≠ req.id)
      results := s.results ++ [(req, .committed)] }

def begun : TransferEvent H → Option (CellTransferRequest H)
  | .beginSplit parent srcHost childHosts =>
    if s.ownership.OwnerOf parent srcHost ∧ childHosts.length = 4 ∧
        ∀ h ∈ childHosts, h ∈ s.liveHosts then
      some (.split (s.nextID + 1) parent srcHost childHosts)
    else none
  | .beginMerge parent siblingHosts choice =>
    if siblingHosts.length = 4 ∧ choice ∈ s.liveHosts ∧
        ∀ a ∈ parent.children.zip siblingHosts, s.ownership.OwnerOf a.1 a.2 then
      some (.merge (s.nextID + 1) parent siblingHosts choice)
    else none
  | .beginMigrate cell srcHost destHost =>
    if s.ownership.OwnerOf cell srcHost ∧ destHost ∈ s.liveHosts ∧ srcHost ≠ destHost then
      some (.migrate (s.nextID + 1) cell srcHost destHost)
    else none
  | _ => none

def step (event : TransferEvent H) : Option (Orchestrator H) :=
  match event with
  | .hostsChange liveHosts => some { s with liveHosts := liveHosts }
  | .onReady requestID destCellID hostID ok => some (s.onReady requestID destCellID hostID ok)
  | .scanTimeouts expired => some (expired.foldl expire s)
  | .rollback requestID =>
    (s.rollbacks.find? fun req => req.id = requestID).map fun req => s.rollback req
  | .commitStep requestID =>
    (s.commits.find? fun c => c.1.id = requestID).map fun c => s.commitStep c.1 c.2
  | .beginSplit .. | .beginMerge .. | .beginMigrate .. => (s.begun event).map s.launch

end Orchestrator

end Mmokit
