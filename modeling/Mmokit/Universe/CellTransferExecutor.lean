/-
The hosts' side of a cell transfer (`pkg/universe/cell_transfer_executor.go`), and the system of
the orchestrator, the hosts and the messages between them.

`Execute` runs on the source host of a command: it serialises the entities of the source cell,
stops the cell from serving its viewers (and freezes its handoffs, if the cell is a donor of a
merge), and ships the transfer. `Receive` runs on the destination host: it creates and populates a
pending cell, or it populates the survivor of a merge. Its result is a `Ready` message. `Abort`
takes back what was done for a request that is rolled back, and `Commit` forgets how to.

Messages are delivered in any order, and the network may duplicate a `Ready`.
-/
import Mmokit.Universe.CellTransfer
import Mmokit.Universe.NetIDIndex

namespace Mmokit

open Function

/-- The part of a cell that a transfer touches. -/
@[ext]
structure TransferCell where
  /-- The identifiers of the authoritative entities. -/
  live : List NetID := []
  drainingForMerge : Bool := false
  /-- The connected sessions that are not pending. -/
  viewers : List ℕ := []
  /-- `transferDeactivatedViewers`: the sessions whose replication is suspended. -/
  suspended : List ℕ := []
deriving DecidableEq

namespace TransferCell

def setDrainingForMerge (cell : TransferCell) (draining : Bool) : TransferCell :=
  { cell with drainingForMerge := draining }

/-- Suspends the replication of all viewers. -/
def deactivateTransferViewers (cell : TransferCell) : TransferCell :=
  { cell with suspended := cell.suspended ++ cell.viewers.filter (· ∉ cell.suspended) }

def reactivateTransferViewers (cell : TransferCell) : TransferCell := { cell with suspended := [] }

/-- What `Execute` does to its source cell. -/
def freeze (cell : TransferCell) (kind : CellTransferKind) : TransferCell :=
  (if kind = .merge then cell.setDrainingForMerge true else cell).deactivateTransferViewers

/-- Takes `freeze` back. -/
def unfreeze (cell : TransferCell) (kind : CellTransferKind) : TransferCell :=
  (if kind = .merge then cell.setDrainingForMerge false else cell).reactivateTransferViewers

/-- The records that are new to the cell. -/
def imports (cell : TransferCell) (records : List NetID) : List NetID :=
  records.eraseDups.filter (· ∉ cell.live)

/-- Adds the records that are not there. -/
def populate (cell : TransferCell) (records : List NetID) : TransferCell :=
  { cell with live := cell.live ++ cell.imports records }

/-- Takes out what a request has brought. -/
def removeImports (cell : TransferCell) (imported : List NetID) : TransferCell :=
  { cell with live := cell.live.filter (· ∉ imported) }

end TransferCell

/-! ### The executor of a host -/

/-- The cells of a host, and what it remembers of each request. -/
@[ext]
structure CellTransferExecutor where
  cells : CellID → Option TransferCell := fun _ => none
  /-- The cells created for a request that is not committed. -/
  pending : ℕ → List CellID := fun _ => []
  mergeSources : ℕ → List CellID := fun _ => []
  mergeSurvivors : ℕ → Option CellID := fun _ => none
  mergeImportedLive : ℕ → List NetID := fun _ => []
  transferSrcCells : ℕ → List CellID := fun _ => []

namespace CellTransferExecutor

variable {H : Type*} (e : CellTransferExecutor)

/-- Changes a cell, if it is there. -/
def modifyCell (c : CellID) (f : TransferCell → TransferCell) : CellTransferExecutor :=
  { e with cells := update e.cells c ((e.cells c).map f) }

/-- A split ships one quadrant, the others ship all. -/
def serialize (cell : TransferCell) (cmd : CellTransferCommand H) (quadrantOf : NetID → ℕ) :
    List NetID :=
  match cmd.kind with
  | .split => cell.live.filter fun n => quadrantOf n = cmd.quadrant
  | .merge | .migrate => cell.live

/-- `Execute` up to the shipping. -/
def execute (cmd : CellTransferCommand H) : CellTransferExecutor :=
  { e.modifyCell cmd.srcCellID (·.freeze cmd.kind) with
    transferSrcCells := update e.transferSrcCells cmd.requestID
      ((e.transferSrcCells cmd.requestID).insert cmd.srcCellID)
    mergeSources :=
      if cmd.kind = .merge then
        update e.mergeSources cmd.requestID
          ((e.mergeSources cmd.requestID).insert cmd.srcCellID)
      else e.mergeSources }

/-- `Execute` when it cannot serialise. -/
def serializeFailed (cmd : CellTransferCommand H) : CellTransferExecutor :=
  if cmd.kind = .merge then e.modifyCell cmd.srcCellID (·.setDrainingForMerge false) else e

/-- `Execute` takes back what it did. -/
def shipFailed (cmd : CellTransferCommand H) : CellTransferExecutor :=
  { e.modifyCell cmd.srcCellID (·.unfreeze cmd.kind) with
    transferSrcCells := update e.transferSrcCells cmd.requestID
      ((e.transferSrcCells cmd.requestID).filter (· ≠ cmd.srcCellID))
    mergeSources := update e.mergeSources cmd.requestID
      ((e.mergeSources cmd.requestID).filter (· ≠ cmd.srcCellID)) }

/-- `Receive` at the survivor's host. -/
def receiveMerge (cmd : CellTransferCommand H) (survivor : TransferCell)
    (records : List NetID) : CellTransferExecutor :=
  { e with
    cells := update e.cells cmd.destCellID
      (some ((survivor.setDrainingForMerge true).populate records))
    mergeSurvivors := update e.mergeSurvivors cmd.requestID (some cmd.destCellID)
    mergeImportedLive := update e.mergeImportedLive cmd.requestID
      (e.mergeImportedLive cmd.requestID ++ survivor.imports records) }

/-- `Receive` creates a pending cell. -/
def receiveNew (cmd : CellTransferCommand H) (records : List NetID) : CellTransferExecutor :=
  { e with
    cells := update e.cells cmd.destCellID (some (({} : TransferCell).populate records))
    pending := update e.pending cmd.requestID
      ((e.pending cmd.requestID).insert cmd.destCellID) }

/-- The pending cells of a failed `Receive` go. -/
def teardownPending (requestID : ℕ) : CellTransferExecutor :=
  { e with
    cells := fun c => if c ∈ e.pending requestID then none else e.cells c
    pending := update e.pending requestID [] }

/-- What `Abort` does to a cell that stays. -/
def abortCell (requestID : ℕ) (c : CellID) (cell : TransferCell) : TransferCell :=
  let undrained := if c ∈ e.mergeSources requestID then cell.setDrainingForMerge false else cell
  let cleaned := if e.mergeSurvivors requestID = some c then
      (undrained.removeImports (e.mergeImportedLive requestID)).setDrainingForMerge false
    else undrained
  if c ∈ e.transferSrcCells requestID then cleaned.reactivateTransferViewers else cleaned

/-- `Commit` forgets the request. -/
def commit (requestID : ℕ) : CellTransferExecutor :=
  { e with
    pending := update e.pending requestID []
    mergeSources := update e.mergeSources requestID []
    mergeSurvivors := update e.mergeSurvivors requestID none
    mergeImportedLive := update e.mergeImportedLive requestID []
    transferSrcCells := update e.transferSrcCells requestID [] }

/-- `Abort` restores the cells and forgets the request. -/
def abort (requestID : ℕ) : CellTransferExecutor :=
  ({ e with cells := fun c =>
      if c ∈ e.pending requestID then none else (e.cells c).map (e.abortCell requestID c) } :
    CellTransferExecutor).commit requestID

end CellTransferExecutor

/-! ### The system -/

/-- The answer of a destination host. -/
structure CellTransferReady (H : Type*) where
  requestID : ℕ
  destCellID : CellID
  hostID : H
  ok : Bool
deriving DecidableEq

/-- The orchestrator, the hosts, and the messages under way. -/
structure TransferSystem (H : Type*) where
  orch : Orchestrator H
  hosts : H → CellTransferExecutor
  /-- Commands on their way to the source hosts. -/
  dispatches : List (CellTransferCommand H) := []
  /-- Transfers on their way to the destination hosts. -/
  shipped : List (CellTransferCommand H × List NetID) := []
  readies : List (CellTransferReady H) := []
  aborts : List (ℕ × H) := []
  releases : List (ℕ × H) := []
  /-- The commands whose transfer was populated without an error. -/
  populated : List (CellTransferCommand H) := []

/-- How `Execute` ends. -/
inductive ExecuteOutcome
  | serializeFailed
  | shipFailed
  | shipped
deriving DecidableEq

/-- Whose turn it is. -/
inductive SystemEvent (H : Type*)
  /-- A step of the orchestrator other than `OnReady`. -/
  | orchestrate (event : TransferEvent H)
  /-- A source host takes a command; the entities lie in these quadrants. -/
  | execute (k : ℕ) (quadrantOf : NetID → ℕ) (outcome : ExecuteOutcome)
  /-- A destination host takes a transfer; an error occurs after some records, or none. -/
  | receive (k : ℕ) (failsAfter : Option ℕ)
  | duplicateReady (k : ℕ)
  | deliverReady (k : ℕ)
  | abort (k : ℕ)
  | release (k : ℕ)
  /-- Other parts of a host start and stop cells. -/
  | startCell (host : H) (c : CellID) (cell : TransferCell)
  | stopCell (host : H) (c : CellID)

namespace TransferSystem

variable {H : Type*} [DecidableEq H] (s : TransferSystem H)

def setHost (host : H) (e : CellTransferExecutor) : TransferSystem H :=
  { s with hosts := update s.hosts host e }

/-- The destination, or the source in its name, answers. -/
def report (cmd : CellTransferCommand H) (ok : Bool) : TransferSystem H :=
  { s with readies := s.readies ++ [⟨cmd.requestID, cmd.destCellID, cmd.destHostID, ok⟩] }

/-- What a new request sends out. -/
def newCommands (event : TransferEvent H) : List (CellTransferCommand H) :=
  match s.orch.begun event with
  | some req => req.commands
  | none => []

/-- A roll back tells the hosts concerned. -/
def newAborts : TransferEvent H → List (ℕ × H)
  | .rollback requestID =>
    match s.orch.rollbacks.find? fun req => req.id = requestID with
    | some req => (req.hosts false).map fun host => (requestID, host)
    | none => []
  | _ => []

/-- A commit that is reported tells all hosts. -/
def newReleases : TransferEvent H → List (ℕ × H)
  | .commitStep requestID =>
    match s.orch.commits.find? fun c => c.1.id = requestID with
    | some (req, .report) => (req.hosts true).map fun host => (requestID, host)
    | _ => []
  | _ => []

/-- A step of the orchestrator, with what it sends. -/
def orchestrate (event : TransferEvent H) : Option (TransferSystem H) :=
  match event with
  | .onReady .. => none
  | event => (s.orch.step event).map fun orch =>
      { s with
        orch := orch
        dispatches := s.dispatches ++ s.newCommands event
        aborts := s.aborts ++ s.newAborts event
        releases := s.releases ++ s.newReleases event }

/-- A source host carries out its command. -/
def execute (cmd : CellTransferCommand H) (quadrantOf : NetID → ℕ) (outcome : ExecuteOutcome) :
    TransferSystem H :=
  let e := s.hosts cmd.srcHostID
  match e.cells cmd.srcCellID with
  | none => s.report cmd false
  | some cell =>
    match outcome with
    | .serializeFailed => (s.setHost cmd.srcHostID (e.serializeFailed cmd)).report cmd false
    | .shipFailed => (s.setHost cmd.srcHostID ((e.execute cmd).shipFailed cmd)).report cmd false
    | .shipped =>
      { s.setHost cmd.srcHostID (e.execute cmd) with
        shipped := s.shipped ++ [(cmd, CellTransferExecutor.serialize cell cmd quadrantOf)] }

/-- The records that are populated before the error. -/
def applied (records : List NetID) (failsAfter : Option ℕ) : List NetID :=
  match failsAfter with
  | none => records
  | some n => records.take n

/-- A destination host takes a transfer and answers. -/
def receive (cmd : CellTransferCommand H) (records : List NetID) (failsAfter : Option ℕ) :
    TransferSystem H :=
  let e := s.hosts cmd.destHostID
  let noted := { s with populated :=
    if failsAfter.isNone then s.populated ++ [cmd] else s.populated }
  match cmd.kind, e.cells cmd.destCellID with
  | .merge, none => s.report cmd false
  | .merge, some survivor =>
    (noted.setHost cmd.destHostID
      (e.receiveMerge cmd survivor (applied records failsAfter))).report cmd failsAfter.isNone
  -- a split or a migration whose cell is there is taken for a repeated delivery
  | .split, some _ | .migrate, some _ => s.report cmd true
  | .split, none | .migrate, none =>
    let created := e.receiveNew cmd (applied records failsAfter)
    (noted.setHost cmd.destHostID
      (if failsAfter.isNone then created else created.teardownPending cmd.requestID)).report cmd
        failsAfter.isNone

/-- One event. -/
def step : SystemEvent H → Option (TransferSystem H)
  | .orchestrate event => s.orchestrate event
  | .execute k quadrantOf outcome =>
    s.dispatches[k]?.map fun cmd =>
      { s with dispatches := s.dispatches.eraseIdx k }.execute cmd quadrantOf outcome
  | .receive k failsAfter =>
    s.shipped[k]?.map fun transfer =>
      { s with shipped := s.shipped.eraseIdx k }.receive transfer.1 transfer.2 failsAfter
  | .duplicateReady k => s.readies[k]?.map fun ready => { s with readies := s.readies ++ [ready] }
  | .deliverReady k =>
    s.readies[k]?.map fun ready =>
      { s with
        readies := s.readies.eraseIdx k
        orch := s.orch.onReady ready.requestID ready.destCellID ready.hostID ready.ok }
  | .abort k =>
    s.aborts[k]?.map fun a =>
      { s with aborts := s.aborts.eraseIdx k }.setHost a.2 ((s.hosts a.2).abort a.1)
  | .release k =>
    s.releases[k]?.map fun a =>
      { s with releases := s.releases.eraseIdx k }.setHost a.2 ((s.hosts a.2).commit a.1)
  | .startCell host c cell =>
    some (s.setHost host { s.hosts host with cells := update (s.hosts host).cells c cell })
  | .stopCell host c =>
    some (s.setHost host { s.hosts host with cells := update (s.hosts host).cells c none })

end TransferSystem

end Mmokit
