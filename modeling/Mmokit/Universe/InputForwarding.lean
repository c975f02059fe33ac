/-
Input forwarding after a handoff (`forwardPendingInputs`, `forwardConnectionInputs`).

When a player is handed to a cell of another host, input of theirs still comes to the old host for
a while. The driver of the old cell therefore keeps a forwarding window: at every tick it drains
the connection and sends what it finds to the new cell, keeping what the bridge refuses. The window
is keyed by the connection only and closes after a fixed time. A player who comes back before that
shares the connection with the window that was opened when they left.

The model follows one connection of one host.
-/
import Mathlib
import Mmokit.Library.Runs
import Mmokit.Universe.VirtualConnManager

namespace Mmokit

open List VirtualConnManager Function

def handoffInputForwardTicks : ℕ := 20

structure PendingInputForward where
  destCellID : CellID
  expiresTick : ℕ
  backlog : List ClientFrame := []
deriving DecidableEq

structure ForwardWindow extends PendingInputForward where
  sent : List (CellID × ClientFrame) := []
deriving DecidableEq

structure CellForwards where
  /-- The cell has an active session of the connection. -/
  active : Bool := false
  /-- The entry of `inputForwards`. -/
  window : Option ForwardWindow := none
  /-- The windows that are no longer in the map, in the order in which they were opened. -/
  closed : List ForwardWindow := []
  /-- The frames drained for forwarding while the session was active. -/
  stolen : List ClientFrame := []
deriving DecidableEq

def CellForwards.opened (c : CellForwards) : ℕ :=
  c.closed.length + c.window.toList.length

structure ForwardingHost (G User : Type*) [DecidableEq G] where
  vcm : VirtualConnManager G User
  cells : CellID → CellForwards
  arrived : List ClientFrame
  history : List (Option (CellID × ℕ) × ClientFrame)

inductive InputEvent (G User : Type*)
  | register (key : SessionKey G) (username : User) (epoch : ℕ) (cellID : CellID)
  /-- Input from the gateway. -/
  | gatewayInput (data : ClientFrame) (epoch : ℕ) (channel : Channel)
  /-- Input that the driver of another host passes on. -/
  | forwardedInput (data : ClientFrame) (sourceEpoch : ℕ) (channel : Channel)
  /-- Input that a cell of the same host passes on. -/
  | localInput (data : ClientFrame)
  | activate (cell : CellID)
  | deactivate (cell : CellID)
  /-- A cell reads the input of the player. -/
  | poll (cell : CellID)
  /-- The turn of the connection in `forwardPendingInputs`, with the answers of the bridge. -/
  | forwardPending (cell : CellID) (currentClusterTick : ℕ) (answers : List Bool)
  /-- A demote is due; `remote` says whether the destination is on another host. -/
  | commit (cell destCellID : CellID) (remote : Bool) (currentClusterTick : ℕ) (answers : List Bool)

/-! ### Sending a backlog -/

def sendBacklog : List Bool → List ClientFrame → List ClientFrame × List ClientFrame
  | true :: answers, frame :: backlog =>
    let (sent, rest) := sendBacklog answers backlog
    (frame :: sent, rest)
  | _, backlog => ([], backlog)

lemma sendBacklog_append (answers : List Bool) (backlog : List ClientFrame) :
    (sendBacklog answers backlog).1 ++ (sendBacklog answers backlog).2 = backlog := by
  induction answers generalizing backlog with
  | nil => rfl
  | cons answer answers ih =>
    cases backlog with
    | nil => cases answer <;> rfl
    | cons frame backlog =>
      cases answer with
      | false => rfl
      | true => exact congrArg (frame :: ·) (ih backlog)

/-- The frames join the backlog of a window, and the backlog is sent to the destination of the
window. -/
def ForwardWindow.forward (w : ForwardWindow) (frames : List ClientFrame) (answers : List Bool) :
    ForwardWindow :=
  let (sent, rest) := sendBacklog answers (w.backlog ++ frames)
  { w with backlog := rest, sent := w.sent ++ sent.map fun frame => (w.destCellID, frame) }

/-- The frames that were drained for a window are sent to its destination in order, up to the ones
that still wait. -/
def ForwardWindow.Delivers (w : ForwardWindow) (drained waiting : List ClientFrame) : Prop :=
  w.sent.map Prod.snd ++ waiting = drained ∧ ∀ x ∈ w.sent, x.1 = w.destCellID

lemma ForwardWindow.Delivers.forward {w : ForwardWindow} {drained : List ClientFrame}
    (h : w.Delivers drained w.backlog) (frames : List ClientFrame) (answers : List Bool) :
    (w.forward frames answers).Delivers (drained ++ frames) (w.forward frames answers).backlog := by
  obtain ⟨hsent, hdest⟩ := h
  constructor
  · have hloop := sendBacklog_append answers (w.backlog ++ frames)
    simp only [ForwardWindow.forward, map_append, map_map, comp_def, map_id']
    rw [append_assoc, hloop, ← append_assoc, hsent]
  intro x hx
  rcases mem_append.mp hx with hx | hx
  · exact hdest x hx
  · obtain ⟨frame, -, rfl⟩ := mem_map.mp hx
    rfl

/-- **Forwarding at a cell is sound**, `drained k` being what was drained for its window
number `k`. -/
structure CellForwards.Sound (c : CellForwards) (drained : ℕ → List ClientFrame) : Prop where
  unstolen : c.stolen = []
  opened : ∀ w ∈ c.window, w.Delivers (drained c.closed.length) w.backlog
  closed : ∀ (i : ℕ) (w : ForwardWindow), c.closed[i]? = some w → w.Delivers (drained i) []

/-- The invariant of a cell: nothing was drained for windows to come, and a player in the cell has
no window. -/
structure CellForwards.Inv (c : CellForwards) (drained : ℕ → List ClientFrame) : Prop
    extends c.Sound drained where
  fresh : ∀ k, c.opened ≤ k → drained k = []
  away : c.active → c.window = none

/-! ### What a cell does with the frames -/

namespace CellForwards

variable {c : CellForwards} {drained : ℕ → List ClientFrame}

def addFor (drained : ℕ → List ClientFrame) (k : ℕ) (frames : List ClientFrame) (j : ℕ) :
    List ClientFrame :=
  drained j ++ if j = k then frames else []

lemma addFor_self (k : ℕ) (frames : List ClientFrame) :
    addFor drained k frames k = drained k ++ frames := by rw [addFor, if_pos rfl]

lemma addFor_of_ne {k j : ℕ} (h : j ≠ k) (frames : List ClientFrame) :
    addFor drained k frames j = drained j := by rw [addFor, if_neg h, append_nil]

lemma Inv.closed_addFor (h : c.Inv drained) {k i : ℕ} {w : ForwardWindow} (hk : c.closed.length ≤ k)
    (frames : List ClientFrame) (hw : c.closed[i]? = some w) :
    w.Delivers (addFor drained k frames i) [] := by
  have hi : i < c.closed.length := (List.getElem?_eq_some_iff.mp hw).1
  rw [addFor_of_ne (by omega)]
  exact h.closed i w hw

lemma getElem?_concat_eq_some {l : List ForwardWindow} {i : ℕ} {v w : ForwardWindow}
    (h : (l ++ [v])[i]? = some w) : l[i]? = some w ∨ i = l.length ∧ w = v := by
  rcases lt_or_ge i l.length with hi | hi
  · rw [List.getElem?_append_left hi] at h
    exact .inl h
  rw [List.getElem?_append_right hi] at h
  obtain ⟨hlt, hv⟩ := List.getElem?_eq_some_iff.mp h
  have hi' : i - l.length = 0 := by simpa using hlt
  simp only [hi', List.getElem_cons_zero] at hv
  exact .inr ⟨by omega, hv.symm⟩

lemma Inv.forwarded (h : c.Inv drained) {w : ForwardWindow} (hw : c.window = some w)
    (frames : List ClientFrame) (answers : List Bool) (closes : Prop) [Decidable closes]
    (hcloses : closes → (w.forward frames answers).backlog = []) :
    CellForwards.Inv
      (if closes then { c with window := none, closed := c.closed ++ [w.forward frames answers] }
      else { c with window := some (w.forward frames answers) })
      (addFor drained c.closed.length frames) := by
  have hopened : c.opened = c.closed.length + 1 := by
    rw [CellForwards.opened, hw]
    rfl
  have hnew := (h.opened w hw).forward frames answers
  rw [← addFor_self] at hnew
  have hfresh : ∀ k, c.opened ≤ k → addFor drained c.closed.length frames k = [] := by
    intro k hk
    rw [addFor_of_ne (by omega)]
    exact h.fresh k hk
  split
  · next hclose =>
    rw [hcloses hclose] at hnew
    refine ⟨⟨h.unstolen, ?_, ?_⟩, ?_, fun _ => rfl⟩
    · rintro _ ⟨⟩
    · intro i v hv
      rcases getElem?_concat_eq_some hv with hv | ⟨rfl, rfl⟩
      · exact h.closed_addFor le_rfl frames hv
      · exact hnew
    · intro k hk
      refine hfresh k ?_
      rw [hopened]
      simpa [CellForwards.opened] using hk
  · refine ⟨⟨h.unstolen, ?_, ?_⟩, ?_, ?_⟩
    · rintro _ ⟨⟩
      exact hnew
    · intro i v hv
      exact h.closed_addFor le_rfl frames hv
    · intro k hk
      refine hfresh k ?_
      rw [hopened]
      simpa [CellForwards.opened] using hk
    · intro hactive
      rw [h.away hactive] at hw
      cases hw

lemma Inv.handedOff (h : c.Inv drained) (hleft : ∀ w ∈ c.window, w.backlog = []) (dest : CellID)
    (expiresTick : ℕ) (frames : List ClientFrame) (answers : List Bool) :
    CellForwards.Inv
      { c with
        active := false
        window := some (ForwardWindow.forward { destCellID := dest, expiresTick } frames answers)
        closed := c.closed ++ c.window.toList }
      (addFor drained c.opened frames) := by
  have hlength : (c.closed ++ c.window.toList).length = c.opened := length_append
  refine ⟨⟨h.unstolen, ?_, ?_⟩, ?_, fun hactive => by cases hactive⟩
  · rintro _ ⟨⟩
    rw [hlength, addFor_self, h.fresh _ le_rfl]
    exact ForwardWindow.Delivers.forward ⟨rfl, fun x hx => by cases hx⟩ frames answers
  · intro i v hv
    have hle : c.closed.length ≤ c.opened := Nat.le_add_right _ _
    cases hw : c.window with
    | none =>
      simp only [hw, Option.toList_none, append_nil] at hv
      exact h.closed_addFor hle frames hv
    | some w =>
      simp only [hw, Option.toList_some] at hv
      rcases getElem?_concat_eq_some hv with hv | ⟨rfl, rfl⟩
      · exact h.closed_addFor hle frames hv
      · have hne : c.closed.length ≠ c.opened := by simp [CellForwards.opened, hw]
        rw [addFor_of_ne hne, ← hleft v hw]
        exact h.opened v hw
  · intro k hk
    have hk' : c.opened + 1 ≤ k := by simpa [CellForwards.opened, Nat.add_assoc] using hk
    rw [addFor_of_ne (by omega)]
    exact h.fresh k (by omega)

end CellForwards

namespace ForwardingHost

variable {G User : Type*} [DecidableEq G] {conn : ℕ}
  {s s' : ForwardingHost G User} {cell : CellID}

def receive (conn : ℕ) (s : ForwardingHost G User) (vcm : VirtualConnManager G User) :
    ForwardingHost G User :=
  { s with vcm, arrived := s.arrived ++ (vcm.input conn).drop (s.vcm.input conn).length }

def setCell (s : ForwardingHost G User) (cell : CellID) (c : CellForwards) :
    ForwardingHost G User :=
  { s with cells := update s.cells cell c }

def drain (conn : ℕ) (s : ForwardingHost G User) (taker : Option (CellID × ℕ)) :
    ForwardingHost G User :=
  { s with
    vcm := (s.vcm.drainInput conn).1
    history := s.history ++ (s.vcm.drainInput conn).2.map fun frame => (taker, frame) }

def forwardPending (conn : ℕ) (s : ForwardingHost G User) (cell : CellID)
    (currentClusterTick : ℕ) (answers : List Bool) (w : ForwardWindow) :
    ForwardingHost G User :=
  let c := s.cells cell
  let frames := (s.vcm.drainInput conn).2
  let w' := w.forward frames answers
  let stolen := if c.active then c.stolen ++ frames else c.stolen
  let c' : CellForwards :=
    if w'.expiresTick ≤ currentClusterTick ∧ w'.backlog = [] then
      { c with window := none, closed := c.closed ++ [w'], stolen }
    else { c with window := some w', stolen }
  (s.drain conn (some (cell, c.closed.length))).setCell cell c'

/-- The player's part of a demote in `Tick`: towards another host a window is opened, in place of
the one that may be there, and the session leaves the cell. -/
def commit (conn : ℕ) (s : ForwardingHost G User) (cell destCellID : CellID) (remote : Bool)
    (currentClusterTick : ℕ) (answers : List Bool) : ForwardingHost G User :=
  let c := s.cells cell
  if remote then
    let frames := (s.vcm.drainInput conn).2
    let route : ForwardWindow :=
      { destCellID, expiresTick := currentClusterTick + handoffInputForwardTicks }
    (s.drain conn (some (cell, c.opened))).setCell cell
      { c with
        active := false
        window := some (route.forward frames answers)
        closed := c.closed ++ c.window.toList }
  else s.setCell cell { c with active := false }

def step (conn : ℕ) (s : ForwardingHost G User) :
    InputEvent G User → Option (ForwardingHost G User)
  | .register key username epoch cellID =>
    some { s with vcm := (s.vcm.registerSession key username epoch cellID).1 }
  | .gatewayInput data epoch channel =>
    some (s.receive conn (s.vcm.injectChannelInputWithEpoch conn data epoch channel))
  | .forwardedInput data sourceEpoch channel =>
    some (s.receive conn (s.vcm.injectForwardedInputWithEpoch conn data sourceEpoch channel).1)
  | .localInput data => some (s.receive conn (s.vcm.injectInput conn data))
  | .activate cell => some (s.setCell cell { s.cells cell with active := true })
  | .deactivate cell => some (s.setCell cell { s.cells cell with active := false })
  | .poll cell => if (s.cells cell).active then some (s.drain conn none) else none
  | .forwardPending cell currentClusterTick answers =>
    (s.cells cell).window.map (s.forwardPending conn cell currentClusterTick answers)
  | .commit cell destCellID remote currentClusterTick answers =>
    some (s.commit conn cell destCellID remote currentClusterTick answers)

def start (vcm : VirtualConnManager G User) (conn : ℕ) : ForwardingHost G User :=
  ⟨vcm, fun _ => {}, vcm.input conn, []⟩

/-! ### What holds -/

def drainedFor (s : ForwardingHost G User) (cell : CellID) (k : ℕ) : List ClientFrame :=
  (s.history.filter (·.1 = some (cell, k))).map Prod.snd

/-- **Input forwarding is sound**: every frame left the queue once and in order of arrival, and
every cell deals with those that left it for a window as it should. -/
structure Sound (conn : ℕ) (s : ForwardingHost G User) : Prop where
  ordered : s.arrived = s.history.map Prod.snd ++ s.vcm.input conn
  cells : ∀ cell, (s.cells cell).Sound (s.drainedFor cell)

/-- The player does not come back to a cell while its window is open, and a handoff does not replace
a window that holds frames back. -/
def Unhurried (s : ForwardingHost G User) : InputEvent G User → Prop
  | .activate cell => (s.cells cell).window = none
  | .commit cell _ _ _ _ => ∀ w ∈ (s.cells cell).window, w.backlog = []
  | .register _ _ _ _ | .gatewayInput _ _ _ | .forwardedInput _ _ _ | .localInput _ | .deactivate _
  | .poll _ | .forwardPending _ _ _ => True

instance (s : ForwardingHost G User) (e) : Decidable (s.Unhurried e) := by
  cases e <;> dsimp only [Unhurried] <;> infer_instance

/-- No frame is lost, and all cells are sound. -/
structure Inv (conn : ℕ) (s : ForwardingHost G User) : Prop where
  ordered : s.arrived = s.history.map Prod.snd ++ s.vcm.input conn
  cells : ∀ cell, (s.cells cell).Inv (s.drainedFor cell)

lemma Inv.receive (h : s.Inv conn) {vcm : VirtualConnManager G User}
    (hvcm : s.vcm.input conn <+: vcm.input conn) : (s.receive conn vcm).Inv conn where
  ordered := by
    obtain ⟨news, hnews⟩ := hvcm
    simp only [ForwardingHost.receive, h.ordered, ← hnews, drop_left, append_assoc]
  cells := h.cells

@[simp] lemma cells_setCell_self (s : ForwardingHost G User) (cell : CellID)
    (c : CellForwards) : (s.setCell cell c).cells cell = c := update_self _ _ _

lemma cells_setCell_of_ne {cell' : CellID} (h : cell' ≠ cell) (c : CellForwards) :
    (s.setCell cell c).cells cell' = s.cells cell' := update_of_ne h _ _

@[simp] lemma drainedFor_setCell (s : ForwardingHost G User) (cell cell' : CellID)
    (c : CellForwards) : (s.setCell cell c).drainedFor cell' = s.drainedFor cell' := rfl

lemma Inv.setCell (h : s.Inv conn) {c : CellForwards} (hc : c.Inv (s.drainedFor cell)) :
    (s.setCell cell c).Inv conn where
  ordered := h.ordered
  cells cell' := by
    by_cases hcell : cell' = cell
    · subst hcell
      rw [cells_setCell_self]
      exact hc
    · rw [cells_setCell_of_ne hcell]
      exact h.cells cell'

lemma ordered_drain (h : s.Inv conn) (taker : Option (CellID × ℕ)) :
    (s.drain conn taker).arrived =
      (s.drain conn taker).history.map Prod.snd ++ (s.drain conn taker).vcm.input conn := by
  simp only [drain, h.ordered, map_append, map_map, comp_def, map_id',
    append_assoc, drained_append_input]

lemma drainedFor_drain (s : ForwardingHost G User) (k : ℕ) :
    (s.drain conn (some (cell, k))).drainedFor cell =
      CellForwards.addFor (s.drainedFor cell) k (s.vcm.drainInput conn).2 := by
  funext j
  by_cases hj : j = k
  · subst hj
    rw [CellForwards.addFor_self]
    simp [drainedFor, drain, filter_append, filter_map, comp_def]
  · rw [CellForwards.addFor_of_ne hj]
    simp [drainedFor, drain, filter_append, filter_map, comp_def, Ne.symm hj]

lemma drainedFor_drain_of_ne (s : ForwardingHost G User) {taker : Option (CellID × ℕ)}
    (h : ∀ k, taker ≠ some (cell, k)) :
    (s.drain conn taker).drainedFor cell = s.drainedFor cell := by
  funext j
  simp [drainedFor, drain, filter_append, filter_map, comp_def, h j]

lemma Inv.drain_setCell (h : s.Inv conn) {c : CellForwards} {k : ℕ}
    (hc : c.Inv (CellForwards.addFor (s.drainedFor cell) k (s.vcm.drainInput conn).2)) :
    ((s.drain conn (some (cell, k))).setCell cell c).Inv conn where
  ordered := ordered_drain h _
  cells cell' := by
    by_cases hcell : cell' = cell
    · subst hcell
      rw [cells_setCell_self, drainedFor_setCell, drainedFor_drain]
      exact hc
    rw [cells_setCell_of_ne hcell, drainedFor_setCell]
    have hdrained : (s.drain conn (some (cell, k))).drainedFor cell' = s.drainedFor cell' :=
      drainedFor_drain_of_ne s fun k h => hcell (by cases h; rfl)
    rw [hdrained]
    exact h.cells cell'

lemma inv_start (vcm : VirtualConnManager G User) (conn : ℕ) : (start vcm conn).Inv conn where
  ordered := rfl
  cells cell := by
    refine ⟨⟨rfl, ?_, ?_⟩, fun k _ => rfl, fun h => by cases h⟩
    · rintro w ⟨⟩
    · rintro i w ⟨⟩

lemma inv_forwardPending (h : s.Inv conn) {w : ForwardWindow} (hw : (s.cells cell).window = some w)
    (currentClusterTick : ℕ) (answers : List Bool) :
    (s.forwardPending conn cell currentClusterTick answers w).Inv conn := by
  have haway : (s.cells cell).active = false := by
    cases hactive : (s.cells cell).active with
    | false => rfl
    | true =>
      rw [(h.cells cell).away hactive] at hw
      cases hw
  let w' := w.forward (s.vcm.drainInput conn).2 answers
  have hnext := (h.cells cell).forwarded hw (s.vcm.drainInput conn).2 answers
    (w'.expiresTick ≤ currentClusterTick ∧ w'.backlog = []) And.right
  rw [haway] at hnext
  refine h.drain_setCell ?_
  simp only [haway, Bool.false_eq_true, if_false]
  exact hnext

lemma inv_commit (h : s.Inv conn) (hleft : ∀ w ∈ (s.cells cell).window, w.backlog = [])
    (destCellID : CellID) (remote : Bool) (currentClusterTick : ℕ) (answers : List Bool) :
    (s.commit conn cell destCellID remote currentClusterTick answers).Inv conn := by
  cases remote with
  | false =>
    have hc := h.cells cell
    exact h.setCell ⟨⟨hc.unstolen, hc.opened, hc.closed⟩, hc.fresh, fun hactive => by cases hactive⟩
  | true => exact h.drain_setCell ((h.cells cell).handedOff hleft _ _ _ _)

lemma inv_step {e : InputEvent G User} (h : s.Inv conn) (hK : s.Unhurried e)
    (hstep : Steps (step conn) s e s') : s'.Inv conn := by
  cases e with
  | register key username epoch cellID =>
    cases hstep
    exact ⟨by rw [input_registerSession]; exact h.ordered, h.cells⟩
  | gatewayInput data epoch channel =>
    cases hstep
    exact h.receive (s.vcm.input_prefix_injectChannelInputWithEpoch conn data epoch channel conn)
  | forwardedInput data sourceEpoch channel =>
    cases hstep
    exact h.receive
      (s.vcm.input_prefix_injectForwardedInputWithEpoch conn data sourceEpoch channel conn)
  | localInput data =>
    cases hstep
    exact h.receive (s.vcm.input_prefix_appendChannel conn data .event conn)
  | activate cell =>
    cases hstep
    have hc := h.cells cell
    exact h.setCell ⟨⟨hc.unstolen, hc.opened, hc.closed⟩, hc.fresh, fun _ => hK⟩
  | deactivate cell =>
    cases hstep
    have hc := h.cells cell
    exact h.setCell ⟨⟨hc.unstolen, hc.opened, hc.closed⟩, hc.fresh, fun hactive => by cases hactive⟩
  | poll cell =>
    simp only [Steps, step] at hstep
    split at hstep
    · cases hstep
      refine ⟨ordered_drain h none, fun cell' => ?_⟩
      rw [drainedFor_drain_of_ne s (fun k hk => by cases hk)]
      exact h.cells cell'
    · cases hstep
  | forwardPending cell currentClusterTick answers =>
    obtain ⟨w, hw, rfl⟩ := Option.map_eq_some_iff.mp hstep
    exact inv_forwardPending h hw currentClusterTick answers
  | commit cell destCellID remote currentClusterTick answers =>
    cases hstep
    exact inv_commit h hK destCellID remote currentClusterTick answers

/-- **Input forwarding is sound in unhurried runs.** -/
theorem sound_of_run (vcm : VirtualConnManager G User) (conn : ℕ)
    (h : Run (Steps (step conn)) Unhurried (start vcm conn) s) : s.Sound conn := by
  have hinv := h.invariant (I := Inv conn) (inv_start vcm conn) fun h hK hstep =>
    inv_step h hK hstep
  exact ⟨hinv.ordered, fun cell => (hinv.cells cell).toSound⟩

/-! A host with the cell `home`, and a player whose local connection is `1`. The cells `abroad` and
`elsewhere` are on other hosts. -/

def home : CellID := ⟨0, 0, 0⟩

def abroad : CellID := ⟨1, 0, 0⟩

def elsewhere : CellID := ⟨0, 1, 0⟩

def departure (answers : List Bool) : List (InputEvent Unit Unit) :=
  [.register ⟨(), 7⟩ () 1 home, .activate home, .gatewayInput [1] 1 .event, .poll home,
    .gatewayInput [2] 1 .event, .commit home abroad true 3 answers]

theorem sound_of_run_departure :
    ∃ s : ForwardingHost Unit Unit,
      (Run (Steps (step 1)) Unhurried (start new 1) s ∧
        (s.cells home).active = true) ∧ s.Sound 1 := by
  obtain ⟨s, hrun, hactive⟩ := exists_run (s := start new 1)
    (step 1) Unhurried (fun s : ForwardingHost Unit Unit => (s.cells home).active = true)
    (departure [true] ++ [.forwardPending home 23 [], .activate home]) (by decide +kernel)
  exact ⟨s, ⟨hrun, hactive⟩, sound_of_run _ 1 hrun⟩

/-- **A returned player loses their input**: the next frame goes to the cell they left for, and a
frame that the bridge refused is gone when they leave for a third cell. -/
theorem returned_player_robbed :
    (∃ s : ForwardingHost Unit Unit,
      Run (Steps (step 1)) Always (start new 1) s ∧
        (s.cells home).active = true ∧ (s.cells home).stolen = [[3]] ∧
        (s.cells home).window.map ForwardWindow.sent = some [(abroad, [2]), (abroad, [3])]) ∧
    ∃ s : ForwardingHost Unit Unit,
      Run (Steps (step 1)) Always (start new 1) s ∧
        s.drainedFor home 0 = [[2]] ∧ (s.cells home).closed.map ForwardWindow.sent = [[]] ∧
        (s.cells home).window.map ForwardWindow.sent = some [] := by
  constructor
  · exact exists_run _ _ _
      (departure [true] ++
        [.activate home, .gatewayInput [3] 1 .event, .forwardPending home 9 [true]])
      (by decide +kernel)
  · exact exists_run _ _ _ (departure [false] ++ [.activate home, .commit home elsewhere true 9 []])
      (by decide +kernel)

end ForwardingHost

end Mmokit
