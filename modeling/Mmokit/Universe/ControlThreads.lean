/-
The goroutines of the coordinator that read and write the host registry: the handlers of control
streams (`handleHostControl`), the liveness watcher, rebalances and the reassignment of a dead
host's cells (`coord_assignment.go`), the commits of cell transfers and the graceful leave of a
host.

A thread is the list of what it still has to do. One item of the list, an `Action`, is what the
source does between taking a lock and releasing it, or one send; running it may put further actions
in front of the list.

What the registry does not determine is the answer that comes with a step: which of several owners
`HostForCell` finds, whether a send succeeds, whether a heartbeat is recent, and how rendezvous
hashing spreads cells over hosts.
-/
import Mmokit.Universe.HostRegistry
import Mathlib.Data.List.Dedup

namespace Mmokit

open List

/-- A split, a merge or a migration that is about to be committed, with the hosts that were found or
chosen when it began. -/
inductive TransferPlan (H : Type*)
  | split (parent : CellID) (srcHost : H) (host₀ host₁ host₂ host₃ : H)
  | merge (parent : CellID) (host₀ host₁ host₂ host₃ choice : H)
  | migrate (cell : CellID) (srcHost destHost : H)
deriving DecidableEq

def TransferPlan.request {H : Type*} [DecidableEq H] :
    TransferPlan H → CellTransferRequest H
  | split parent srcHost host₀ host₁ host₂ host₃ =>
    .split 0 parent srcHost [host₀, host₁, host₂, host₃]
  | merge parent host₀ host₁ host₂ host₃ choice =>
    .merge 0 parent [host₀, host₁, host₂, host₃] choice
  | migrate cell srcHost destHost => .migrate 0 cell srcHost destHost

/-- What a thread does under one lock. -/
inductive ControlAction (H : Type*)
  /-- `admitHostRegistration`, the lookup of the entry. -/
  | admitEntry (h : H) (serviceOnly : Bool)
  /-- `admitHostRegistration`, the lookup of the stream; `defended` says that the entry is known,
  not dead and has a recent heartbeat. -/
  | admitStream (h : H) (serviceOnly defended : Bool)
  | registerStream (h : H) (serviceOnly : Bool)
  | register (h : H) (serviceOnly : Bool)
  /-- The `RegisterAck`; without it the handler returns before it has a teardown. -/
  | ack (h : H)
  /-- The handler begins to take messages. -/
  | serve
  | touch (h : H)
  /-- `CellReady`: who owns the cell? -/
  | readyOwner (h : H) (c : CellID)
  /-- `CellReady`: is the other owner dead? -/
  | readyState (h : H) (c : CellID) (current : H)
  /-- The teardown's gate, `releaseHostStream`. -/
  | releaseStream (h : H)
  /-- The teardown's lookup of the entry. -/
  | leave (h : H)
  | markDead (h : H)
  | markLeaving (h : H)
  | remove (h : H)
  | cancelStream (h : H)
  /-- `checkLiveness`: the hosts, of which these have no recent heartbeat. -/
  | checkLiveness (stale : List H)
  /-- `reassignOrphanedCells`: choose a live host for each of these cells. -/
  | reassignOrphanedCells (dead : H) (cells : List CellID)
  /-- `rebalance`: the hosts. -/
  | rebalance
  /-- `enumerateCells`: the cells in the registry. -/
  | enumerateOwned (hosts : List H)
  /-- `enumerateCells`: the cells in the map; then a host for each cell. -/
  | enumerateCells (hosts : List H) (owned : List CellID)
  /-- The body of the loop of `rebalance`: who owns the cell? -/
  | place (c : CellID) (h : H)
  | dispatchRelease (h : H) (c : CellID)
  | dispatchAssign (h : H) (c : CellID)
  | releaseCell (h : H) (c : CellID)
  | assignCell (h : H) (c : CellID)
  /-- A commit: the change of the map and the tiling. -/
  | commit (plan : TransferPlan H)
  /-- After the drain of a leaving host: the cells that it still has. -/
  | sweep (h : H)
deriving DecidableEq

structure Answer (H : Type*) where
  owner : Option H := none
  sent : Bool := true
  fresh : Bool := true
  assignments : List (CellID × H) := []

inductive ThreadRole (H : Type*)
  /-- A handler that does not take messages yet, or has returned without a teardown. -/
  | connecting (h : H)
  | serving (h : H)
  | closing (h : H)
  /-- A goroutine of the coordinator. -/
  | pass
deriving DecidableEq

structure Thread (H : Type*) where
  role : ThreadRole H
  todo : List (ControlAction H)
deriving DecidableEq

def ThreadRole.host? {H : Type*} : ThreadRole H → Option H
  | connecting h | serving h | closing h => some h
  | pass => none

inductive HostMessage
  | cellReady (c : CellID)
  | cellStopped (c : CellID)
  | heartbeat
deriving DecidableEq

/-- The registry and the threads at work on it. -/
structure ControlPlane (H : Type*) where
  registry : Registry H
  threads : List (Thread H)

inductive ControlEvent (H : Type*)
  /-- A stream with a `Register` message. -/
  | connect (h : H) (serviceOnly : Bool)
  | message (handler : ℕ) (msg : HostMessage)
  /-- The stream ends, or the handler sees that it is killed. -/
  | close (handler : ℕ)
  | checkLiveness (stale : List H)
  | rebalance
  | commit (plan : TransferPlan H)
  /-- The drain after `GracefulLeave` is over. -/
  | drained (h : H)
  | run (thread : ℕ) (answer : Answer H)

namespace ControlAction

variable {H : Type*} [DecidableEq H]

/-- `AssignCellToHost` may have given these: the cells, once each and in some order, with one of the
hosts. -/
def Spreads (assignments : List (CellID × H)) (cells : List CellID) (hosts : List H) :
    Prop :=
  isPerm (assignments.map Prod.fst) cells.dedup = true ∧ ∀ a ∈ assignments, a.2 ∈ hosts

instance (assignments : List (CellID × H)) (cells : List CellID) (hosts : List H) :
    Decidable (Spreads assignments cells hosts) :=
  have : Decidable (∀ a ∈ assignments, a.2 ∈ hosts) :=
    decidableBAll (fun a => a.2 ∈ hosts) assignments
  inferInstanceAs (Decidable (_ ∧ _))

def registryDelta (m : TopologyMutation H) (pre : CellID → Option H) :
    List (ControlAction H) :=
  (m.remove.flatMap fun c => ((pre c).toList.map fun h => releaseCell h c)) ++
    m.add.flatMap fun a =>
      (((pre a.1).filter (· ≠ a.2)).toList.map fun h => releaseCell h a.1) ++ [assignCell a.2 a.1]

lemma mem_registryDelta {m : TopologyMutation H} {pre : CellID → Option H} {a : ControlAction H}
    (ha : a ∈ registryDelta m pre) :
    (∃ h c, a = releaseCell h c ∧ pre c = some h) ∨ ∃ b ∈ m.add, a = assignCell b.2 b.1 := by
  rcases mem_append.mp ha with ha | ha
  · obtain ⟨c, -, ha⟩ := mem_flatMap.mp ha
    obtain ⟨h, hh, rfl⟩ := mem_map.mp ha
    exact .inl ⟨h, c, rfl, by simpa using hh⟩
  obtain ⟨b, hb, ha⟩ := mem_flatMap.mp ha
  rcases mem_append.mp ha with ha | ha
  · obtain ⟨h, hh, rfl⟩ := mem_map.mp ha
    have hpre : pre b.1 = some h ∧ h ≠ b.2 := by simpa using hh
    exact .inl ⟨h, b.1, rfl, hpre.1⟩
  · exact .inr ⟨b, hb, mem_singleton.mp ha⟩

def effect (i : ℕ) (s : Registry H) : ControlAction H → Registry H
  | registerStream h _ => s.registerStream i h
  | register h serviceOnly => s.register i h serviceOnly
  | touch h => s.touch h
  | releaseStream h => if s.streams h = some i then s.deleteStream h else s
  | markDead h => s.markDead h
  | markLeaving h => s.markLeaving h
  | remove h => s.remove h
  | cancelStream h => s.cancelStream h
  | releaseCell h c => s.releaseCell h c
  | assignCell h c => s.assignCell h c
  | commit plan => s.coordMutation plan.request
  | _ => s

/-- What an action of the thread `i` leads to. `none` means that this answer cannot come. -/
def next (i : ℕ) (s : Registry H) (ans : Answer H) :
    ControlAction H → Option (List (ControlAction H))
  | admitEntry h serviceOnly =>
    if h ∈ s.ownership.hosts ∧ (s.entry h).isLocal then some []
    else some [admitStream h serviceOnly (decide (s.NotDead h) && ans.fresh)]
  | admitStream h serviceOnly defended =>
    if defended && (s.streams h).any (· ∉ s.killed) then some []
    else some [registerStream h serviceOnly]
  | registerStream h serviceOnly => some [register h serviceOnly]
  | register h _ => some [ack h]
  | ack _ => some (if ans.sent then [serve] else [])
  | readyOwner h c =>
    if s.Answers c ans.owner then
      match ans.owner with
      | some current => some (if current = h then [assignCell h c] else [readyState h c current])
      | none => some [assignCell h c]
    else none
  | readyState h c current =>
    some (if s.NotDead current then [dispatchRelease h c] else [assignCell h c])
  | releaseStream h => some (if s.streams h = some i then [leave h] else [])
  | leave h =>
    if h ∈ s.ownership.hosts then
      if s.ownership.ownedCells h = [] then some [markLeaving h, remove h]
      else some [markDead h, reassignOrphanedCells h (s.ownership.ownedCells h)]
    else some []
  | checkLiveness stale =>
    some ((stale.filter fun h => h ∈ s.ownership.hosts && (s.entry h).state = .live &&
        !(s.entry h).isLocal).flatMap fun h =>
      [markDead h, cancelStream h, reassignOrphanedCells h (s.ownership.ownedCells h)])
  | reassignOrphanedCells dead cells =>
    if s.liveHosts = [] then some []
    else if Spreads ans.assignments cells s.liveHosts then
      some (ans.assignments.flatMap fun a => [releaseCell dead a.1, dispatchAssign a.2 a.1])
    else none
  | rebalance => some (if s.assignableHosts = [] then [] else [enumerateOwned s.assignableHosts])
  | enumerateOwned hosts => some [enumerateCells hosts s.ownedCells]
  | enumerateCells hosts owned =>
    if Spreads ans.assignments (s.enumerateCells owned) hosts then
      some (ans.assignments.map fun a => place a.1 a.2)
    else none
  | place c h =>
    if s.Answers c ans.owner then
      match ans.owner with
      | some existing =>
        some (if existing = h then [] else [dispatchRelease existing c, dispatchAssign h c])
      | none => some [dispatchAssign h c]
    else none
  | dispatchRelease h c =>
    if ans.sent then
      if s.streams h = none then none else some [releaseCell h c]
    else some []
  | dispatchAssign h c =>
    if ans.sent then
      if s.streams h = none then none else some [assignCell h c]
    else some []
  | commit plan =>
    some (registryDelta plan.request.mutation (s.ownership.preOwnership plan.request))
  | sweep h =>
    some (if h ∈ s.ownership.hosts then
      (s.ownership.ownedCells h).map fun c => releaseCell h c else [])
  | serve | touch _ | markDead _ | markLeaving _ | remove _ | cancelStream _ | releaseCell _ _
  | assignCell _ _ => some []

end ControlAction

def HostMessage.actions {H : Type*} (h : H) : HostMessage → List (ControlAction H)
  | cellReady c => [.readyOwner h c]
  | cellStopped c => [.releaseCell h c]
  | heartbeat => [.touch h]

def ThreadRole.after {H : Type*} : ThreadRole H → ControlAction H → ThreadRole H
  | connecting h, .serve => serving h
  | role, _ => role

namespace ControlPlane

variable {H : Type*} [DecidableEq H] (s : ControlPlane H)

def start (grid : List CellID) : ControlPlane H where
  registry := {
    ownership := ⟨fun _ => none, [], fun _ => []⟩
    entry := fun _ => ⟨.unknown, false, false, none⟩
    topology := grid
    grid := grid
    streams := fun _ => none
    killed := []
    gen := fun _ => 0
    streamSeq := 0 }
  threads := []

def spawn (role : ThreadRole H) (a : ControlAction H) : ControlPlane H :=
  { s with threads := s.threads ++ [⟨role, [a]⟩] }

def setThread (i : ℕ) (t : Thread H) : ControlPlane H :=
  { s with threads := s.threads.set i t }

omit [DecidableEq H] in
lemma getElem?_spawn {role : ThreadRole H} {a : ControlAction H} {j : ℕ}
    (hj : j < s.threads.length) : (s.spawn role a).threads[j]? = s.threads[j]? :=
  getElem?_append_left hj

omit [DecidableEq H] in
lemma thread_of_spawn {role : ThreadRole H} {a : ControlAction H} {j : ℕ} {t : Thread H}
    (h : (s.spawn role a).threads[j]? = some t) :
    s.threads[j]? = some t ∨ j = s.threads.length ∧ t = ⟨role, [a]⟩ := by
  rcases Nat.lt_or_ge j s.threads.length with hj | hj
  · exact .inl (by rwa [getElem?_spawn s hj] at h)
  obtain ⟨hlt, ht⟩ := List.getElem?_eq_some_iff.mp h
  have hj' : j = s.threads.length := by
    simp only [spawn, List.length_append, List.length_singleton] at hlt
    omega
  subst hj'
  exact .inr ⟨rfl, by simpa [spawn] using ht.symm⟩

omit [DecidableEq H] in
lemma thread_of_set {i j : ℕ} {t u v : Thread H} (hi : s.threads[i]? = some u)
    (h : (s.threads.set i v)[j]? = some t) : j ≠ i ∧ s.threads[j]? = some t ∨ j = i ∧ t = v := by
  by_cases hij : i = j
  · subst hij
    have hlt : i < s.threads.length := (List.getElem?_eq_some_iff.mp hi).1
    rw [List.getElem?_set_self hlt] at h
    exact .inr ⟨rfl, (Option.some.inj h).symm⟩
  · exact .inl ⟨Ne.symm hij, by rwa [getElem?_set_ne hij] at h⟩

def runThread (i : ℕ) (ans : Answer H) : Option (ControlPlane H) :=
  match s.threads[i]? with
  | some ⟨role, a :: rest⟩ =>
    (a.next i s.registry ans).map fun todo =>
      ⟨a.effect i s.registry, s.threads.set i ⟨role.after a, todo ++ rest⟩⟩
  | _ => none

def step : ControlEvent H → Option (ControlPlane H)
  | .connect h serviceOnly => some (s.spawn (.connecting h) (.admitEntry h serviceOnly))
  | .message i msg =>
    match s.threads[i]? with
    | some ⟨.serving h, []⟩ => some (s.setThread i ⟨.serving h, msg.actions h⟩)
    | _ => none
  | .close i =>
    match s.threads[i]? with
    | some ⟨.serving h, []⟩ => some (s.setThread i ⟨.closing h, [.releaseStream h]⟩)
    | _ => none
  | .checkLiveness stale => some (s.spawn .pass (.checkLiveness stale))
  | .rebalance => some (s.spawn .pass .rebalance)
  | .commit plan => some (s.spawn .pass (.commit plan))
  | .drained h => some (s.spawn .pass (.sweep h))
  | .run i ans => s.runThread i ans

def starts : ControlEvent H → Option (ThreadRole H × ControlAction H)
  | .connect h serviceOnly => some (.connecting h, .admitEntry h serviceOnly)
  | .checkLiveness stale => some (.pass, .checkLiveness stale)
  | .rebalance => some (.pass, .rebalance)
  | .commit plan => some (.pass, .commit plan)
  | .drained h => some (.pass, .sweep h)
  | _ => none

lemma step_cases {s t : ControlPlane H} {e : ControlEvent H} (h : s.step e = some t) :
    (∃ role a, starts e = some (role, a) ∧ t = s.spawn role a) ∨
    (∃ i msg g, e = .message i msg ∧ s.threads[i]? = some ⟨.serving g, []⟩ ∧
      t = s.setThread i ⟨.serving g, msg.actions g⟩) ∨
    (∃ i g, e = .close i ∧ s.threads[i]? = some ⟨.serving g, []⟩ ∧
      t = s.setThread i ⟨.closing g, [.releaseStream g]⟩) ∨
    (∃ i ans role a rest todo, e = .run i ans ∧ s.threads[i]? = some ⟨role, a :: rest⟩ ∧
      a.next i s.registry ans = some todo ∧
      t = ⟨a.effect i s.registry, s.threads.set i ⟨role.after a, todo ++ rest⟩⟩) := by
  cases e with
  | connect | checkLiveness | rebalance | commit | drained =>
    exact .inl ⟨_, _, rfl, (Option.some.inj h).symm⟩
  | message i msg =>
    simp only [step] at h
    split at h
    · exact .inr (.inl ⟨i, msg, _, rfl, ‹_›, (Option.some.inj h).symm⟩)
    · cases h
  | close i =>
    simp only [step] at h
    split at h
    · exact .inr (.inr (.inl ⟨i, _, rfl, ‹_›, (Option.some.inj h).symm⟩))
    · cases h
  | run i ans =>
    simp only [step, runThread] at h
    split at h
    · obtain ⟨todo, htodo, rfl⟩ := Option.map_eq_some_iff.mp h
      exact .inr (.inr (.inr ⟨i, ans, _, _, _, todo, rfl, ‹_›, htodo, rfl⟩))
    · cases h

def registration (thread : ℕ) (h : H) : List (ControlEvent H) :=
  .connect h false :: replicate 6 (.run thread {})

end ControlPlane

end Mmokit
