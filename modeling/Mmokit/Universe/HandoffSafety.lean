/-
The authority over an entity under the boundary handoff.

The cluster starts with one cell that is the authority over a netID `n` and with no handoff under
way. Both results carry the safety of the abstract protocol over to the cluster, along the
simulation of `Mmokit.Universe.ClusterRefinement`.
-/
import Mmokit.Universe.ClusterRefinement
import Mathlib.Data.Fintype.Basic

namespace Mmokit

/-! ### Clusters at rest -/

/-- Nothing is under way in the cell. -/
structure Cell.AtRest {M : Type*} (c : Cell M) : Prop where
  phase : c.phase = .idle
  promotes : c.pendingPromotes = []
  inflight : c.driver.inflight = ∅
  demotes : c.driver.pendingDemotes = []
  crossings : c.stage.crossingQueue = []
  marked : c.stage.toRemove = []
  accepted : c.stage.handoffAccepted = fun _ => none
  log : c.stage.log = []

namespace Cluster

variable {M : Type*} {s t : Cluster M} {n : NetID} {b : Epoch}
  {owner : M}

structure Initial (n : NetID) (owner : M) (b : Epoch) (s : Cluster M) :
    Prop where
  /-- The netID `0` stands for "no netID". -/
  netID_ne : n ≠ 0
  wf : ∀ c, (s.cells c).stage.WF
  coherent : ∀ c, (s.cells c).stage.CoherentAt n
  rest : ∀ c, (s.cells c).AtRest
  net : s.net = []
  live_owner : (s.cells owner).stage.liveEpoch n = some b
  live_other : ∀ c ≠ owner, (s.cells c).stage.isLive n = false

/-- No message is under way, no offer waits for its acceptance, and no promotion and no demote waits
for its tick. -/
@[mk_iff]
structure Quiescent (s : Cluster M) : Prop where
  net : s.net = []
  inflight : ∀ c, (s.cells c).driver.inflight.entries = []
  demotes : ∀ c, (s.cells c).demotions = []
  promotes : ∀ c, (s.cells c).promotions = []

instance [Fintype M] : DecidablePred (@Quiescent M) := fun s =>
  decidable_of_iff' _ (quiescent_iff s)

lemma Initial.sane (h : s.Initial n owner b) : s.Sane n where
  cell c := by
    have hr := h.rest c
    refine ⟨h.wf c, h.coherent c, hr.marked, ?_, ?_, ?_⟩
    · simp [Cell.crossings, hr.crossings, hr.phase]
    · simp [Cell.promotions, hr.promotes, hr.phase]
    · simp [hr.inflight]
  net := by simp [h.net]

lemma Initial.fresh (h : s.Initial n owner b) : (s.view n).Fresh owner b where
  holds_owner := h.live_owner
  holds_other c hc := by
    by_contra hne
    have := (Stage.isLive_iff_liveEpoch (h.coherent c)).mpr hne
    simp [h.live_other c hc] at this
  offer c := by simp [view, Cell.view, (h.rest c).inflight]
  armed c := by simp [view, Cell.view, Cell.demotions, (h.rest c).demotes, (h.rest c).phase]
  queue c := by simp [view, Cell.view, Cell.promotions, (h.rest c).promotes, (h.rest c).phase]
  ledger c := by
    simp [view, Cell.view, Stage.ledger, (h.rest c).accepted, (h.rest c).log, acceptedSinceDemote,
      acceptedEpochs, Ledger.empty]
  net := by simp [view, netView, h.net]

/-! ### Two cells -/

def emptyStage (strict : Bool) : Stage (Fin 2) :=
  { ecs := ⟨0, fun _ => none⟩, netIDIdx := ⟨fun _ => none⟩, strictNetIDIndex := strict,
    replicaNetIDs := fun _ => none, highestSeenEpoch := fun _ => none, borderLastSeen := [],
    handoffAccepted := fun _ => none, crossingQueue := [], drainingForMerge := false,
    toRemove := [], log := [] }

def cellOf (b : Stage (Fin 2)) : Cell (Fin 2) := ⟨⟨b, ∅, [], fun _ _ => none⟩, [], .idle⟩

def twoCells (strict : Bool) : Cluster (Fin 2) where
  cells c :=
    if c = 0 then cellOf ((emptyStage strict).spawnLiveFromTransfer 0 ⟨7, 0⟩).2
    else cellOf (emptyStage strict)
  net := []

lemma emptyStage_wf (strict : Bool) : (emptyStage strict).WF :=
  ⟨fun _ _ => rfl, by simp [emptyStage], by simp [emptyStage]⟩

lemma emptyStage_coherent (strict : Bool) (n : NetID) : (emptyStage strict).CoherentAt n :=
  ⟨by simp [emptyStage], by simp [emptyStage], by simp [emptyStage]⟩

lemma cellOf_atRest {b : Stage (Fin 2)}
    (h : b.record = (fun _ => none, [], [], [])) : (cellOf b).AtRest := by
  simp only [Stage.record, Prod.mk.injEq] at h
  obtain ⟨hacc, hlog, hmark, hqueue⟩ := h
  exact ⟨rfl, rfl, rfl, rfl, hqueue, hmark, hacc, hlog⟩

lemma twoCells_initial (strict : Bool) : (twoCells strict).Initial 7 0 0 := by
  obtain ⟨b, hspawn, htame, hlive⟩ := Stage.spawnLive_of_free 0 ⟨7, 0⟩
    (emptyStage_wf strict) (emptyStage_coherent strict 7) (by decide) rfl rfl
  have hcell : (twoCells strict).cells 0 = cellOf b := by simp [twoCells, hspawn]
  have hother {c : Fin 2} (hc : c ≠ 0) : (twoCells strict).cells c =
    cellOf (emptyStage strict) := by
    simp [twoCells, hc]
  have hrec : b.record = (fun _ => none, [], [], []) := by
    have h : ((emptyStage strict).spawnLiveFromTransfer 0 ⟨7, 0⟩).2.record =
        (emptyStage strict).record := Stage.spawnLiveFromTransfer_record
    rwa [hspawn] at h
  refine ⟨by decide, fun c => ?_, fun c => ?_, fun c => ?_, rfl, hcell ▸ hlive, fun c hc => ?_⟩
  · by_cases hc : c = 0
    · exact hc ▸ hcell ▸ htame.wf
    · exact hother hc ▸ emptyStage_wf strict
  · by_cases hc : c = 0
    · exact hc ▸ hcell ▸ htame.coherent
    · exact hother hc ▸ emptyStage_coherent strict 7
  · by_cases hc : c = 0
    · exact hc ▸ hcell ▸ cellOf_atRest hrec
    · exact hother hc ▸ cellOf_atRest rfl
  · exact hother hc ▸ rfl

def tick (c : Fin 2) (t : UInt64) (promotes : List (PendingPromote (Fin 2)))
    (retries : List (NetID × Bool)) (demotes : List (PendingDemote (Fin 2)))
    (crossings : List Bool) : List (ClusterEvent (Fin 2)) :=
  List.flatten [[.loop c (.beginTick t promotes)], promotes.map fun _ => .loop c .promote,
    [.loop c (.beginRetries (retries.map (·.1)))], retries.map fun r => .loop c (.retry r.2),
    [.loop c (.beginDemotes demotes)], demotes.map fun _ => .loop c .demote,
    [.loop c .beginCrossings], crossings.map fun sent => .loop c (.cross sent),
    [.loop c .endTick]]

def offered : Packet (Fin 2) := ⟨0, 1, .handoff ⟨7, 1, 12, ⟨7, 1⟩, 0⟩⟩

def offerFirst : List (ClusterEvent (Fin 2)) :=
  .queueCrossing 0 ⟨0, 7, 0, 1, false⟩ :: tick 0 10 [] [] [] [true]

def acceptSecond : List (ClusterEvent (Fin 2)) :=
  .deliver offered true :: tick 1 12 [⟨7, 1, ⟨7, 1⟩, 0, 0⟩] [] [] []

def demoteFirst : List (ClusterEvent (Fin 2)) :=
  .deliver ⟨1, 0, .handoffAccepted ⟨7, 1, 12⟩⟩ true :: tick 0 12 [] [] [⟨7, 1, 0⟩] []

def offerBack : List (ClusterEvent (Fin 2)) :=
  .queueCrossing 1 ⟨0, 7, 0, 0, false⟩ :: tick 1 40 [] [] [] [true]

def acceptBack : ClusterEvent (Fin 2) :=
  .deliver ⟨1, 0, .handoff ⟨7, 2, 42, ⟨7, 2⟩, 0⟩⟩ true

def demoteSecond : List (ClusterEvent (Fin 2)) :=
  .deliver ⟨0, 1, .handoffAccepted ⟨7, 2, 42⟩⟩ true :: tick 1 42 [] [] [⟨7, 0, 0⟩] []

def handBack : List (ClusterEvent (Fin 2)) :=
  List.flatten [offerBack, [acceptBack], tick 0 42 [⟨7, 2, ⟨7, 2⟩, 0, 1⟩] [] [] [], demoteSecond]

def crossBack : List (ClusterEvent (Fin 2)) :=
  List.flatten [offerBack, [acceptBack, .deliver ⟨1, 0, .handoffAccepted ⟨7, 1, 12⟩⟩ true],
    tick 0 42 [⟨7, 2, ⟨7, 2⟩, 0, 1⟩] [] [⟨7, 1, 0⟩] [], demoteSecond]

/-! ### The results -/

section Safety

variable [DecidableEq M]

lemma Initial.view_run {K : Cluster M → ClusterEvent M → Prop}
    (K' : Handover.Config M → Handover.Act M → Prop) (h₀ : s.Initial n owner b)
    (hord : ∀ s ev, K s ev → s.OrderlyAt n b ev)
    (hK : ∀ s ev act, K s ev → s.Explains n ev act → K' (s.view n) act)
    (h : Run (Steps step) K s t) : t.Sane n ∧ Run Handover.Step K' (s.view n) (t.view n) := by
  have hsim {t u : Cluster M} {ev : ClusterEvent M} (ht : t.Sane n)
      (hk : K t ev) (hstep : Steps step t ev u) : Simulates n t ev u :=
    simulation h₀.netID_ne ht (hord t ev hk) hstep
  have hsane {t u : Cluster M} {ev : ClusterEvent M} (ht : t.Sane n)
      (hk : K t ev) (hstep : Steps step t ev u) : u.Sane n := (hsim ht hk hstep).1
  refine ⟨h.invariant h₀.sane hsane, h.simulate (view n) h₀.sane hsane fun ht hk hstep => ?_⟩
  obtain ⟨-, act, hex, hstep'⟩ := hsim ht hk hstep
  exact .inr ⟨act, hK _ _ act hk hex, hstep'⟩

/-- **The authority over an entity is never lost**, in runs that promote it only where it is not
live and keep its epochs in one window: some cell is the authority, or has a promotion waiting. -/
theorem authority_kept (h₀ : s.Initial n owner b)
    (h : Run (Steps step) (fun s ev => s.OrderlyAt n b ev) s t) :
    ∃ c, (t.cells c).stage.isLive n = true ∨ ∃ p ∈ (t.cells c).promotions, p.netID = n := by
  obtain ⟨hsane, hrun⟩ := h₀.view_run (Handover.Orderly b) (fun _ _ hk => hk)
    (fun _ _ _ hk hex => hk.orderly hex) h
  obtain ⟨c, hheld | hqueue⟩ := Handover.Kept.run h₀.fresh hrun
  · exact ⟨c, .inl ((Stage.isLive_iff_liveEpoch (hsane.cell c).coherent).mpr hheld)⟩
  refine ⟨c, .inr ?_⟩
  by_contra hnone
  push Not at hnone
  refine hqueue ?_
  simpa [view, Cell.view] using hnone

theorem authority_kept_handOver : ∃ t, Run (Steps step) (fun s ev => s.OrderlyAt 7 0 ev)
    (twoCells true) t ∧ t.net = [] ∧
      ∃ c, (t.cells c).stage.isLive 7 = true ∨ ∃ p ∈ (t.cells c).promotions, p.netID = 7 := by
  obtain ⟨t, hrun, hnet⟩ := exists_run (s := twoCells true) step
    (fun s ev => s.OrderlyAt 7 0 ev) (fun t => t.net = [])
      (offerFirst ++ acceptSecond ++ demoteFirst) (by decide +kernel)
  exact ⟨t, hrun, hnet, authority_kept (twoCells_initial true) hrun⟩

/-- **Without the condition the authority can be lost for good**: the netID comes back to a cell
that has not demoted it yet. Nothing is under way in the end, and no cell is the authority. -/
theorem authority_lost : (twoCells true).Initial 7 0 0 ∧
    ∃ t, Run (Steps step) Always (twoCells true) t ∧ t.net = [] ∧
      ∀ c, (t.cells c).stage.isLive 7 = false ∧ (t.cells c).promotions = [] :=
  ⟨twoCells_initial true, exists_run _ _ _
    (offerFirst ++ acceptSecond ++ crossBack) (by decide +kernel)⟩

-- the index need not be strict for this
example : ∃ t, Run (Steps step) Always (twoCells false) t ∧
    ∀ c, (t.cells c).stage.isLive 7 = false ∧ (t.cells c).promotions = [] :=
  exists_run _ _ _ (offerFirst ++ acceptSecond ++ crossBack) (by decide +kernel)

/-- **Once a handoff has settled, there is a single authority.** -/
theorem single_authority (h₀ : s.Initial n owner b)
    (h : Run (Steps step) (fun s ev => s.SettlingAt n b ev) s t) (hq : t.Quiescent) :
    ∃! c, (t.cells c).stage.isLive n = true := by
  obtain ⟨hsane, hrun⟩ := h₀.view_run (Handover.Settling b) (fun _ _ hk => hk.orderlyAt)
    (fun _ _ _ hk hex => hk.settling hex) h
  have hunique := (Handover.Settled.run h₀.fresh hrun).unique
    (fun c => by simp [view, Cell.view, AList.lookup, hq.inflight c])
    (fun c => by simp [view, Cell.view, hq.demotes c])
    (fun c => by simp [view, Cell.view, hq.promotes c])
  obtain ⟨c, hc, honly⟩ := hunique
  exact ⟨c, (Stage.isLive_iff_liveEpoch (hsane.cell c).coherent).mpr hc,
    fun d hd => honly d ((Stage.isLive_iff_liveEpoch (hsane.cell d).coherent).mp hd)⟩

theorem single_authority_handOver : ∃ t, Run (Steps step) (fun s ev => s.SettlingAt 7 0 ev)
    (twoCells true) t ∧ t.Quiescent ∧ ∃! c, (t.cells c).stage.isLive 7 = true := by
  obtain ⟨t, hrun, hquiet⟩ := exists_run (s := twoCells true) step
    (fun s ev => s.SettlingAt 7 0 ev) Quiescent (offerFirst ++ acceptSecond ++ demoteFirst)
      (by decide +kernel)
  exact ⟨t, hrun, hquiet, single_authority (twoCells_initial true) hrun hquiet⟩

/-- **An offer that is given up after it was accepted leaves two authorities.** The acceptance is
lost, and when the first cell wants to repeat its offer, the second one cannot be reached. -/
theorem authority_doubled : (twoCells true).Initial 7 0 0 ∧
    ∃ t, Run (Steps step) Always (twoCells true) t ∧ t.Quiescent ∧
      ∀ c, (t.cells c).stage.isLive 7 = true :=
  ⟨twoCells_initial true, exists_run _ _ _
    (offerFirst ++ acceptSecond ++ [.lose ⟨1, 0, .handoffAccepted ⟨7, 1, 12⟩⟩] ++
      tick 0 40 [] [(7, false)] [] []) (by decide +kernel)⟩

end Safety

end Cluster

end Mmokit
