/-
A committed transfer has landed.

An acknowledgement names its request, the destination cell and the destination host, but not the
command. For a split or a migration this is enough, because the destination cells of the commands
are distinct. The commands of a merge all have the same destination, so only the number of
acknowledgements counts: a `Ready` that the network delivers three times commits a merge of which
two donors were never populated (`merge_commits_unlanded`).
-/
import Mathlib
import Mmokit.Universe.CellTransferExecutor
import Mmokit.Universe.TransferOutcome

namespace Mmokit

open List Option Orchestrator TransferSystem

variable {H : Type*}

namespace CellTransferRequest

/-- What the commands of a request have in common. -/
structure Shaped (req : CellTransferRequest H) : Prop where
  requestID : ∀ cmd ∈ req.commands, cmd.requestID = req.id
  kind : ∀ cmd ∈ req.commands, cmd.kind = req.kind
  nodup : req.commands.Nodup
  /-- The destination of a split or a migration determines the command. -/
  dest : req.kind ≠ .merge → ∀ cmd ∈ req.commands, ∀ cmd' ∈ req.commands,
    cmd.destCellID = cmd'.destCellID → cmd = cmd'
  /-- All transfers of a merge go to the survivor. -/
  survivor : req.kind = .merge → ∀ cmd ∈ req.commands, ∀ cmd' ∈ req.commands,
    cmd.destCellID = cmd'.destCellID

variable {parent : CellID} {hosts : List H}

lemma shaped_split {id : ℕ} {srcHost : H} (hlen : hosts.length = 4) :
    (split id parent srcHost hosts).Shaped := by
  obtain ⟨h₀, h₁, h₂, h₃, rfl⟩ := length_eq_four.mp hlen
  constructor <;> simp [split, CellID.children]

lemma shaped_merge [DecidableEq H] {id : ℕ} {choice : H} (hlen : hosts.length = 4) :
    (merge id parent hosts choice).Shaped := by
  have hidx := survivorIdx_lt choice hlen
  obtain ⟨h₀, h₁, h₂, h₃, rfl⟩ := length_eq_four.mp hlen
  simp only [merge]
  generalize survivorIdx [h₀, h₁, h₂, h₃] choice = i at hidx ⊢
  constructor
  · rintro cmd hcmd
    obtain ⟨donor, -, rfl⟩ := mem_map.mp hcmd
    rfl
  · rintro cmd hcmd
    obtain ⟨donor, -, rfl⟩ := mem_map.mp hcmd
    rfl
  · interval_cases i <;> simp [CellID.children, eraseIdx]
  · simp
  rintro - cmd hcmd cmd' hcmd'
  obtain ⟨donor, -, rfl⟩ := mem_map.mp hcmd
  obtain ⟨donor', -, rfl⟩ := mem_map.mp hcmd'
  rfl

lemma shaped_migrate {id : ℕ} {cell : CellID} {srcHost destHost : H} :
    (migrate id cell srcHost destHost).Shaped := by
  constructor <;> simp [migrate]

lemma Shaped.ack [DecidableEq H] {req : CellTransferRequest H} (h : req.Shaped) (slot : ℕ)
    (host : H) : (req.ack slot host).Shaped :=
  ⟨h.requestID, h.kind, h.nodup, h.dest, h.survivor⟩

end CellTransferRequest

namespace Orchestrator

variable {o o' : Orchestrator H} {req : CellTransferRequest H}

def CommitOf (o : Orchestrator H) (req : CellTransferRequest H) : Prop :=
  (∃ stage, (req, stage) ∈ o.commits) ∨ (req, .committed) ∈ o.results

def Known (o : Orchestrator H) (req : CellTransferRequest H) : Prop :=
  (∃ id, o.inflight id = some req) ∨ o.CommitOf req

/-- No request comes up. -/
structure Quiet (o o' : Orchestrator H) : Prop where
  nextID : o'.nextID = o.nextID
  inflight : ∀ {id req}, o'.inflight id = some req → o.inflight id = some req
  commits : ∀ {req}, o'.CommitOf req → o.CommitOf req

lemma Quiet.refl (o : Orchestrator H) : Quiet o o := ⟨rfl, id, id⟩

lemma Quiet.trans {o'' : Orchestrator H} (h : Quiet o o') (h' : Quiet o' o'') : Quiet o o'' :=
  ⟨h'.nextID.trans h.nextID, fun hin => h.inflight (h'.inflight hin),
    fun hc => h.commits (h'.commits hc)⟩

lemma Quiet.known (h : Quiet o o') (hreq : o'.Known req) : o.Known req :=
  hreq.imp (fun ⟨id, hid⟩ => ⟨id, h.inflight hid⟩) h.commits

lemma quiet_giveUp (id : ℕ) (req : CellTransferRequest H) (notice : Notice) :
    Quiet o (o.giveUp id req notice) := by
  refine ⟨rfl, fun {i r} hin => ?_, fun hc => hc⟩
  rw [inflight_giveUp] at hin
  split at hin
  · cases hin
  · exact hin

lemma quiet_expire (id : ℕ) : Quiet o (o.expire id) := by
  rw [expire]
  cases o.inflight id with
  | none => exact .refl o
  | some req => exact quiet_giveUp id req _

lemma quiet_scanTimeouts (expired : List ℕ) (o : Orchestrator H) :
    Quiet o (expired.foldl expire o) := by
  induction expired generalizing o with
  | nil => exact .refl o
  | cons id expired ih => exact (quiet_expire id).trans (ih _)

lemma quiet_rollback (req : CellTransferRequest H) : Quiet o (o.rollback req) := by
  refine ⟨rfl, fun {i r} hin => ?_, fun {r} hc => hc.imp_right fun hmem => ?_⟩
  · rw [inflight_rollback] at hin
    split at hin
    · cases hin
    · exact hin
  · simpa [rollback] using hmem

variable [DecidableEq H]

variable {event : TransferEvent H}

lemma begun_shaped (h : o.begun event = some req) : req.Shaped := by
  obtain ⟨_, _, _, _, _, hlen, rfl⟩ | ⟨_, _, _, _, hlen, _, rfl⟩ | ⟨_, _, _, _, _, _, rfl⟩ :=
    begun_cases h
  · exact CellTransferRequest.shaped_split hlen
  · exact CellTransferRequest.shaped_merge hlen
  · exact CellTransferRequest.shaped_migrate

lemma quiet_commitStep {stage : CommitStage H} (hmem : (req, stage) ∈ o.commits) :
    Quiet o (o.commitStep req stage) := by
  have hm : Move o (o.commitStep req stage) := .commitStep hmem
  refine ⟨hm.nextID_eq, fun {i r} hin => ?_, fun {r} hc => ?_⟩
  · cases stage <;> exact hin
  rcases hc with ⟨stage', hc⟩ | hc
  · rcases hm.commits_cases hc with h | ⟨id, old, _, _, slot, hold, -, -, -, heq⟩
    · exact .inl h
    -- no acknowledgement is noted in a step of a commit
    have : o.notices = o.notices ++ [(id, .acked slot)] := by
      rw [← heq]; cases stage <;> rfl
    simp at this
  · rcases hm.results_cases hc with h | ⟨h, -⟩ | ⟨-, h⟩
    · exact .inr h
    · cases h
    · exact .inl ⟨_, h⟩

lemma step_quiet (h : o.step event = some o')
    (hevent : ∀ id c host ok, event ≠ .onReady id c host ok) :
    (∃ req, o.begun event = some req ∧ o' = o.launch req) ∨
      o.begun event = none ∧ Quiet o o' := by
  cases event with
  | hostsChange live => exact .inr ⟨rfl, some.inj h ▸ ⟨rfl, id, id⟩⟩
  | onReady id c host ok => exact absurd rfl (hevent id c host ok)
  | scanTimeouts expired => exact .inr ⟨rfl, some.inj h ▸ quiet_scanTimeouts expired o⟩
  | rollback id =>
    obtain ⟨req, -, rfl⟩ := map_eq_some_iff.mp h
    exact .inr ⟨rfl, quiet_rollback req⟩
  | commitStep id =>
    obtain ⟨c, hc, rfl⟩ := map_eq_some_iff.mp h
    exact .inr ⟨rfl, quiet_commitStep (mem_of_find?_eq_some hc)⟩
  | _ =>
    obtain ⟨req, hreq, rfl⟩ := map_eq_some_iff.mp h
    exact .inl ⟨req, hreq, rfl⟩

end Orchestrator

namespace TransferSystem

/-- How often a command is on its way, or was populated. -/
def flow [DecidableEq H] (s : TransferSystem H) (cmd : CellTransferCommand H) : ℕ :=
  s.dispatches.count cmd + s.shipped.countP (·.1 = cmd) + s.populated.count cmd

def acksFor (s : TransferSystem H) (id : ℕ) : ℕ :=
  s.readies.countP fun r => r.ok && r.requestID = id

def populatedFor (s : TransferSystem H) (id : ℕ) : ℕ :=
  s.populated.countP (·.requestID = id)

def Landed (s : TransferSystem H) (req : CellTransferRequest H) (c : CellID) : Prop :=
  ∃ cmd ∈ s.populated, cmd.requestID = req.id ∧ cmd.destCellID = c

/-- An acknowledgement stands for a populated cell. -/
structure Landing [DecidableEq H] (s : TransferSystem H) : Prop where
  orch : s.orch.Inv
  flow_fresh : ∀ cmd, s.orch.nextID < cmd.requestID → s.flow cmd = 0
  ready_fresh : ∀ r ∈ s.readies, r.requestID ≤ s.orch.nextID
  flow : ∀ cmd, s.flow cmd ≤ 1
  known : ∀ {req}, s.orch.Known req → req.id ≤ s.orch.nextID
  shaped : ∀ {req}, s.orch.Known req → req.Shaped
  member : ∀ {req cmd}, s.orch.Known req → 0 < s.flow cmd → cmd.requestID = req.id →
    cmd ∈ req.commands
  ready : ∀ {req r}, s.orch.Known req → req.kind ≠ .merge → r ∈ s.readies → r.ok →
    r.requestID = req.id → s.Landed req r.destCellID
  acked : ∀ {id req}, s.orch.inflight id = some req → req.kind ≠ .merge →
    ∀ (i : ℕ) cmd, req.commands[i]? = some cmd → req.ackedCmd[i]? = some true → cmd ∈ s.populated
  counted : ∀ {id req}, s.orch.inflight id = some req → req.kind = .merge →
    req.ackCount + s.acksFor id ≤ s.populatedFor id
  landed : ∀ {req}, s.orch.CommitOf req → ∀ cmd ∈ req.commands, cmd ∈ s.populated

variable {k : ℕ} {r : CellTransferReady H}

lemma acksFor_eraseIdx {s : TransferSystem H} (hr : s.readies[k]? = some r) (id : ℕ) :
    s.acksFor id = (if r.ok && r.requestID = id then 1 else 0) +
      ({ s with readies := s.readies.eraseIdx k } : TransferSystem H).acksFor id := by
  obtain ⟨hk, rfl⟩ := List.getElem?_eq_some_iff.mp hr
  simp only [acksFor]
  rw [← (List.getElem_cons_eraseIdx_perm hk).countP_eq, List.countP_cons, Nat.add_comm]

variable [DecidableEq H] {s t : TransferSystem H}

lemma landing_init (ownership : Ownership H) (topology : List CellID) (live : List H)
    (hosts : H → CellTransferExecutor) :
    Landing { orch := { ownership := ownership, topology := topology, liveHosts := live }
              hosts := hosts } := by
  constructor
  · exact inv_init ..
  all_goals simp [flow, Orchestrator.Known, Orchestrator.CommitOf]

lemma Landing.shrink (h : Landing s) (horch : t.orch = s.orch) (hpop : t.populated = s.populated)
    (hflow : ∀ cmd, t.flow cmd ≤ s.flow cmd)
    (hid : ∀ r ∈ t.readies, r.requestID ≤ s.orch.nextID)
    (hready : ∀ r ∈ t.readies, r.ok → r ∈ s.readies) (hacks : ∀ id, t.acksFor id ≤ s.acksFor id) :
    Landing t := by
  constructor
  · exact horch ▸ h.orch
  · intro cmd hlt
    have := hflow cmd
    have := h.flow_fresh cmd (horch ▸ hlt)
    omega
  · exact horch ▸ hid
  · intro cmd
    exact (hflow cmd).trans (h.flow cmd)
  · rw [horch]; exact h.known
  · rw [horch]; exact h.shaped
  · intro req cmd hreq hpos
    exact h.member (horch ▸ hreq) (hpos.trans_le (hflow cmd))
  · intro req r hreq hkind hr hok hreqid
    rw [Landed, hpop]
    exact h.ready (horch ▸ hreq) hkind (hready r hr hok) hok hreqid
  · rw [horch, hpop]; exact h.acked
  · intro id req hin hkind
    have := h.counted (horch ▸ hin) hkind
    have := hacks id
    rw [populatedFor, hpop, ← populatedFor]
    omega
  · rw [horch, hpop]; exact h.landed

variable {o : Orchestrator H}

lemma Landing.quiet (h : Landing s) (ho : o.Inv) (hq : Orchestrator.Quiet s.orch o) :
    Landing { s with orch := o } where
  orch := ho
  flow_fresh cmd hlt := h.flow_fresh cmd (hq.nextID ▸ hlt)
  ready_fresh := hq.nextID ▸ h.ready_fresh
  flow := h.flow
  known hreq := hq.nextID ▸ h.known (hq.known hreq)
  shaped hreq := h.shaped (hq.known hreq)
  member hreq := h.member (hq.known hreq)
  ready hreq := h.ready (hq.known hreq)
  acked hin := h.acked (hq.inflight hin)
  counted hin := h.counted (hq.inflight hin)
  landed hc := h.landed (hq.commits hc)

variable {event : TransferEvent H} {req : CellTransferRequest H}

lemma Landing.launch (h : Landing s) (hreq : s.orch.begun event = some req) :
    Landing { s with orch := s.orch.launch req, dispatches := s.dispatches ++ req.commands } := by
  have hid := begun_id hreq
  have hshaped := begun_shaped hreq
  have hinv := h.orch.launch hreq
  -- a known request is the new one, or it was known
  have hin : ∀ {id r}, (s.orch.launch req).inflight id = some r →
      r = req ∧ id = req.id ∨ s.orch.inflight id = some r := by
    intro id r hr
    rw [inflight_launch] at hr
    split at hr
    · next heq => exact .inl ⟨(some.inj hr).symm, heq⟩
    · exact .inr hr
  have hknown : ∀ {r}, (s.orch.launch req).Known r → r = req ∨ s.orch.Known r := by
    rintro r (⟨id, hr⟩ | hr)
    · exact (hin hr).imp (·.1) fun hr => .inl ⟨id, hr⟩
    · exact .inr (.inr hr)
  -- the commands of the new request are new
  have hflow : ∀ cmd, TransferSystem.flow { s with
      orch := s.orch.launch req, dispatches := s.dispatches ++ req.commands } cmd =
        s.flow cmd + req.commands.count cmd := by
    intro cmd
    simp only [TransferSystem.flow, count_append]
    omega
  have hnew : ∀ cmd ∈ req.commands, s.flow cmd = 0 := by
    intro cmd hcmd
    apply h.flow_fresh
    rw [hshaped.requestID cmd hcmd]
    omega
  constructor
  · exact hinv
  · intro cmd hlt
    change s.orch.nextID + 1 < cmd.requestID at hlt
    have hcount : req.commands.count cmd = 0 := by
      rw [count_eq_zero]
      intro hcmd
      have := hshaped.requestID cmd hcmd
      omega
    rw [hflow, h.flow_fresh cmd (by omega), hcount]
  · intro r hr
    exact (h.ready_fresh r hr).trans (Nat.le_succ _)
  · intro cmd
    rw [hflow]
    by_cases hcmd : cmd ∈ req.commands
    · rw [hnew cmd hcmd, count_eq_one_of_mem hshaped.nodup hcmd]
    · rw [count_eq_zero.mpr hcmd]
      exact h.flow cmd
  · intro r hr
    rcases hknown hr with rfl | hr
    · exact hid.le
    · exact (h.known hr).trans (Nat.le_succ _)
  · intro r hr
    rcases hknown hr with rfl | hr
    · exact hshaped
    · exact h.shaped hr
  · intro r cmd hr hpos hcmd
    rw [hflow] at hpos
    rcases hknown hr with rfl | hr
    · by_contra hmem
      rw [count_eq_zero.mpr hmem, h.flow_fresh cmd (by omega)] at hpos
      exact absurd hpos (lt_irrefl _)
    have hcount : req.commands.count cmd = 0 := by
      rw [count_eq_zero]
      intro hmem
      have := hshaped.requestID cmd hmem
      have := h.known hr
      omega
    exact h.member hr (by omega) hcmd
  · intro r ready hr hkind hready hok hrid
    rcases hknown hr with rfl | hr
    · have := h.ready_fresh ready hready
      omega
    · exact h.ready hr hkind hready hok hrid
  · intro id r hr hkind i cmd hi hacked
    rcases hin hr with ⟨rfl, -⟩ | hr
    · have := (begun_tracked hreq s.orch.notices).noted i hacked
      exact absurd this ((h.orch.later r.id (by omega)).2 _)
    · exact h.acked hr hkind i cmd hi hacked
  · intro id r hr hkind
    rcases hin hr with ⟨rfl, rfl⟩ | hr
    · have hacks : s.acksFor r.id = 0 := by
        rw [acksFor, countP_eq_zero]
        intro ready hready
        have := h.ready_fresh ready hready
        simp; omega
      have hack := begun_ackCount hreq
      change r.ackCount + s.acksFor r.id ≤ _
      omega
    · exact h.counted hr hkind
  · exact h.landed

variable {cmd : CellTransferCommand H}

lemma Landing.populate (h : Landing s) (hpos : 0 < s.flow cmd)
    (hflow : ∀ cmd', t.flow cmd' = s.flow cmd') (horch : t.orch = s.orch)
    (hready : t.readies = s.readies ++ [⟨cmd.requestID, cmd.destCellID, cmd.destHostID, true⟩])
    (hpop : t.populated = s.populated ++ [cmd]) : Landing t := by
  have hsub : ∀ cmd' ∈ s.populated, cmd' ∈ t.populated := by
    intro cmd' hcmd'
    rw [hpop]
    exact mem_append_left _ hcmd'
  constructor
  · exact horch ▸ h.orch
  · intro cmd' hlt
    rw [hflow]
    exact h.flow_fresh cmd' (horch ▸ hlt)
  · intro r hr
    rw [hready, mem_append, mem_singleton] at hr
    rw [horch]
    rcases hr with hr | rfl
    · exact h.ready_fresh r hr
    · by_contra hlt
      have := h.flow_fresh cmd (not_le.mp hlt)
      omega
  · intro cmd'
    rw [hflow]
    exact h.flow cmd'
  · rw [horch]; exact h.known
  · rw [horch]; exact h.shaped
  · intro req cmd' hreq hpos'
    exact h.member (horch ▸ hreq) (hflow cmd' ▸ hpos')
  · intro req r hreq hkind hr hok hrid
    rw [hready, mem_append, mem_singleton] at hr
    rcases hr with hr | rfl
    · obtain ⟨cmd', hmem, hc⟩ := h.ready (horch ▸ hreq) hkind hr hok hrid
      exact ⟨cmd', hsub _ hmem, hc⟩
    · exact ⟨cmd, by simp [hpop], hrid, rfl⟩
  · intro id req hin hkind i cmd' hi hacked
    exact hsub _ (h.acked (horch ▸ hin) hkind i cmd' hi hacked)
  · intro id req hin hkind
    have hcount := h.counted (horch ▸ hin) hkind
    have hacks : t.acksFor id = s.acksFor id + if cmd.requestID = id then 1 else 0 := by
      simp [acksFor, hready, countP_append, countP_singleton]
    have hpops : t.populatedFor id = s.populatedFor id + if cmd.requestID = id then 1 else 0 := by
      simp [populatedFor, hpop, countP_append, countP_singleton]
    omega
  · intro req hc cmd' hcmd'
    exact hsub _ (h.landed (horch ▸ hc) cmd' hcmd')

lemma flow_pos_of_populated (h : cmd ∈ s.populated) : 0 < s.flow cmd := by
  have := count_pos_iff.mpr h
  rw [flow]
  omega

lemma Landing.all_populated (h : Landing s) (hreq : s.orch.Known req)
    (hcount : req.commands.length ≤ s.populatedFor req.id) :
    ∀ cmd ∈ req.commands, cmd ∈ s.populated := by
  let landed := s.populated.filter (·.requestID = req.id)
  have hnodup : landed.Nodup := by
    refine List.Nodup.filter _ (nodup_iff_count_le_one.mpr fun cmd => ?_)
    have := h.flow cmd
    rw [TransferSystem.flow] at this
    omega
  have hsub : landed ⊆ req.commands := by
    intro cmd hcmd
    obtain ⟨hmem, hid⟩ := mem_filter.mp hcmd
    exact h.member hreq (flow_pos_of_populated hmem) (by simpa using hid)
  have hlen : req.commands.length ≤ landed.length := by
    rwa [← countP_eq_length_filter]
  have hperm := (hnodup.subperm hsub).perm_of_length_le hlen
  intro cmd hcmd
  exact (mem_filter.mp (hperm.mem_iff.mpr hcmd)).1

lemma Landing.ack (h : Landing s) (hr : s.readies[k]? = some r) (hok : r.ok = true) {slot : ℕ}
    (hreq : s.orch.inflight r.requestID = some req)
    (hmatch : req.matched r.destCellID r.hostID = some slot) (ho : o.Inv)
    (hnext : o.nextID = s.orch.nextID)
    (hin : ∀ {id a}, o.inflight id = some a →
      a = req.ack slot r.hostID ∧ id = r.requestID ∨ s.orch.inflight id = some a)
    (hcommit : ∀ {a}, o.CommitOf a → s.orch.CommitOf a ∨
      a = req.ack slot r.hostID ∧ req.expectedReady ≤ (req.ack slot r.hostID).ackCount) :
    Landing { s with readies := s.readies.eraseIdx k, orch := o } := by
  have hid : req.id = r.requestID := h.orch.named hreq
  have hknown : s.orch.Known req := .inl ⟨_, hreq⟩
  have hmem : r ∈ s.readies := mem_of_getElem? hr
  -- a known request was known, up to its acknowledgements
  have hold : ∀ {a}, o.Known a → ∃ b, s.orch.Known b ∧ b.id = a.id ∧ b.kind = a.kind ∧
      b.commands = a.commands ∧ (b.Shaped → a.Shaped) := by
    rintro a (⟨id, ha⟩ | ha)
    · rcases hin ha with ⟨rfl, -⟩ | ha
      · exact ⟨req, hknown, rfl, rfl, rfl, fun hs => hs.ack ..⟩
      · exact ⟨a, .inl ⟨id, ha⟩, rfl, rfl, rfl, fun hs => hs⟩
    · rcases hcommit ha with ha | ⟨rfl, -⟩
      · exact ⟨a, .inr ha, rfl, rfl, rfl, fun hs => hs⟩
      · exact ⟨req, hknown, rfl, rfl, rfl, fun hs => hs.ack ..⟩
  have hslot : req.kind ≠ .merge → ∀ (i : ℕ) cmd, req.commands[i]? = some cmd →
      (req.ack slot r.hostID).ackedCmd[i]? = some true → cmd ∈ s.populated := by
    intro hkind i cmd hi hacked
    obtain ⟨-, cmd', hcmd', -, hdest⟩ := CellTransferRequest.matched_spec hmatch
    by_cases heq : slot = i
    · -- the destination cell of the acknowledgement identifies the command
      subst heq
      obtain rfl := some.inj (hi.symm.trans hcmd')
      obtain ⟨cmd', hpop, hcid, hcdest⟩ := h.ready hknown hkind hmem hok hid.symm
      have hcmd' := h.member hknown (flow_pos_of_populated hpop) hcid
      have := (h.shaped hknown).dest hkind cmd (mem_of_getElem? hi) cmd' hcmd'
        (hdest.trans hcdest.symm)
      exact this ▸ hpop
    · change (req.ackedCmd.set slot true)[i]? = some true at hacked
      rw [getElem?_set_ne heq] at hacked
      exact h.acked hreq hkind i cmd hi hacked
  have hacks := acksFor_eraseIdx hr
  constructor
  · exact ho
  · exact fun cmd hlt => h.flow_fresh cmd (hnext ▸ hlt)
  · intro r' hr'
    exact hnext ▸ h.ready_fresh r' (mem_of_mem_eraseIdx hr')
  · exact h.flow
  · intro a ha
    obtain ⟨b, hb, hbid, -⟩ := hold ha
    exact hnext ▸ hbid ▸ h.known hb
  · intro a ha
    obtain ⟨b, hb, -, -, -, hs⟩ := hold ha
    exact hs (h.shaped hb)
  · intro a cmd ha hpos hcmd
    obtain ⟨b, hb, hbid, -, hbcmd, -⟩ := hold ha
    exact hbcmd ▸ h.member hb hpos (hbid ▸ hcmd)
  · intro a r' ha hkind hr' hok' hrid
    obtain ⟨b, hb, hbid, hbkind, -⟩ := hold ha
    obtain ⟨cmd, hpop, hcid, hdest⟩ :=
      h.ready hb (hbkind ▸ hkind) (mem_of_mem_eraseIdx hr') hok' (hbid ▸ hrid)
    exact ⟨cmd, hpop, hbid ▸ hcid, hdest⟩
  · intro id a ha hkind i cmd hi hacked
    rcases hin ha with ⟨rfl, -⟩ | ha
    · exact hslot hkind i cmd hi hacked
    · exact h.acked ha hkind i cmd hi hacked
  · intro id a ha hkind
    have := hacks id
    rcases hin ha with ⟨rfl, rfl⟩ | ha
    · have hcount := h.counted hreq hkind
      simp only [hok, decide_true, Bool.and_true, if_true] at this
      change req.ackCount + 1 + _ ≤ s.populatedFor r.requestID
      change _ = 1 + acksFor { s with readies := s.readies.eraseIdx k, orch := o } _ at this
      omega
    · have hcount := h.counted ha hkind
      change _ = _ + acksFor { s with readies := s.readies.eraseIdx k, orch := o } _ at this
      change _ ≤ s.populatedFor id
      omega
  · intro a ha cmd hcmd
    rcases hcommit ha with ha | ⟨rfl, hfull⟩
    · exact h.landed ha cmd hcmd
    have htracked := (h.orch.tracked hreq).ack hmatch
    by_cases hkind : req.kind = .merge
    · refine h.all_populated hknown ?_ cmd hcmd
      have hcount := h.counted hreq hkind
      have := hacks r.requestID
      simp only [hok, decide_true, Bool.and_true, if_true] at this
      have hexp : req.expectedReady = req.commands.length := htracked.expected
      change req.expectedReady ≤ req.ackCount + 1 at hfull
      rw [hid]
      omega
    · obtain ⟨i, hi, rfl⟩ := getElem_of_mem hcmd
      exact hslot hkind i _ (getElem?_eq_getElem hi) (htracked.ackedCmd_of_full hfull hi)

lemma Landing.requestID_le (h : Landing s) (hpos : 0 < s.flow cmd) :
    cmd.requestID ≤ s.orch.nextID := by
  by_contra hlt
  have := h.flow_fresh cmd (not_le.mp hlt)
  omega

lemma flow_dispatched (hk : s.dispatches[k]? = some cmd) (c : CellTransferCommand H) :
    s.flow c = (if cmd = c then 1 else 0) +
      ({ s with dispatches := s.dispatches.eraseIdx k } : TransferSystem H).flow c := by
  obtain ⟨hlt, rfl⟩ := List.getElem?_eq_some_iff.mp hk
  simp only [flow]
  rw [← (List.getElem_cons_eraseIdx_perm hlt).count_eq, List.count_cons]
  simp only [beq_iff_eq]
  omega

variable {transfer : CellTransferCommand H × List NetID}

lemma flow_shipped (hk : s.shipped[k]? = some transfer) (c : CellTransferCommand H) :
    s.flow c = (if transfer.1 = c then 1 else 0) +
      ({ s with shipped := s.shipped.eraseIdx k } : TransferSystem H).flow c := by
  obtain ⟨hlt, rfl⟩ := List.getElem?_eq_some_iff.mp hk
  simp only [flow]
  rw [← (List.getElem_cons_eraseIdx_perm hlt).countP_eq, List.countP_cons]
  simp only [decide_eq_true_eq]
  omega

lemma Landing.fail (h : Landing s) (hpos : 0 < s.flow cmd) (horch : t.orch = s.orch)
    (hpop : t.populated = s.populated) (hflow : ∀ c, t.flow c ≤ s.flow c)
    (hready : t.readies = s.readies ++ [⟨cmd.requestID, cmd.destCellID, cmd.destHostID, false⟩]) :
    Landing t := by
  refine h.shrink horch hpop hflow ?_ ?_ ?_
  · intro r hr
    rw [hready, mem_append, mem_singleton] at hr
    rcases hr with hr | rfl
    · exact h.ready_fresh r hr
    · exact h.requestID_le hpos
  · intro r hr hok
    rw [hready, mem_append, mem_singleton] at hr
    rcases hr with hr | rfl
    · exact hr
    · cases hok
  · intro id
    simp [acksFor, hready, countP_append]

lemma Landing.execute (h : Landing s) (hk : s.dispatches[k]? = some cmd) (quadrantOf : NetID → ℕ)
    (outcome : ExecuteOutcome) :
    Landing (execute { s with dispatches := s.dispatches.eraseIdx k } cmd quadrantOf
      outcome) := by
  have hflow := flow_dispatched hk
  have hpos : 0 < s.flow cmd := by
    have := hflow cmd
    rw [if_pos rfl] at this
    omega
  have hle : ∀ c,
    TransferSystem.flow { s with dispatches := s.dispatches.eraseIdx k } c ≤ s.flow c := by
    intro c
    have := hflow c
    omega
  rw [TransferSystem.execute]
  split
  · exact h.fail hpos rfl rfl hle rfl
  cases outcome with
  | serializeFailed | shipFailed => exact h.fail hpos rfl rfl hle rfl
  | shipped =>
    refine h.shrink rfl rfl (fun c => ?_) h.ready_fresh (fun r hr _ => hr) fun id => le_rfl
    rw [hflow c]
    simp only [TransferSystem.flow, TransferSystem.setHost, countP_append,
      countP_singleton, decide_eq_true_eq]
    omega

/-- A transfer of a split or a migration finds no cell at its destination. -/
def FindsNoCell (s : TransferSystem H) (cmd : CellTransferCommand H) : Prop :=
  cmd.kind ≠ .merge → (s.hosts cmd.destHostID).cells cmd.destCellID = none

lemma Landing.receive (h : Landing s) (hk : s.shipped[k]? = some transfer)
    (hcell : s.FindsNoCell transfer.1) (failsAfter : Option ℕ) :
    Landing (receive { s with shipped := s.shipped.eraseIdx k } transfer.1 transfer.2
      failsAfter) := by
  have hflow := flow_shipped hk
  obtain ⟨cmd, records⟩ := transfer
  have hpos : 0 < s.flow cmd := by
    have := hflow cmd
    rw [if_pos rfl] at this
    omega
  have hle : ∀ c, TransferSystem.flow { s with shipped := s.shipped.eraseIdx k } c ≤ s.flow c := by
    intro c
    have := hflow c
    omega
  have hpop : ∀ c, s.dispatches.count c + (s.shipped.eraseIdx k).countP (·.1 = c) +
      (s.populated ++ [cmd]).count c = s.flow c := by
    intro c
    rw [hflow c]
    simp only [TransferSystem.flow, count_append, count_singleton, beq_iff_eq]
    omega
  rw [TransferSystem.receive]
  dsimp only at hcell ⊢
  split
  · exact h.fail hpos rfl rfl hle rfl
  · cases failsAfter with
    | none => exact h.populate hpos hpop rfl rfl rfl
    | some n => exact h.fail hpos rfl rfl hle rfl
  · next hkind hsome => exact absurd (hcell (by simp [hkind])) (by simp [hsome])
  · next hkind hsome => exact absurd (hcell (by simp [hkind])) (by simp [hsome])
  all_goals
    cases failsAfter with
    | none => exact h.populate hpos hpop rfl rfl rfl
    | some n => exact h.fail hpos rfl rfl hle rfl

lemma Landing.deliver (h : Landing s) (hr : s.readies[k]? = some r) :
    Landing { s with
      readies := s.readies.eraseIdx k
      orch := s.orch.onReady r.requestID r.destCellID r.hostID r.ok } := by
  have hstep : s.orch.step (.onReady r.requestID r.destCellID r.hostID r.ok) =
      some (s.orch.onReady r.requestID r.destCellID r.hostID r.ok) := rfl
  have hinv := h.orch.step hstep
  have herased : Landing { s with readies := s.readies.eraseIdx k } := by
    refine h.shrink rfl rfl (fun _ => le_rfl) (fun r' hr' => ?_) (fun r' hr' _ => ?_) fun id => ?_
    · exact h.ready_fresh r' (mem_of_mem_eraseIdx hr')
    · exact mem_of_mem_eraseIdx hr'
    · have := acksFor_eraseIdx hr id
      omega
  rcases onReady_cases (s := s.orch) r.requestID r.destCellID r.hostID r.ok with
    heq | ⟨req, hreq, ⟨-, heq⟩ | ⟨hok, slot, hslot, heq | ⟨hfull, heq⟩⟩⟩ <;> rw [heq] at hinv ⊢
  · exact herased
  · exact herased.quiet hinv (quiet_giveUp ..)
  · refine h.ack hr hok hreq hslot hinv rfl (fun hin => ?_) fun hc => .inl hc
    rw [inflight_await] at hin
    split at hin
    · next hid => exact .inl ⟨(some.inj hin).symm, hid⟩
    · exact .inr hin
  · refine h.ack hr hok hreq hslot hinv rfl (fun hin => ?_) fun hc => ?_
    · rw [inflight_complete] at hin
      split at hin
      · cases hin
      · exact .inr hin
    · rcases hc with ⟨stage, hc⟩ | hc
      · rcases mem_append.mp hc with hc | hc
        · exact .inl (.inl ⟨stage, hc⟩)
        · exact .inr ⟨(Prod.mk.inj (mem_singleton.mp hc)).1, hfull⟩
      · exact .inl (.inr hc)

/-- The message does not acknowledge a command of a merge in flight. -/
def NoMergeAck (s : TransferSystem H) (r : CellTransferReady H) : Prop :=
  ∀ req ∈ s.orch.inflight r.requestID, req.kind = .merge → r.ok = false

/-- No acknowledgement of a merge is duplicated, and transfers of splits and migrations find no cell
at their destination. -/
def Reliable (s : TransferSystem H) : SystemEvent H → Prop
  | .receive k _ => ∀ transfer ∈ s.shipped[k]?, s.FindsNoCell transfer.1
  | .duplicateReady k => ∀ r ∈ s.readies[k]?, s.NoMergeAck r
  | _ => True

lemma Landing.duplicate (h : Landing s) (hr : r ∈ s.readies) (hmerge : s.NoMergeAck r) :
    Landing { s with readies := s.readies ++ [r] } := by
  have hmem : ∀ r' ∈ s.readies ++ [r], r' ∈ s.readies := by
    intro r' hr'
    rcases mem_append.mp hr' with hr' | hr'
    · exact hr'
    · exact mem_singleton.mp hr' ▸ hr
  exact { h with
    ready_fresh := fun r' hr' => h.ready_fresh r' (hmem r' hr')
    ready := fun hreq hkind hr' => h.ready hreq hkind (hmem _ hr')
    counted := by
      intro id req hin hkind
      have hcount := h.counted hin hkind
      have hacks : acksFor { s with readies := s.readies ++ [r] } id = s.acksFor id := by
        by_cases hid : r.requestID = id
        · subst hid
          simp [acksFor, countP_append, hmerge req hin hkind]
        · simp [acksFor, countP_append, hid]
      rw [hacks]
      exact hcount }

lemma orchestrate_cases (hstep : s.orchestrate event = some t) :
    (∀ id c host ok, event ≠ .onReady id c host ok) ∧ ∃ o, s.orch.step event = some o ∧
      { s with
        orch := o
        dispatches := s.dispatches ++ s.newCommands event
        aborts := s.aborts ++ s.newAborts event
        releases := s.releases ++ s.newReleases event } = t := by
  have hevent : ∀ id c host ok, event ≠ .onReady id c host ok := by
    rintro id c host ok rfl
    cases hstep
  refine ⟨hevent, ?_⟩
  cases event with
  | onReady id c host ok => exact absurd rfl (hevent id c host ok)
  | _ => exact map_eq_some_iff.mp hstep

lemma Landing.orchestrate (h : Landing s) (hstep : s.orchestrate event = some t) : Landing t := by
  obtain ⟨hevent, o, ho, rfl⟩ := orchestrate_cases hstep
  have hsame : ∀ {u v : TransferSystem H}, Landing u → v.orch = u.orch →
      v.dispatches = u.dispatches → v.shipped = u.shipped → v.readies = u.readies →
      v.populated = u.populated → Landing v := by
    intro u v hu horch hd hs hr hp
    refine hu.shrink horch hp (fun c => ?_) (hr ▸ hu.ready_fresh) (fun r hmem _ => hr ▸ hmem) ?_
    · simp only [TransferSystem.flow, hd, hs, hp, le_refl]
    · intro id
      simp only [acksFor, hr, le_refl]
  rcases step_quiet ho hevent with ⟨req, hreq, rfl⟩ | ⟨hnone, hq⟩
  · exact hsame (h.launch hreq) rfl (by simp [newCommands, hreq]) rfl rfl rfl
  · exact hsame (h.quiet (h.orch.step ho) hq) rfl (by simp [newCommands, hnone]) rfl rfl rfl

lemma Landing.step (h : Landing s) {event : SystemEvent H} (hrel : s.Reliable event)
    (hstep : s.step event = some t) : Landing t := by
  cases event with
  | orchestrate event => exact h.orchestrate hstep
  | execute k quadrantOf outcome =>
    obtain ⟨cmd, hk, rfl⟩ := map_eq_some_iff.mp hstep
    exact h.execute hk quadrantOf outcome
  | receive k failsAfter =>
    obtain ⟨transfer, hk, rfl⟩ := map_eq_some_iff.mp hstep
    exact h.receive hk (hrel transfer hk) failsAfter
  | duplicateReady k =>
    obtain ⟨r, hk, rfl⟩ := map_eq_some_iff.mp hstep
    exact h.duplicate (mem_of_getElem? hk) (hrel r hk)
  | deliverReady k =>
    obtain ⟨r, hk, rfl⟩ := map_eq_some_iff.mp hstep
    exact h.deliver hk
  | abort k | release k =>
    obtain ⟨a, hk, rfl⟩ := map_eq_some_iff.mp hstep
    exact { h with }
  | startCell host c cell | stopCell host c => exact some.inj hstep ▸ { h with }

/-- **A committed transfer has landed**, if no acknowledgement of a merge is duplicated and the
transfers of splits and migrations find no cell at their destination: every command of the request
was populated. -/
theorem commit_landed {ownership : Ownership H} {topology : List CellID} {live : List H}
    {hosts : H → CellTransferExecutor}
    (hrun : Run (Steps step) Reliable
      { orch := { ownership := ownership, topology := topology, liveHosts := live }
        hosts := hosts } s) {req : CellTransferRequest H}
    (hcommit : (∃ stage, (req, stage) ∈ s.orch.commits) ∨ (req, .committed) ∈ s.orch.results) :
    ∀ cmd ∈ req.commands, cmd ∈ s.populated := by
  have hs : Landing s :=
    hrun.invariant (I := Landing) (landing_init ..) fun h hrel hstep => h.step hrel hstep
  exact hs.landed hcommit

instance (s : TransferSystem H) (cmd : CellTransferCommand H) :
    Decidable (s.FindsNoCell cmd) :=
  inferInstanceAs (Decidable (_ → _))

instance (s : TransferSystem H) (r : CellTransferReady H) : Decidable (s.NoMergeAck r) :=
  decidableForallMem (s.orch.inflight r.requestID)

instance (s : TransferSystem H) (event) : Decidable (s.Reliable event) := by
  induction event using SystemEvent.casesOn <;> dsimp only [Reliable] <;> infer_instance

def fourCells : TransferSystem ℕ :=
  { orch :=
      { ownership := {
          cellToHostMap := fun _ => none
          hosts := [1, 2]
          ownedCells := fun h =>
            if h = 1 then [⟨0, 0, 1⟩] else [⟨1, 0, 1⟩, ⟨0, 1, 1⟩, ⟨1, 1, 1⟩] }
        topology := CellID.children ⟨0, 0, 0⟩
        liveHosts := [1, 2] }
    hosts := fun h =>
      { cells := fun c =>
          if (h = 1 ∧ c = ⟨0, 0, 1⟩) ∨
            (h = 2 ∧ c ∈ [⟨1, 0, 1⟩, ⟨0, 1, 1⟩, (⟨1, 1, 1⟩ : CellID)]) then
            some { live := [(c.x + 2 * c.y).toNat.toUInt32] }
          else none } }

theorem commit_landed_merge : ∃ s : TransferSystem ℕ, ∃ req,
    (∃ stage, (req, stage) ∈ s.orch.commits) ∧ req.commands.length = 3 ∧
      ∀ cmd ∈ req.commands, cmd ∈ s.populated := by
  obtain ⟨s, hrun, hs⟩ := exists_run (s := fourCells) step Reliable
    (fun s => s.orch.commits.map (·.1.commands.length) = [3])
    [.orchestrate (.beginMerge ⟨0, 0, 0⟩ [1, 2, 2, 2] 1),
      .execute 2 (fun _ => 0) .shipped, .execute 0 (fun _ => 0) .shipped, .receive 0 none,
      .execute 0 (fun _ => 0) .shipped, .receive 1 none, .deliverReady 1, .receive 0 none,
      .deliverReady 0, .deliverReady 0]
    (by decide +kernel)
  obtain ⟨⟨req, stage⟩, hmem, hlen⟩ := mem_map.mp (hs ▸ mem_singleton_self 3)
  exact ⟨s, req, ⟨stage, hmem⟩, hlen, commit_landed hrun (.inl ⟨stage, hmem⟩)⟩

/-- **A merge that is committed without two of its donors**: one donor is populated, and its
acknowledgement is delivered three times. -/
theorem merge_commits_unlanded : ∃ s : TransferSystem ℕ, Run (Steps step) Always fourCells s ∧
    ∃ req, (∃ stage, (req, stage) ∈ s.orch.commits) ∧ ∃ cmd ∈ req.commands, cmd ∉ s.populated := by
  obtain ⟨s, hrun, hs⟩ := exists_run (s := fourCells) step Always
    (fun s => s.orch.commits.any (fun c => c.1.commands.any (· ∉ s.populated)) = true)
    [.orchestrate (.beginMerge ⟨0, 0, 0⟩ [1, 2, 2, 2] 1), .execute 0 (fun _ => 0) .shipped,
      .receive 0 none, .duplicateReady 0, .duplicateReady 0, .deliverReady 0, .deliverReady 0,
      .deliverReady 0]
    (by decide +kernel)
  obtain ⟨⟨req, stage⟩, hmem, hany⟩ := any_eq_true.mp hs
  obtain ⟨cmd, hcmd, hnot⟩ := any_eq_true.mp hany
  exact ⟨s, hrun, req, ⟨stage, hmem⟩, cmd, hcmd, by simpa using hnot⟩

end TransferSystem

end Mmokit
