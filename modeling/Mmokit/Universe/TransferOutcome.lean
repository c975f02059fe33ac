/-
A cell transfer has at most one outcome.

Acknowledgements, failures and the timeout scanner race for the same request. The race is decided
by who removes the request from the map of requests in flight: count, for a request id, its entry
in that map, its pending roll back, its running commit and its reported results.
-/
import Mmokit.Universe.CellTransfer
import Mathlib.Data.List.Nodup

namespace Mmokit

open List Option

variable {H : Type*}

namespace CellTransferRequest

/-- The acknowledgements are counted. -/
structure Tracked (req : CellTransferRequest H) (notices : List (ℕ × Notice)) : Prop where
  length : req.ackedCmd.length = req.commands.length
  expected : req.expectedReady = req.commands.length
  count : req.ackCount = req.ackedCmd.count true
  noted : ∀ i, req.ackedCmd[i]? = some true → (req.id, .acked i) ∈ notices

/-- Every command was acknowledged, and nothing else was noted. -/
structure Complete (req : CellTransferRequest H) (notices : List (ℕ × Notice)) : Prop where
  acked : ∀ i < req.commands.length, (req.id, .acked i) ∈ notices
  not_failed : (req.id, .failed) ∉ notices
  not_timedOut : (req.id, .timedOut) ∉ notices

variable {req : CellTransferRequest H} {notices : List (ℕ × Notice)}

lemma Tracked.of_new (hacked : req.ackedCmd = replicate req.commands.length false)
    (hexp : req.expectedReady = req.commands.length) (hcount : req.ackCount = 0) :
    req.Tracked notices where
  length := by rw [hacked, length_replicate]
  expected := hexp
  count := by rw [hcount, hacked, count_replicate]; rfl
  noted := by
    intro i hi
    rw [hacked, getElem?_replicate] at hi
    split at hi <;> simp at hi

lemma Tracked.mono (h : req.Tracked notices) {notices' : List (ℕ × Notice)}
    (hsub : notices ⊆ notices') : req.Tracked notices' :=
  { h with noted := fun i hi => hsub (h.noted i hi) }

lemma Tracked.ackedCmd_of_full (h : req.Tracked notices) (hfull : req.expectedReady ≤ req.ackCount)
    {i : ℕ} (hi : i < req.commands.length) : req.ackedCmd[i]? = some true := by
  have hlen : req.ackedCmd.count true = req.ackedCmd.length := by
    have hle : req.ackedCmd.count true ≤ req.ackedCmd.length := count_le_length
    have := h.length
    have := h.expected
    have := h.count
    omega
  have hi' : i < req.ackedCmd.length := h.length ▸ hi
  rw [getElem?_eq_getElem hi', ← count_eq_length.mp hlen _ (getElem_mem hi')]

variable [DecidableEq H]

@[simp] lemma ack_id (slot : ℕ) (host : H) : (req.ack slot host).id = req.id := rfl

lemma survivorIdx_lt {hosts : List H} (choice : H) (hlen : hosts.length = 4) :
    survivorIdx hosts choice < 4 := by
  rw [survivorIdx]
  cases hfind : hosts.findIdx? (· = choice) with
  | none => decide
  | some i => simpa [hlen] using (findIdx?_eq_some_iff_getElem.mp hfind).1

lemma matched_spec {c : CellID} {host : H} {slot : ℕ} (h : req.matched c host = some slot) :
    req.ackedCmd[slot]? = some false ∧
      ∃ cmd, req.commands[slot]? = some cmd ∧ cmd.destHostID = host ∧ cmd.destCellID = c := by
  obtain ⟨hlt, htrue, -⟩ := findIdx?_eq_some_iff_getElem.mp h
  have hlt' : slot < req.commands.length ∧ slot < req.ackedCmd.length := by
    simpa [length_zip] using hlt
  simp only [getElem_zip, Bool.and_eq_true, Bool.not_eq_true', decide_eq_true_eq] at htrue
  refine ⟨?_, req.commands[slot], getElem?_eq_getElem hlt'.1, htrue.1.2, htrue.2⟩
  rw [getElem?_eq_getElem hlt'.2, htrue.1.1]

lemma Tracked.ack (h : req.Tracked notices) {c : CellID} {host : H} {slot : ℕ}
    (hm : req.matched c host = some slot) :
    (req.ack slot host).Tracked (notices ++ [(req.id, .acked slot)]) := by
  obtain ⟨hfalse, -⟩ := matched_spec hm
  obtain ⟨hlt, hget⟩ := List.getElem?_eq_some_iff.mp hfalse
  constructor
  · show (req.ackedCmd.set slot true).length = _
    rw [length_set, h.length]; rfl
  · exact h.expected
  · show req.ackCount + 1 = (req.ackedCmd.set slot true).count true
    rw [count_set hlt, hget, h.count]
    rfl
  intro i hi
  change (req.ackedCmd.set slot true)[i]? = some true at hi
  by_cases hi' : slot = i
  · subst hi'
    exact mem_append_right _ (mem_singleton_self _)
  · rw [getElem?_set_ne hi'] at hi
    exact mem_append_left _ (h.noted i hi)

end CellTransferRequest

namespace Orchestrator

/-- How often a request occurs: in flight, to be rolled back, being committed, or reported. -/
def tokens (s : Orchestrator H) (id : ℕ) : ℕ :=
  (s.inflight id).toList.length + s.rollbacks.countP (·.id = id) +
    s.commits.countP (·.1.id = id) + s.results.countP (·.1.id = id)

/-- Each request is in one state. -/
structure Inv (s : Orchestrator H) : Prop where
  named : ∀ {id req}, s.inflight id = some req → req.id = id
  unique : ∀ id, s.tokens id ≤ 1
  later : ∀ id, s.nextID < id → s.tokens id = 0 ∧ ∀ notice, (id, notice) ∉ s.notices
  tracked : ∀ {id req}, s.inflight id = some req → req.Tracked s.notices
  unspoilt : ∀ {id}, (s.inflight id).isSome →
    (id, .failed) ∉ s.notices ∧ (id, .timedOut) ∉ s.notices
  committing : ∀ {req stage}, (req, stage) ∈ s.commits → req.Complete s.notices
  committed : ∀ {req}, (req, .committed) ∈ s.results → req.Complete s.notices

lemma inv_init (ownership : Ownership H) (topology : List CellID) (live : List H) :
    Inv { ownership := ownership, topology := topology, liveHosts := live } := by
  constructor <;> simp [tokens]

variable {s t : Orchestrator H} {req : CellTransferRequest H} {id : ℕ}

lemma Inv.elsewhere (h : Inv s) (hin : s.inflight id = some req) :
    s.rollbacks.countP (·.id = id) = 0 ∧ s.commits.countP (·.1.id = id) = 0 ∧
      s.results.countP (·.1.id = id) = 0 := by
  have := h.unique id
  simp only [tokens, hin, toList_some, length_singleton] at this
  omega

lemma Inv.inflight_of_commit (h : Inv s) {stage : CommitStage H} (hmem : (req, stage) ∈ s.commits) :
    s.inflight req.id = none := by
  by_contra hsome
  obtain ⟨r, hr⟩ := ne_none_iff_exists'.mp hsome
  have := countP_eq_zero.mp (h.elsewhere hr).2.1 _ hmem
  simp at this

lemma Inv.inflight_of_result (h : Inv s) {outcome : Outcome}
    (hmem : (req, outcome) ∈ s.results) : s.inflight req.id = none := by
  by_contra hsome
  obtain ⟨r, hr⟩ := ne_none_iff_exists'.mp hsome
  have := countP_eq_zero.mp (h.elsewhere hr).2.2 _ hmem
  simp at this

def Committing (s : Orchestrator H) (id : ℕ) : Prop :=
  (∃ c ∈ s.commits, c.1.id = id) ∨ ∃ req, (req, .committed) ∈ s.results ∧ req.id = id

lemma countP_setStage (req : CellTransferRequest H) (stage : CommitStage H) (id : ℕ) :
    (s.setStage req stage).countP (·.1.id = id) = s.commits.countP (·.1.id = id) := by
  rw [setStage, countP_map]
  refine countP_congr fun c _ => ?_
  by_cases hc : c.1.id = req.id <;> simp [hc]

section Fields

variable (s) (id' : ℕ) (req) (slot : ℕ) (notice : Notice)

lemma inflight_launch :
    (s.launch req).inflight id = if id = req.id then some req else s.inflight id :=
  Function.update_apply ..

lemma inflight_giveUp :
    (s.giveUp id' req notice).inflight id = if id = id' then none else s.inflight id :=
  Function.update_apply ..

lemma inflight_await :
    (s.await id' req slot).inflight id = if id = id' then some req else s.inflight id :=
  Function.update_apply ..

lemma inflight_complete :
    (s.complete id' req slot).inflight id = if id = id' then none else s.inflight id :=
  Function.update_apply ..

lemma inflight_rollback :
    (s.rollback req).inflight id = if id = req.id then none else s.inflight id :=
  Function.update_apply ..

end Fields

lemma countP_filter_key {α : Type*} (key : α → ℕ) (l : List α) (k i : ℕ) :
    (l.filter (key · ≠ k)).countP (key · = i) = if i = k then 0 else l.countP (key · = i) := by
  rw [countP_filter]
  split
  · next h =>
    subst h
    simp
  · next h =>
    refine countP_congr fun x _ => ?_
    constructor <;> intro hx <;> simp_all

lemma tokens_launch (hin : s.inflight req.id = none) (id : ℕ) :
    (s.launch req).tokens id = s.tokens id + if id = req.id then 1 else 0 := by
  rw [tokens, tokens]
  by_cases hid : id = req.id
  · subst hid
    simp only [launch, hin]
    simp; omega
  · simp [launch, hid]

variable [DecidableEq H]

/-- The steps other than the creation of a request, one lock at a time. -/
inductive Move (s : Orchestrator H) : Orchestrator H → Prop
  | hostsChange (live : List H) : Move s { s with liveHosts := live }
  | giveUp {id : ℕ} {req : CellTransferRequest H} {notice : Notice} :
      s.inflight id = some req → notice = .failed ∨ notice = .timedOut →
      Move s (s.giveUp id req notice)
  | await {id : ℕ} {req : CellTransferRequest H} {c : CellID} {host : H} {slot : ℕ} :
      s.inflight id = some req → req.matched c host = some slot →
      Move s (s.await id (req.ack slot host) slot)
  | complete {id : ℕ} {req : CellTransferRequest H} {c : CellID} {host : H} {slot : ℕ} :
      s.inflight id = some req → req.matched c host = some slot →
      req.expectedReady ≤ (req.ack slot host).ackCount →
      Move s (s.complete id (req.ack slot host) slot)
  | rollback {req : CellTransferRequest H} : req ∈ s.rollbacks → Move s (s.rollback req)
  | commitStep {req : CellTransferRequest H} {stage : CommitStage H} :
      (req, stage) ∈ s.commits → Move s (s.commitStep req stage)

variable {event : TransferEvent H}

open Relation (ReflTransGen)

lemma onReady_cases (id : ℕ) (c : CellID) (host : H) (ok : Bool) :
    s.onReady id c host ok = s ∨ ∃ req, s.inflight id = some req ∧
      (ok = false ∧ s.onReady id c host ok = s.giveUp id req .failed ∨
        ok = true ∧ ∃ slot, req.matched c host = some slot ∧
          (s.onReady id c host ok = s.await id (req.ack slot host) slot ∨
            req.expectedReady ≤ (req.ack slot host).ackCount ∧
              s.onReady id c host ok = s.complete id (req.ack slot host) slot)) := by
  unfold onReady
  split
  · exact .inl rfl
  next req hreq =>
  split
  · next hok =>
    split
    · exact .inl rfl
    next slot hslot =>
    dsimp only
    split
    · exact .inr ⟨req, hreq, .inr ⟨hok, slot, hslot, .inl rfl⟩⟩
    · next hfull =>
      exact .inr ⟨req, hreq, .inr ⟨hok, slot, hslot, .inr ⟨not_lt.mp hfull, rfl⟩⟩⟩
  · next hok => exact .inr ⟨req, hreq, .inl ⟨Bool.eq_false_of_not_eq_true hok, rfl⟩⟩

lemma onReady_moves (id : ℕ) (c : CellID) (host : H) (ok : Bool) :
    ReflTransGen Move s (s.onReady id c host ok) := by
  rcases onReady_cases (s := s) id c host ok with
    h | ⟨req, hreq, ⟨-, h⟩ | ⟨-, slot, hslot, h | ⟨hfull, h⟩⟩⟩ <;> rw [h]
  · exact .single (.giveUp hreq (.inl rfl))
  · exact .single (.await hreq hslot)
  · exact .single (.complete hreq hslot hfull)

lemma expire_moves (id : ℕ) : ReflTransGen Move s (s.expire id) := by
  unfold expire
  split
  · exact .refl
  · next req hreq => exact .single (.giveUp hreq (.inr rfl))

lemma scanTimeouts_moves (expired : List ℕ) (s : Orchestrator H) :
    ReflTransGen Move s (expired.foldl expire s) := by
  induction expired generalizing s with
  | nil => exact .refl
  | cons id expired ih => exact (expire_moves id).trans (ih _)

lemma step_cases (h : s.step event = some t) :
    (∃ req, s.begun event = some req ∧ t = s.launch req) ∨ ReflTransGen Move s t := by
  cases event with
  | hostsChange live => exact .inr (.single (some.inj h ▸ .hostsChange live))
  | onReady id c host ok => exact .inr (some.inj h ▸ onReady_moves id c host ok)
  | scanTimeouts expired => exact .inr (some.inj h ▸ scanTimeouts_moves expired s)
  | rollback id =>
    obtain ⟨req, hreq, rfl⟩ := map_eq_some_iff.mp h
    exact .inr (.single (.rollback (mem_of_find?_eq_some hreq)))
  | commitStep id =>
    obtain ⟨c, hc, rfl⟩ := map_eq_some_iff.mp h
    exact .inr (.single (.commitStep (mem_of_find?_eq_some hc)))
  | _ =>
    obtain ⟨req, hreq, rfl⟩ := map_eq_some_iff.mp h
    exact .inl ⟨req, hreq, rfl⟩

lemma step_preserves {I : Orchestrator H → Prop} (h : s.step event = some t) (hI : I s)
    (hlaunch : ∀ req, s.begun event = some req → I (s.launch req))
    (hmove : ∀ {a b}, I a → Move a b → I b) : I t := by
  rcases step_cases h with ⟨req, hreq, rfl⟩ | hmoves
  · exact hlaunch req hreq
  clear h
  induction hmoves with
  | refl => exact hI
  | tail _ hab ih => exact hmove ih hab

lemma begun_cases (h : s.begun event = some req) :
    (∃ parent srcHost childHosts, event = .beginSplit parent srcHost childHosts ∧
      s.ownership.OwnerOf parent srcHost ∧ childHosts.length = 4 ∧
      req = .split (s.nextID + 1) parent srcHost childHosts) ∨
    (∃ parent siblingHosts choice, event = .beginMerge parent siblingHosts choice ∧
      siblingHosts.length = 4 ∧
      (∀ a ∈ parent.children.zip siblingHosts, s.ownership.OwnerOf a.1 a.2) ∧
      req = .merge (s.nextID + 1) parent siblingHosts choice) ∨
    (∃ cell srcHost destHost, event = .beginMigrate cell srcHost destHost ∧
      s.ownership.OwnerOf cell srcHost ∧ srcHost ≠ destHost ∧
      req = .migrate (s.nextID + 1) cell srcHost destHost) := by
  cases event with
  | beginSplit parent srcHost childHosts =>
    simp only [begun, ite_none_right_eq_some, some.injEq] at h
    exact .inl ⟨_, _, _, rfl, h.1.1, h.1.2.1, h.2.symm⟩
  | beginMerge parent siblingHosts choice =>
    simp only [begun, ite_none_right_eq_some, some.injEq] at h
    exact .inr (.inl ⟨_, _, _, rfl, h.1.1, h.1.2.2, h.2.symm⟩)
  | beginMigrate cell srcHost destHost =>
    simp only [begun, ite_none_right_eq_some, some.injEq] at h
    exact .inr (.inr ⟨_, _, _, rfl, h.1.1, h.1.2.2, h.2.symm⟩)
  | _ => simp [begun] at h

lemma begun_id (h : s.begun event = some req) :
    req.id = s.nextID + 1 := by
  obtain ⟨_, _, _, _, _, _, rfl⟩ | ⟨_, _, _, _, _, _, rfl⟩ | ⟨_, _, _, _, _, _, rfl⟩ :=
    begun_cases h
    <;> rfl

lemma begun_ackCount (h : s.begun event = some req) : req.ackCount = 0 := by
  obtain ⟨_, _, _, _, _, _, rfl⟩ | ⟨_, _, _, _, _, _, rfl⟩ | ⟨_, _, _, _, _, _, rfl⟩ :=
    begun_cases h
    <;> rfl

lemma begun_tracked (h : s.begun event = some req)
    (notices : List (ℕ × Notice)) : req.Tracked notices := by
  obtain ⟨_, _, hosts, _, _, hlen, rfl⟩ | ⟨_, hosts, choice, _, hlen, _, rfl⟩ |
    ⟨_, _, _, _, _, _, rfl⟩ := begun_cases h
  · exact .of_new rfl (by simp [CellTransferRequest.split, CellID.children, hlen]) rfl
  · refine .of_new rfl ?_ rfl
    have hidx := CellTransferRequest.survivorIdx_lt choice hlen
    simp [CellTransferRequest.merge, CellID.children, hlen, length_eraseIdx, hidx]
  · exact .of_new rfl rfl rfl

lemma Inv.launch (h : Inv s) (hreq : s.begun event = some req) : Inv (s.launch req) := by
  have hid : req.id = s.nextID + 1 := begun_id hreq
  have hlater := h.later req.id (by omega)
  have hnone : s.inflight req.id = none := by
    have htokens := hlater.1
    rw [tokens] at htokens
    have hlen : (s.inflight req.id).toList.length = 0 := by omega
    simpa using hlen
  constructor
  · intro id r hr
    rw [inflight_launch] at hr
    split at hr
    · next heq => rw [heq, some.inj hr]
    · exact h.named hr
  · intro id
    rw [tokens_launch hnone]
    split
    · next heq => rw [heq, hlater.1]
    · exact h.unique id
  · intro id hlt
    change s.nextID + 1 < id at hlt
    rw [tokens_launch hnone, if_neg (by omega)]
    exact h.later id (by omega)
  · intro id r hr
    rw [inflight_launch] at hr
    split at hr
    · exact some.inj hr ▸ begun_tracked hreq _
    · exact h.tracked hr
  · intro id hsome
    rw [inflight_launch] at hsome
    split at hsome
    · next heq => exact heq ▸ ⟨hlater.2 _, hlater.2 _⟩
    · exact h.unspoilt hsome
  · exact h.committing
  · exact h.committed

lemma Move.tokens_le (h : Inv s) (hm : Move s t) (id : ℕ) : t.tokens id ≤ s.tokens id := by
  cases hm with
  | hostsChange live => exact le_rfl
  | @giveUp id' req notice hin hn =>
    obtain rfl := h.named hin
    rw [tokens, tokens, inflight_giveUp]
    by_cases hid : id = req.id
    · subst hid
      rw [hin]
      simp only [Orchestrator.giveUp, countP_append, countP_singleton, decide_true, if_true,
        toList_none, toList_some, length_nil, length_singleton]
      omega
    · simp [Orchestrator.giveUp, hid, Ne.symm hid]
  | @await id' req c host slot hin hm =>
    rw [tokens, tokens]
    by_cases hid : id = id'
    · subst hid
      simp [Orchestrator.await, hin]
    · simp [Orchestrator.await, hid]
  | @complete id' req c host slot hin hm hfull =>
    obtain rfl : req.id = id' := h.named hin
    rw [tokens, tokens, inflight_complete]
    by_cases hid : id = req.id
    · subst hid
      rw [if_pos rfl, hin]
      simp only [Orchestrator.complete, CellTransferRequest.ack_id, countP_append,
        countP_singleton, decide_true, if_true, toList_none, toList_some,
        length_nil, length_singleton]
      omega
    · simp [Orchestrator.complete, hid, Ne.symm hid]
  | @rollback req hmem =>
    have hpos : 0 < s.rollbacks.countP (·.id = req.id) :=
      countP_pos_iff.mpr ⟨req, hmem, by simp⟩
    rw [tokens, tokens]
    simp only [Orchestrator.rollback, countP_filter_key, countP_append, countP_singleton]
    by_cases hid : id = req.id
    · subst hid
      simp; omega
    · simp [hid, Ne.symm hid]
  | @commitStep req stage hmem =>
    have hpos : 0 < s.commits.countP (·.1.id = req.id) :=
      countP_pos_iff.mpr ⟨_, hmem, by simp⟩
    cases stage with
    | coordMutation => simp [tokens, Orchestrator.commitStep, countP_setStage]
    | registryDelta pre => simp [tokens, Orchestrator.commitStep, countP_setStage]
    | report =>
      have hcount := countP_filter_key (fun c => c.1.id) s.commits req.id id
      simp only [tokens, Orchestrator.commitStep, hcount, countP_append,
        countP_singleton]
      by_cases hid : id = req.id
      · subst hid
        simp; omega
      · simp [hid, Ne.symm hid]

lemma Move.notices_cases (hm : Move s t) :
    t.notices = s.notices ∨
      ∃ id notice, (s.inflight id).isSome ∧ t.notices = s.notices ++ [(id, notice)] := by
  cases hm with
  | giveUp hin _ | await hin _ | complete hin _ _ => exact .inr ⟨_, _, by simp [hin], rfl⟩
  | hostsChange _ | rollback _ => exact .inl rfl
  | @commitStep req stage _ => cases stage <;> exact .inl rfl

lemma Move.complete_mono (hm : Move s t) (hreq : req.Complete s.notices)
    (hnone : s.inflight req.id = none) : req.Complete t.notices := by
  rcases hm.notices_cases with heq | ⟨id, notice, hsome, heq⟩
  · rwa [heq]
  have hne : req.id ≠ id := by
    rintro rfl
    simp [hnone] at hsome
  rw [heq]
  constructor
  · intro i hi
    exact mem_append_left _ (hreq.acked i hi)
  · simpa [hne] using hreq.not_failed
  · simpa [hne] using hreq.not_timedOut

lemma Move.inflight_cases (hm : Move s t) (hin : t.inflight id = some req) :
    (s.inflight id = some req ∧ ∃ l, t.notices = s.notices ++ l ∧ ∀ n ∈ l, n.1 ≠ id) ∨
      ∃ old c host slot, s.inflight id = some old ∧ old.matched c host = some slot ∧
        req = old.ack slot host ∧ t.notices = s.notices ++ [(id, .acked slot)] := by
  cases hm with
  | hostsChange _ => exact .inl ⟨hin, [], by simp, by simp⟩
  | giveUp _ _ =>
    rw [inflight_giveUp, ite_eq_iff] at hin
    obtain ⟨-, h⟩ | ⟨hne, h⟩ := hin
    · cases h
    · exact .inl ⟨h, _, rfl, by simp [Ne.symm hne]⟩
  | await hold hmatch =>
    rw [inflight_await] at hin
    split at hin
    · next heq =>
      subst heq
      exact .inr ⟨_, _, _, _, hold, hmatch, (some.inj hin).symm, rfl⟩
    · next hne => exact .inl ⟨hin, _, rfl, by simp [Ne.symm hne]⟩
  | complete _ _ _ =>
    rw [inflight_complete] at hin
    split at hin
    · cases hin
    · next hne => exact .inl ⟨hin, _, rfl, by simp [Ne.symm hne]⟩
  | rollback _ =>
    rw [inflight_rollback] at hin
    split at hin
    · cases hin
    · exact .inl ⟨hin, [], by simp [Orchestrator.rollback], by simp⟩
  | @commitStep _ stage _ =>
    cases stage <;> exact .inl ⟨hin, [], by simp [Orchestrator.commitStep], by simp⟩

lemma Move.commits_cases (hm : Move s t) {stage : CommitStage H} (hmem : (req, stage) ∈ t.commits) :
    (∃ stage', (req, stage') ∈ s.commits) ∨
      ∃ id old c host slot, s.inflight id = some old ∧ old.matched c host = some slot ∧
        old.expectedReady ≤ (old.ack slot host).ackCount ∧ req = old.ack slot host ∧
        t.notices = s.notices ++ [(id, .acked slot)] := by
  cases hm with
  | hostsChange _ | giveUp _ _ | await _ _ | rollback _ => exact .inl ⟨_, hmem⟩
  | complete hold hmatch hfull =>
    rcases mem_append.mp hmem with hmem | hmem
    · exact .inl ⟨_, hmem⟩
    · obtain ⟨rfl, -⟩ := Prod.mk.inj (mem_singleton.mp hmem)
      exact .inr ⟨_, _, _, _, _, hold, hmatch, hfull, rfl, rfl⟩
  | @commitStep req' stage' hmem' =>
    have hset : ∀ {st}, (req, stage) ∈ s.setStage req' st →
      ∃ stage', (req, stage') ∈ s.commits := by
      intro st h
      obtain ⟨c, hc, heq⟩ := mem_map.mp h
      split at heq
      · obtain ⟨rfl, -⟩ := Prod.mk.inj heq
        exact ⟨_, hmem'⟩
      · exact ⟨stage, heq ▸ hc⟩
    cases stage' with
    | coordMutation | registryDelta _ => exact .inl (hset hmem)
    | report => exact .inl ⟨stage, (mem_filter.mp hmem).1⟩

lemma Move.results_cases (hm : Move s t) {outcome : Outcome} (hmem : (req, outcome) ∈ t.results) :
    (req, outcome) ∈ s.results ∨ outcome = .rolledBack ∧ req ∈ s.rollbacks ∨
      outcome = .committed ∧ (req, .report) ∈ s.commits := by
  cases hm with
  | hostsChange _ | giveUp _ _ | await _ _ | complete _ _ _ => exact .inl hmem
  | rollback hreq =>
    rcases mem_append.mp hmem with hmem | hmem
    · exact .inl hmem
    · obtain ⟨rfl, rfl⟩ := Prod.mk.inj (mem_singleton.mp hmem)
      exact .inr (.inl ⟨rfl, hreq⟩)
  | @commitStep req' stage hreq =>
    cases stage with
    | coordMutation | registryDelta _ => exact .inl hmem
    | report =>
      rcases mem_append.mp hmem with hmem | hmem
      · exact .inl hmem
      · obtain ⟨rfl, rfl⟩ := Prod.mk.inj (mem_singleton.mp hmem)
        exact .inr (.inr ⟨rfl, hreq⟩)

lemma Move.nextID_eq (hm : Move s t) : t.nextID = s.nextID := by
  cases hm with
  | @commitStep _ stage _ => cases stage <;> rfl
  | _ => rfl

lemma Inv.move (h : Inv s) (hm : Move s t) : Inv t := by
  constructor
  · intro id req hin
    rcases hm.inflight_cases hin with ⟨hold, -⟩ | ⟨old, _, _, _, hold, -, rfl, -⟩
    · exact h.named hold
    · have hid : old.id = id := h.named hold
      exact hid
  · intro id
    exact (hm.tokens_le h id).trans (h.unique id)
  · intro id hlt
    rw [hm.nextID_eq] at hlt
    obtain ⟨htokens, hnotices⟩ := h.later id hlt
    refine ⟨Nat.le_zero.mp (htokens ▸ hm.tokens_le h id), fun notice hmem => ?_⟩
    rcases hm.notices_cases with heq | ⟨id', notice', hsome, heq⟩
    · exact hnotices notice (heq ▸ hmem)
    rw [heq, mem_append, mem_singleton] at hmem
    rcases hmem with hmem | hmem
    · exact hnotices notice hmem
    · obtain ⟨rfl, -⟩ := Prod.mk.inj hmem
      obtain ⟨r, hr⟩ := isSome_iff_exists.mp hsome
      simp [tokens, hr] at htokens
  · intro id req hin
    rcases hm.inflight_cases hin with ⟨hold, l, heq, -⟩ | ⟨old, _, _, _, hold, hmatch, rfl, heq⟩
    · exact (h.tracked hold).mono (heq ▸ subset_append_left ..)
    · obtain rfl := h.named hold
      exact heq ▸ (h.tracked hold).ack hmatch
  · intro id hsome
    obtain ⟨req, hin⟩ := isSome_iff_exists.mp hsome
    rcases hm.inflight_cases hin with ⟨hold, l, heq, hl⟩ | ⟨old, _, _, _, hold, -, -, heq⟩
    · have hnot : ∀ n, (id, n) ∉ l := fun n hn => hl _ hn rfl
      have hclean := h.unspoilt (isSome_of_eq_some hold)
      simp [heq, hclean, hnot]
    · have hclean := h.unspoilt (isSome_of_eq_some hold)
      simp [heq, hclean]
  · intro req stage hmem
    rcases hm.commits_cases hmem with ⟨stage', hold⟩ |
      ⟨id, old, c, host, slot, hold, hmatch, hfull, rfl, heq⟩
    · exact hm.complete_mono (h.committing hold) (h.inflight_of_commit hold)
    obtain rfl := h.named hold
    have hclean := h.unspoilt (isSome_of_eq_some hold)
    rw [heq]
    have htracked := (h.tracked hold).ack hmatch
    exact ⟨fun i hi => htracked.noted i (htracked.ackedCmd_of_full hfull hi),
      by simpa using hclean.1, by simpa using hclean.2⟩
  · intro req hmem
    rcases hm.results_cases hmem with hold | ⟨h', -⟩ | ⟨-, hold⟩
    · exact hm.complete_mono (h.committed hold) (h.inflight_of_result hold)
    · cases h'
    · exact hm.complete_mono (h.committing hold) (h.inflight_of_commit hold)

lemma Inv.step (h : Inv s) (hstep : s.step event = some t) : Inv t :=
  step_preserves hstep h (fun _ hreq => h.launch hreq) fun ha hm => ha.move hm

lemma Committing.move (h : s.Committing id) (hm : Move s t) : t.Committing id := by
  cases hm with
  | hostsChange _ | giveUp _ _ | await _ _ => exact h
  | complete _ _ _ =>
    refine h.imp_left ?_
    rintro ⟨c, hc, hid⟩
    exact ⟨c, mem_append_left _ hc, hid⟩
  | rollback _ =>
    refine h.imp_right ?_
    rintro ⟨r, hr, hid⟩
    exact ⟨r, mem_append_left _ hr, hid⟩
  | @commitStep req stage hmem =>
    have hset : ∀ st, (∃ c ∈ s.commits, c.1.id = id) → ∃ c ∈ s.setStage req st, c.1.id = id := by
      rintro st ⟨c, hc, hid⟩
      refine ⟨_, mem_map_of_mem hc, ?_⟩
      split
      · next heq => exact heq ▸ hid
      · exact hid
    cases stage with
    | coordMutation | registryDelta _ => exact h.imp_left (hset _)
    | report =>
      rcases h with ⟨c, hc, hid⟩ | ⟨r, hr, hid⟩
      · by_cases heq : c.1.id = req.id
        · exact .inr ⟨req, mem_append_right _ (mem_singleton_self _), heq ▸ hid⟩
        · exact .inl ⟨c, mem_filter.mpr ⟨hc, by simpa using heq⟩, hid⟩
      · exact .inr ⟨r, mem_append_left _ hr, hid⟩

lemma Committing.step (h : s.Committing id) (hstep : s.step event = some t) : t.Committing id :=
  step_preserves (I := (·.Committing id)) hstep h (fun _ _ => h) fun ha hm => ha.move hm

def twoHosts : Orchestrator ℕ :=
  { ownership := {
      cellToHostMap := fun _ => none
      hosts := [1, 2]
      ownedCells := fun h => if h = 1 then [⟨0, 0, 0⟩] else [] }
    topology := [⟨0, 0, 0⟩]
    liveHosts := [1, 2] }

end Orchestrator

end Mmokit
