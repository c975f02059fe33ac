/-
The session remap of a commit (`stepSplitRemapSessions`, `stepMergeRemapSessions`).

When a split or a merge is committed, the routes of the cells that it removes are moved to the
cells that take their place. The commit first collects the sessions to move, under the lock of the
table, and then moves them one by one, each under the lock again.
-/
import Mathlib
import Mmokit.Universe.CellGeometry
import Mmokit.Universe.SessionRoutes

namespace Mmokit

open List SessionRoutes

variable {G H User : Type*}

/-! ### What a commit removes, and where its sessions go -/

/-- The cells that a commit removes, and the host and cell that a session of theirs goes to. -/
structure RemapPlan (H User : Type*) where
  removed : List CellID
  dest : User → H × CellID
  dest_notMem : ∀ u, (dest u).2 ∉ removed

namespace RemapPlan

variable [Inhabited H]

/-- The first child. -/
def fallbackChild (parent : CellID) : CellID :=
  ⟨CellID.int32 (parent.x * 2), CellID.int32 (parent.y * 2), parent.depth + 1⟩

lemma ne_parent_of_mem_children {parent c : CellID} (h : c ∈ parent.children) : c ≠ parent := by
  rintro rfl
  have := CellID.depth_of_mem_children h
  omega

def split (parent : CellID) (adopted : User → Option CellID) (add : CellID → Option H)
    (h : ∀ u c, adopted u = some c → c ∈ parent.children) : RemapPlan H User where
  removed := [parent]
  dest u :=
    let fallbackHost := (add (fallbackChild parent)).getD default
    let destCell := (adopted u).getD (fallbackChild parent)
    ((add destCell).getD fallbackHost, destCell)
  dest_notMem u := by
    have hne : (adopted u).getD (fallbackChild parent) ≠ parent := by
      cases hu : adopted u with
      | none => exact ne_parent_of_mem_children (by simp [fallbackChild, CellID.children])
      | some c => exact ne_parent_of_mem_children (h u c hu)
    rwa [mem_singleton]

/-- A merge sends every session to the parent. -/
def merge (parent : CellID) (survivor : Option CellID) (donors : List CellID)
    (add : CellID → Option H) (h : ∀ c ∈ survivor.toList ++ donors, c ∈ parent.children) :
    RemapPlan H User where
  removed := survivor.toList ++ donors
  dest _ := ((add parent).getD default, parent)
  dest_notMem _ hmem := ne_parent_of_mem_children (h parent hmem) rfl

end RemapPlan

/-! ### The remap among other users of the table -/

/-- How far the commit is: the sessions it has collected and not yet moved. -/
inductive RemapPhase (G H : Type*)
  | before
  | rewriting (targets : List (SessionKey G × (H × CellID)))
  | done
deriving DecidableEq

def RemapPhase.started : RemapPhase G H → Bool
  | before => false
  | rewriting _ | done => true

structure Remap (G H User : Type*) where
  routes : SessionRoutes G H User
  phase : RemapPhase G H

inductive RemapEvent (G H User : Type*)
  | announce (key : SessionKey G) (route : SessionRoute H User)
  | disconnect (key : SessionKey G)
  | gatewayLost (gatewayID : G)
  /-- `notifyPlayerMigrated`: a player went to a cell of another host. -/
  | playerMigrated (key : SessionKey G) (destHost : H) (destCell : CellID)
  /-- `advancePlayerRoute`: a player went to a cell of the same host. -/
  | playerTransferred (key : SessionKey G) (destCell : CellID) (vcmEpoch : ℕ)
  | collect
  | rewrite (key : SessionKey G) (dest : H × CellID)
  | finish

def RemapEvent.IsCommit : RemapEvent G H User → Prop
  | collect | rewrite _ _ | finish => True
  | announce _ _ | disconnect _ | gatewayLost _ | playerMigrated _ _ _ | playerTransferred _ _ _ =>
    False

namespace Remap

def pending (s : Remap G H User) : List (SessionKey G) :=
  match s.phase with
  | .rewriting targets => targets.map Prod.fst
  | .before | .done => []

def targets (plan : RemapPlan H User) (routes : SessionRoutes G H User) :
    List (SessionKey G × (H × CellID)) :=
  routes.entries.filterMap fun e =>
    if e.2.cellID ∈ plan.removed then some (e.1, plan.dest e.2.username) else none

variable [DecidableEq G] [DecidableEq H] [Inhabited H] [Inhabited User]

def step (plan : RemapPlan H User) (s : Remap G H User) :
    RemapEvent G H User → Option (Remap G H User)
  | .announce key route => some { s with routes := s.routes.set key route }
  | .disconnect key => some { s with routes := s.routes.remove key }
  | .gatewayLost gatewayID => some { s with routes := s.routes.removeByGateway gatewayID }
  | .playerMigrated key destHost destCell =>
    some { s with routes := (s.routes.migrate key destHost destCell).1 }
  | .playerTransferred key destCell vcmEpoch =>
    some { s with routes := (s.routes.advanceCellFrom key destCell vcmEpoch).1 }
  | .collect =>
    match s.phase with
    | .before => some { s with phase := .rewriting (targets plan s.routes) }
    | .rewriting _ | .done => none
  | .rewrite key dest =>
    match s.phase with
    | .rewriting ts =>
      if (key, dest) ∈ ts then
        some ⟨(s.routes.migrate key dest.1 dest.2).1, .rewriting (ts.filter (·.1 ≠ key))⟩
      else none
    | .before | .done => none
  | .finish =>
    match s.phase with
    | .rewriting [] => some { s with phase := .done }
    | .rewriting (_ :: _) | .before | .done => none

/-! ### Undisturbed remaps -/

/-- After the collection, an announcement or a migration leaves a collected session in a removed
cell and brings no other session to one. An announcement of a session that has a route elsewhere
comes with a higher epoch. -/
def Undisturbed (plan : RemapPlan H User) (s : Remap G H User) :
    RemapEvent G H User → Prop
  | .announce key route =>
    (s.phase.started → (route.cellID ∈ plan.removed ↔ key ∈ s.pending)) ∧
      ∀ r ∈ s.routes.lookup key, SessionRoutes.Advanced r route
  | .playerMigrated key _ destCell =>
    s.phase.started → s.routes.lookup key = none ∨ (destCell ∈ plan.removed ↔ key ∈ s.pending)
  | .playerTransferred key destCell _ =>
    s.phase.started → (destCell ∈ plan.removed ↔ key ∈ s.pending)
  | .disconnect _ | .gatewayLost _ | .collect | .rewrite _ _ | .finish => True

instance (plan : RemapPlan H User) (s : Remap G H User) (e) : Decidable (s.Undisturbed plan e) := by
  cases e <;> dsimp only [Undisturbed] <;> infer_instance

/-- The routes of removed cells are those that are still to be moved. -/
structure Inv (plan : RemapPlan H User) (s : Remap G H User) : Prop where
  routed : s.phase.started → ∀ k, ∀ r ∈ s.routes.lookup k, (r.cellID ∈ plan.removed ↔ k ∈ s.pending)
  dest : ∀ ts, s.phase = .rewriting ts → ∀ t ∈ ts, t.2.2 ∉ plan.removed

variable {plan : RemapPlan H User} {s s' : Remap G H User}

variable {routes : SessionRoutes G H User} {k : SessionKey G}
  {r : SessionRoute H User}

omit [DecidableEq H] [Inhabited H] [Inhabited User] in
lemma mem_targets (hr : routes.lookup k = some r) :
    r.cellID ∈ plan.removed ↔ k ∈ (targets plan routes).map Prod.fst := by
  have hentry : ⟨k, r⟩ ∈ routes.entries := AList.mem_lookup_iff.mp hr
  constructor
  · intro hmem
    refine mem_map.mpr ⟨(k, plan.dest r.username), ?_, rfl⟩
    exact mem_filterMap.mpr ⟨⟨k, r⟩, hentry, if_pos hmem⟩
  intro hmem
  obtain ⟨t, ht, rfl⟩ := mem_map.mp hmem
  obtain ⟨e, he, heq⟩ := mem_filterMap.mp ht
  split at heq
  · next hcell =>
    cases heq
    have hlookup : routes.lookup e.1 = some e.2 := AList.mem_lookup_iff.mpr he
    rw [hlookup] at hr
    cases hr
    exact hcell
  · cases heq

omit [DecidableEq H] [Inhabited H] [Inhabited User] in
lemma mem_map_filter_ne {ts : List (SessionKey G × (H × CellID))} {key : SessionKey G} :
    k ∈ (ts.filter (·.1 ≠ key)).map Prod.fst ↔ k ∈ ts.map Prod.fst ∧ k ≠ key := by
  constructor
  · intro h
    obtain ⟨t, ht, rfl⟩ := mem_map.mp h
    obtain ⟨ht, hne⟩ := mem_filter.mp ht
    exact ⟨mem_map_of_mem ht, by simpa using hne⟩
  · rintro ⟨h, hne⟩
    obtain ⟨t, ht, rfl⟩ := mem_map.mp h
    exact mem_map_of_mem (mem_filter.mpr ⟨ht, by simpa using hne⟩)

omit [DecidableEq H] [Inhabited H] [Inhabited User] in
lemma Inv.set_route (h : s.Inv plan) (key : SessionKey G)
    (hne : ∀ k ≠ key, routes.lookup k = s.routes.lookup k)
    (hkey : s.phase.started → ∀ r ∈ routes.lookup key,
      (r.cellID ∈ plan.removed ↔ key ∈ s.pending)) : Inv plan { s with routes := routes } where
  routed hstarted k r hr := by
    by_cases hk : k = key
    · subst hk
      exact hkey hstarted r hr
    · rw [hne k hk] at hr
      exact h.routed hstarted k r hr
  dest := h.dest

variable {e : RemapEvent G H User}

lemma inv_step (h : s.Inv plan) (hK : s.Undisturbed plan e) (hstep : Steps (step plan) s e s') :
    s'.Inv plan := by
  cases e with
  | announce key route =>
    cases hstep
    refine h.set_route key (fun k hk => lookup_set_of_ne hk _) ?_
    intro hstarted r hr
    rw [lookup_set] at hr
    cases hr
    exact hK.1 hstarted
  | disconnect key =>
    cases hstep
    exact ⟨fun hstarted k r hr => h.routed hstarted k r (lookup_of_remove hr), h.dest⟩
  | gatewayLost gatewayID =>
    cases hstep
    exact ⟨fun hstarted k r hr =>
      h.routed hstarted k r (lookup_of_removeByGateway hr), h.dest⟩
  | playerMigrated key destHost destCell =>
    cases hstep
    refine h.set_route key (fun k hk => lookup_migrate_of_ne hk) ?_
    intro hstarted r hr
    cases hold : s.routes.lookup key with
    | none =>
      rw [migrate_of_none hold, hold] at hr
      cases hr
    | some old =>
      rw [lookup_migrate hold] at hr
      cases hr
      refine (hK hstarted).resolve_left ?_
      rw [hold]
      exact Option.some_ne_none old
  | playerTransferred key destCell vcmEpoch =>
    cases hstep
    refine h.set_route key (fun k hk => lookup_advanceCellFrom_of_ne hk) ?_
    intro hstarted r hr
    rw [cellID_advanceCellFrom hr]
    exact hK hstarted
  | collect =>
    simp only [Steps, step] at hstep
    split at hstep
    · cases hstep
      refine ⟨fun _ k r hr => mem_targets hr, ?_⟩
      rintro ts hts t ht
      cases hts
      obtain ⟨e, -, heq⟩ := mem_filterMap.mp ht
      split at heq
      · cases heq
        exact plan.dest_notMem _
      · cases heq
    · cases hstep
    · cases hstep
  | rewrite key dest =>
    simp only [Steps, step] at hstep
    split at hstep
    · next ts hphase =>
      split at hstep
      · next hmem =>
        cases hstep
        have hpending : s.pending = ts.map Prod.fst := by simp only [pending, hphase]
        refine ⟨fun _ k r hr => ?_, ?_⟩
        · -- the moved session is in its new cell and no longer pending, the others are as before
          rw [show Remap.pending ⟨_, .rewriting (ts.filter (·.1 ≠ key))⟩ =
            (ts.filter (·.1 ≠ key)).map Prod.fst from rfl, mem_map_filter_ne]
          by_cases hk : k = key
          · subst hk
            cases hold : s.routes.lookup k with
            | none =>
              rw [migrate_of_none hold, hold] at hr
              cases hr
            | some old =>
              rw [lookup_migrate hold] at hr
              cases hr
              exact ⟨fun hcell => absurd hcell (h.dest ts hphase _ hmem), fun hpend =>
                absurd rfl hpend.2⟩
          · rw [lookup_migrate_of_ne hk] at hr
            have hrouted := h.routed (by rw [hphase]; rfl) k r hr
            rw [hrouted, hpending]
            exact ⟨fun hmem => ⟨hmem, hk⟩, fun hmem => hmem.1⟩
        · rintro ts' hts' t ht
          cases hts'
          exact h.dest ts hphase t (mem_of_mem_filter ht)
      · cases hstep
    · cases hstep
    · cases hstep
  | finish =>
    simp only [Steps, step] at hstep
    split at hstep
    · next hphase =>
      cases hstep
      refine ⟨fun _ k r hr => ?_, fun ts hts => by cases hts⟩
      have hrouted := h.routed (by rw [hphase]; rfl) k r hr
      rw [hrouted]
      simp only [pending, hphase, map_nil]
    all_goals cases hstep

lemma advanced_step (hK : s.Undisturbed plan e) (hstep : Steps (step plan) s e s')
    {r' : SessionRoute H User} (hr : s.routes.lookup k = some r)
    (hr' : s'.routes.lookup k = some r') : SessionRoutes.Advanced r r' := by
  -- a route that is looked up unchanged
  have hsame {routes : SessionRoutes G H User} (h : routes.lookup k = some r')
      (heq : routes.lookup k = s.routes.lookup k) : SessionRoutes.Advanced r r' := by
    rw [heq, hr] at h
    cases h
    exact advanced_refl r
  have hmigrate {key : SessionKey G} {host : H} {cell : CellID}
      (h : (s.routes.migrate key host cell).1.lookup k = some r') :
      SessionRoutes.Advanced r r' := by
    by_cases hk : k = key
    · subst hk
      rw [lookup_migrate hr] at h
      cases h
      exact fun _ => Nat.lt_succ_self _
    · exact hsame h (lookup_migrate_of_ne hk)
  cases e with
  | announce key route =>
    cases hstep
    by_cases hk : k = key
    · subst hk
      rw [lookup_set] at hr'
      cases hr'
      exact hK.2 r hr
    · exact hsame hr' (lookup_set_of_ne hk _)
  | disconnect key =>
    cases hstep
    exact hsame (lookup_of_remove hr') rfl
  | gatewayLost gatewayID =>
    cases hstep
    exact hsame (lookup_of_removeByGateway hr') rfl
  | playerMigrated key destHost destCell =>
    cases hstep
    exact hmigrate hr'
  | playerTransferred key destCell vcmEpoch =>
    cases hstep
    by_cases hk : k = key
    · subst hk
      rw [lookup_advanceCellFrom hr] at hr'
      cases hr'
      exact fun _ => Nat.lt_succ_of_le (le_max_right _ _)
    · exact hsame hr' (lookup_advanceCellFrom_of_ne hk)
  | collect =>
    simp only [Steps, step] at hstep
    split at hstep
    · cases hstep
      exact hsame hr' rfl
    all_goals cases hstep
  | rewrite key dest =>
    simp only [Steps, step] at hstep
    split at hstep
    · split at hstep
      · cases hstep
        exact hmigrate hr'
      · cases hstep
    all_goals cases hstep
  | finish =>
    simp only [Steps, step] at hstep
    split at hstep
    · cases hstep
      exact hsame hr' rfl
    all_goals cases hstep

lemma kept_step (h : s.Inv plan) (he : e.IsCommit) (hstep : Steps (step plan) s e s')
    (hr : s.routes.lookup k = some r) (hcell : r.cellID ∉ plan.removed) :
    s'.routes.lookup k = some r := by
  cases e with
  | collect =>
    simp only [Steps, step] at hstep
    split at hstep
    · cases hstep
      exact hr
    all_goals cases hstep
  | rewrite key dest =>
    simp only [Steps, step] at hstep
    split at hstep
    · next ts hphase =>
      split at hstep
      · next hmem =>
        cases hstep
        -- a session that is still pending is in a removed cell, so this is another one
        have hk : k ≠ key := by
          rintro rfl
          refine hcell ((h.routed (by rw [hphase]; rfl) k r hr).mpr ?_)
          simp only [pending, hphase]
          exact mem_map_of_mem hmem
        exact (lookup_migrate_of_ne hk).trans hr
      · cases hstep
    all_goals cases hstep
  | finish =>
    simp only [Steps, step] at hstep
    split at hstep
    · cases hstep
      exact hr
    all_goals cases hstep
  | announce _ _ | disconnect _ | gatewayLost _ | playerMigrated _ _ _ | playerTransferred _ _ _ =>
    exact absurd he id

/-- **The remap moves the sessions of removed cells and no others**, in undisturbed runs; and each
route's epoch increases when its host or its cell changes. -/
theorem sound_step {start : Remap G H User} {e : RemapEvent G H User}
    (hstart : start.phase = .before)
    (hrun : Run (Steps (step plan)) (fun s e => s.Undisturbed plan e) start s)
    (hK : s.Undisturbed plan e) (hstep : Steps (step plan) s e s') :
    (s'.phase = .done → ∀ k, ∀ r ∈ s'.routes.lookup k, r.cellID ∉ plan.removed) ∧
      (e.IsCommit → ∀ k, ∀ r ∈ s.routes.lookup k, r.cellID ∉ plan.removed →
        s'.routes.lookup k = some r) ∧
      ∀ k, ∀ r ∈ s.routes.lookup k, ∀ r' ∈ s'.routes.lookup k, SessionRoutes.Advanced r r' := by
  have h₀ : start.Inv plan := by
    refine ⟨fun hstarted => ?_, fun ts hts => ?_⟩
    · rw [hstart] at hstarted
      cases hstarted
    · rw [hstart] at hts
      cases hts
  have hinv := hrun.invariant (I := Inv plan) h₀ fun h hK hstep => inv_step h hK hstep
  have hinv' := inv_step hinv hK hstep
  refine ⟨fun hdone k r hr hcell => ?_, fun he k r hr => kept_step hinv he hstep hr,
    fun k r hr r' hr' => advanced_step hK hstep hr hr'⟩
  have hpending := (hinv'.routed (by rw [hdone]; rfl) k r hr).mp hcell
  simp only [pending, hdone] at hpending
  cases hpending

/-! ### A split and two sessions -/

def splitOrigin : RemapPlan ℕ ℕ :=
  .split ⟨0, 0, 0⟩ (fun _ => none) (fun _ => some 1) fun _ _ h => by cases h

def twoSessions : Remap ℕ ℕ ℕ where
  routes := (∅ : SessionRoutes ℕ ℕ ℕ).set ⟨0, 1⟩ ⟨10, 0, ⟨0, 0, 0⟩, 3⟩ |>.set
    ⟨0, 2⟩ ⟨20, 0, ⟨7, 7, 0⟩, 1⟩
  phase := .before

theorem sound_step_split : ∃ s s',
    Run (Steps (step splitOrigin)) (fun s e => s.Undisturbed splitOrigin e) twoSessions s ∧
      Steps (step splitOrigin) s .finish s' ∧
      s'.routes.lookup ⟨0, 1⟩ = some ⟨10, 1, ⟨0, 0, 1⟩, 4⟩ ∧
      s'.routes.lookup ⟨0, 2⟩ = some ⟨20, 5, ⟨8, 7, 0⟩, 2⟩ ∧
      ∀ k, ∀ r ∈ s'.routes.lookup k, r.cellID ∉ splitOrigin.removed := by
  obtain ⟨s, hrun, hphase, hone, htwo⟩ := exists_run (s := twoSessions) (step splitOrigin)
    (fun s e => s.Undisturbed splitOrigin e)
    (fun s => s.phase = .rewriting [] ∧ s.routes.lookup ⟨0, 1⟩ = some ⟨10, 1, ⟨0, 0, 1⟩, 4⟩ ∧
      s.routes.lookup ⟨0, 2⟩ = some ⟨20, 5, ⟨8, 7, 0⟩, 2⟩)
    [.collect, .playerMigrated ⟨0, 2⟩ 5 ⟨8, 7, 0⟩, .rewrite ⟨0, 1⟩ (1, ⟨0, 0, 1⟩)]
      (by decide +kernel)
  have hstep : Steps (step splitOrigin) s .finish { s with phase := .done } := by
    simp only [Steps, step, hphase]
  obtain ⟨hgone, -, -⟩ := sound_step (e := .finish) rfl hrun trivial hstep
  exact ⟨s, _, hrun, hstep, hone, htwo, hgone rfl⟩

/-- **The remap goes by what it collected**: a session that has migrated since is taken back, one
that is announced in the split cell since stays there, and an announcement may replace a route by an
older one. -/
theorem remap_by_stale_targets :
    (∃ s s', Run (Steps (step splitOrigin)) Always twoSessions s ∧
      Steps (step splitOrigin) s (.rewrite ⟨0, 1⟩ (1, ⟨0, 0, 1⟩)) s' ∧
      s.routes.lookup ⟨0, 1⟩ = some ⟨10, 5, ⟨8, 7, 0⟩, 4⟩ ∧
      s'.routes.lookup ⟨0, 1⟩ = some ⟨10, 1, ⟨0, 0, 1⟩, 5⟩) ∧
    (∃ s, Run (Steps (step splitOrigin)) Always twoSessions s ∧ s.phase = .done ∧
      s.routes.lookup ⟨0, 3⟩ = some ⟨30, 0, ⟨0, 0, 0⟩, 1⟩) ∧
    ∃ s, Run (Steps (step splitOrigin)) Always twoSessions s ∧
      s.routes.lookup ⟨0, 1⟩ = some ⟨10, 0, ⟨7, 7, 0⟩, 1⟩ := by
  refine ⟨?_, ?_, ?_⟩
  · obtain ⟨s, hrun, hmoved, hback⟩ := exists_run (s := twoSessions) (step splitOrigin) Always
      (fun s => s.routes.lookup ⟨0, 1⟩ = some ⟨10, 5, ⟨8, 7, 0⟩, 4⟩ ∧
        ((step splitOrigin s (.rewrite ⟨0, 1⟩ (1, ⟨0, 0, 1⟩))).map fun s' =>
          s'.routes.lookup ⟨0, 1⟩) = some (some ⟨10, 1, ⟨0, 0, 1⟩, 5⟩))
      [.collect, .playerMigrated ⟨0, 1⟩ 5 ⟨8, 7, 0⟩] (by decide +kernel)
    obtain ⟨s', hstep, hroute⟩ := Option.map_eq_some_iff.mp hback
    exact ⟨s, s', hrun, hstep, hmoved, hroute⟩
  · exact exists_run _ _ _
      [.collect, .announce ⟨0, 3⟩ ⟨30, 0, ⟨0, 0, 0⟩, 1⟩, .rewrite ⟨0, 1⟩ (1, ⟨0, 0, 1⟩), .finish]
      (by decide +kernel)
  · exact exists_run _ _ _ [.announce ⟨0, 1⟩ ⟨10, 0, ⟨7, 7, 0⟩, 1⟩] (by decide +kernel)

end Remap

end Mmokit
