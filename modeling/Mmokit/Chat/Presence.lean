/-
Who is online, and which connections are subscribed (`HandleSessionEnter`, `HandleSessionLeave` and
the handlers of members).

The service records one connection for each user who is online, beside an index of all connections.
A session that ends takes the record of its user with it, whichever connection it was, and most
handlers subscribe the recorded connection only.
-/
import Mmokit.Chat.Bans

namespace Mmokit.Chat

open Function Rooms

namespace Rooms

variable {r r' : Rooms} {now : Time} {ch : ChannelID} {u : UserID}

def Subscribed (r : Rooms) (live : ConnID → Option UserID) (now : Time) : Prop :=
  ∀ ch u c, live c = some u → u ∈ r.membership ch → ¬ r.Banned now ch u → c ∈ r.subs ch

def Listed (r : Rooms) : Prop := ∀ ch u, u ∈ r.membership ch → ch ∈ r.userChans u

variable {live : ConnID → Option UserID}

/-- **The frame rule for subscriptions**: a live connection of a member is subscribed anew, or it
was due before and stays. -/
lemma Subscribed.step (h : r.Subscribed live now)
    (hstep : ∀ ch u c, live c = some u → u ∈ r'.membership ch → ¬ r'.Banned now ch u →
      (u ∈ r.membership ch ∧ ¬ r.Banned now ch u ∧ (c ∈ r.subs ch → c ∈ r'.subs ch)) ∨
        c ∈ r'.subs ch) : r'.Subscribed live now := by
  intro ch u c hc hu hban
  rcases hstep ch u c hc hu hban with ⟨hold, hban', hkeep⟩ | hnew
  · exact hkeep (h ch u c hc hold hban')
  · exact hnew

variable {role : Role} {conn : Option ConnID}

lemma Subscribed.addMember (h : r.Subscribed live now)
    (hconn : ∀ c, live c = some u → conn = some c) :
    (r.addMember ch u role conn).Subscribed live now := by
  refine h.step fun ch' v c hc hv hban => ?_
  rcases mem_addMember.mp hv with ⟨rfl, rfl⟩ | hold
  · exact .inr (mem_subs_addMember.mpr (.inr ⟨rfl, hconn c hc⟩))
  · exact .inl ⟨hold, hban, fun hmem => mem_subs_addMember.mpr (.inl hmem)⟩

lemma Subscribed.dropMember (h : r.Subscribed live now)
    (hconn : ∀ c, conn = some c → live c = some u) :
    (r.dropMember ch u conn).Subscribed live now := by
  refine h.step fun ch' v c hc hv hban => ?_
  obtain ⟨hold, hne⟩ := mem_dropMember.mp hv
  refine .inl ⟨hold, hban, fun hmem => mem_subs_dropMember.mpr ⟨hmem, ?_⟩⟩
  rintro ⟨hch, hc'⟩
  exact hne ⟨hch, Option.some.inj (hc.symm.trans (hconn c hc'))⟩

variable {ids : List UserID}

lemma Subscribed.bulkSetMembers (h : r.Subscribed live now)
    (hconn : ∀ v ∈ ids, ∀ c, live c = some v → r.online.lookup v = some c) :
    (r.bulkSetMembers ch ids).Subscribed live now := by
  refine h.step fun ch' v c hc hv hban => ?_
  rcases mem_bulkSetMembers.mp hv with ⟨rfl, hids⟩ | ⟨hne, hold⟩
  · exact .inr (mem_subs_bulkSetMembers.mpr (.inr ⟨rfl, v, hids, hconn v hids c hc⟩))
  · exact .inl ⟨hold, hban, fun hmem => mem_subs_bulkSetMembers.mpr (.inl ⟨hne, hmem⟩)⟩

lemma Subscribed.ban (h : r.Subscribed live now) {entry : BanEntry}
    (hentry : now < entry.bannedUntil)
    (hrecorded : ∀ c, r.online.lookup u = some c → live c = some u) :
    (r.ban ch u entry).Subscribed live now := by
  refine h.step fun ch' v c hc hv hban => ?_
  rw [banned_ban] at hban
  split at hban
  · exact absurd hentry hban
  rename_i hkey
  refine .inl ⟨hv, hban, fun hmem => mem_subs_ban.mpr ⟨hmem, ?_⟩⟩
  rintro ⟨hch, hc'⟩
  exact hkey (by rw [hch, Option.some.inj (hc.symm.trans (hrecorded c hc'))])

lemma Subscribed.unban (h : r.Subscribed live now)
    (hu : ∀ c, live c = some u → u ∈ r.membership ch → c ∈ r.subs ch) :
    (r.unban ch u).Subscribed live now := by
  refine h.step fun ch' v c hc hv hban => ?_
  by_cases hkey : (ch', v) = (ch, u)
  · obtain ⟨rfl, rfl⟩ := Prod.mk.inj hkey
    exact .inr (hu c hc hv)
  · exact .inl ⟨hv, fun hold => hban (banned_unban.mpr ⟨hold, hkey⟩), id⟩

lemma Subscribed.dropChannel (h : r.Subscribed live now) :
    (r.dropChannel ch).Subscribed live now := by
  refine h.step fun ch' v c hc hv hban => ?_
  obtain ⟨hne, hold⟩ := mem_dropChannel.mp hv
  exact .inl ⟨hold, hban, fun hmem => mem_subs_dropChannel.mpr ⟨hne, hmem⟩⟩

/-! The lists of channels after the updates. -/

lemma Listed.addMember (h : r.Listed) : (r.addMember ch u role conn).Listed := by
  intro ch' v hv
  rcases mem_addMember.mp hv with hnew | hold
  · exact mem_userChans_addMember.mpr (.inl hnew)
  · exact mem_userChans_addMember.mpr (.inr (h ch' v hold))

lemma Listed.dropMember (h : r.Listed) : (r.dropMember ch u conn).Listed := by
  intro ch' v hv
  obtain ⟨hold, hne⟩ := mem_dropMember.mp hv
  exact mem_userChans_dropMember.mpr ⟨h ch' v hold, hne⟩

lemma Listed.bulkSetMembers (h : r.Listed) : (r.bulkSetMembers ch ids).Listed := by
  intro ch' v hv
  rw [mem_userChans_bulkSetMembers]
  rcases mem_bulkSetMembers.mp hv with ⟨rfl, hids⟩ | ⟨hne, hold⟩
  · -- a member of the new list: it was a member before, or it is added
    by_cases hold : v ∈ r.membership ch'
    · exact .inl ⟨h ch' v hold, fun hgone => hgone.2.2 hids⟩
    · exact .inr ⟨rfl, hids, hold⟩
  · exact .inl ⟨h ch' v hold, fun hgone => hne hgone.1⟩

lemma Listed.dropChannel (h : r.Listed) : (r.dropChannel ch).Listed := by
  intro ch' v hv
  obtain ⟨hne, hold⟩ := mem_dropChannel.mp hv
  exact mem_userChans_dropChannel.mpr ⟨h ch' v hold, fun hgone => hne hgone.1⟩

end Rooms

lemma RoomsStep.listed {w : World} {now : Time} {op : Op} {r : Rooms} (h : RoomsStep w now op r)
    (hl : w.service.Listed) : r.Listed := by
  cases h with
  | same => exact hl
  | enter => exact hl
  | leaveSession =>
    unfold Rooms.leaveSession
    split
    · exact hl
    · exact hl
  | create => exact hl.addMember
  | join => exact hl.addMember
  | leave => exact hl.dropMember
  | addMember => exact hl.addMember
  | removeMember => exact hl.dropMember
  | bulkSetMembers => exact hl.bulkSetMembers
  | setMemberRole hu => exact fun ch v hv => hl ch v ((mem_setMemberRole hu).mp hv)
  | kick => exact hl.dropMember
  | ban => exact hl
  | unban => exact hl
  | unregister => exact hl.dropChannel

def Op.entered : Op → Option (ConnID × UserID)
  | .sessionEnter c (some u) _ => some (c, u)
  | _ => none

namespace Observed

def OwnConnections (owner : ConnID → UserID) (_ : Observed) (a : Env × Op) : Prop :=
  a.2.entered.all (fun p => owner p.1 = p.2) = true

instance (owner : ConnID → UserID) (s : Observed) (a : Env × Op) :
    Decidable (OwnConnections owner s a) :=
  inferInstanceAs (Decidable (_ = true))

def Sole (s : Observed) (c : ConnID) : Prop :=
  ∀ u c', s.live c = some u → s.live c' = some u → c' = c

def Recorded (s : Observed) (u : UserID) : Prop :=
  ∀ c, s.live c = some u → s.world.service.online.lookup u = some c

/-- The steps that the record and the subscriptions can follow. -/
def Followed (s : Observed) (a : Env × Op) : Prop :=
  (∀ ch u c, s.world.service.Banned s.world.clock ch u → ¬ s.world.service.Banned a.1.now ch u →
    s.live c = some u → u ∈ s.world.service.membership ch → c ∈ s.world.service.subs ch) ∧
  match a.2 with
  | .sessionLeave c => s.Sole c
  | .create (some ctx) _ _ _ _ _ _ => s.Sole ctx.connID
  | .join (some ctx) _ _ _ => s.Sole ctx.connID
  | .addMember _ _ (some u) _ _ => s.Recorded u
  | .bulkSetMembers _ _ ids _ => ∀ u, some u ∈ ids → s.Recorded u
  | .ban _ _ _ durationMs _ _ => durationMs * 1000000 < 2 ^ 63
  | .unban _ (some ch) (some u) _ => ∀ c, s.live c = some u →
      u ∈ s.world.service.membership ch → c ∈ s.world.service.subs ch
  | _ => True

/-- Presence and subscriptions match the live connections. -/
structure PresenceMatches (s : Observed) : Prop where
  online_iff : ∀ u, (s.world.service.online.lookup u).isSome ↔ ∃ c, s.live c = some u
  recorded : ∀ u c, s.world.service.online.lookup u = some c → s.live c = some u
  subscribed : ∀ ch u c, s.live c = some u → u ∈ s.world.service.membership ch →
    ¬ s.world.service.Banned s.world.clock ch u → c ∈ s.world.service.subs ch

/-- The invariant of a run. -/
structure Follows (owner : ConnID → UserID) (s : Observed) : Prop extends PresenceMatches s where
  index : s.world.service.connIndex = s.live
  owned : ∀ c u, s.live c = some u → owner c = u
  listed : s.world.service.Listed

variable {o : ServiceOpts} {s t : Observed} {a : Env × Op} {owner : ConnID → UserID}

variable {c : ConnID}

lemma online_enter {u : UserID} (hs : s.Follows owner) (hc : owner c = u) :
    let r := s.world.service.enter u c
    let live := update s.live c (some u)
    (∀ v, (r.online.lookup v).isSome ↔ ∃ c', live c' = some v) ∧
      ∀ v c', r.online.lookup v = some c' → live c' = some v := by
  -- the connections of the other users are other connections
  have hother : ∀ v c', v ≠ u → (update s.live c (some u) c' = some v ↔
      s.live c' = some v) := by
    intro v c' hvu
    by_cases hcc : c' = c
    · rw [hcc, update_self]
      constructor
      · intro h
        exact absurd (Option.some.inj h).symm hvu
      · intro h
        exact absurd ((hs.owned c v h).symm.trans hc) hvu
    · rw [update_of_ne hcc]
  refine ⟨fun v => ?_, fun v c' hv => ?_⟩
  · by_cases hvu : v = u
    · rw [hvu]
      refine iff_of_true ?_ ⟨c, update_self _ _ _⟩
      change ((s.world.service.online.insert u c).lookup u).isSome
      rw [AList.lookup_insert]
      rfl
    · change ((s.world.service.online.insert u c).lookup v).isSome ↔ _
      rw [AList.lookup_insert_ne hvu, hs.online_iff]
      exact exists_congr fun c' => (hother v c' hvu).symm
  · change (s.world.service.online.insert u c).lookup v = some c' at hv
    by_cases hvu : v = u
    · rw [hvu, AList.lookup_insert] at hv
      rw [hvu, ← Option.some.inj hv, update_self]
    · rw [AList.lookup_insert_ne hvu] at hv
      exact (hother v c' hvu).mpr (hs.recorded v c' hv)

lemma online_leave (hs : s.Follows owner) (hc : s.Sole c) :
    let r := s.world.service.leaveSession c
    let live := update s.live c none
    (∀ v, (r.online.lookup v).isSome ↔ ∃ c', live c' = some v) ∧
      ∀ v c', r.online.lookup v = some c' → live c' = some v := by
  unfold leaveSession
  rw [hs.index]
  cases hu : s.live c with
  | none =>
    rw [Function.update_eq_self_iff.mpr hu.symm]
    exact ⟨hs.online_iff, hs.recorded⟩
  | some u =>
    have hother : ∀ v c', v ≠ u → (update s.live c none c' = some v ↔
        s.live c' = some v) := by
      intro v c' hvu
      by_cases hcc : c' = c
      · rw [hcc, hu]
        exact iff_of_false (by simp) fun h => hvu (Option.some.inj h).symm
      · rw [update_of_ne hcc]
    refine ⟨fun v => ?_, fun v c' hv => ?_⟩
    · by_cases hvu : v = u
      · rw [hvu]
        refine iff_of_false (by simp) ?_
        rintro ⟨c', hc'⟩
        by_cases hcc : c' = c
        · rw [hcc, update_self] at hc'
          cases hc'
        · rw [update_of_ne hcc] at hc'
          exact hcc (hc u c' hu hc')
      · rw [AList.lookup_erase_ne hvu, hs.online_iff]
        exact exists_congr fun c' => (hother v c' hvu).symm
    · by_cases hvu : v = u
      · rw [hvu, AList.lookup_erase] at hv
        cases hv
      · rw [AList.lookup_erase_ne hvu] at hv
        exact (hother v c' hvu).mpr (hs.recorded v c' hv)

lemma lt_expiry {now : Time} {durationMs : ℤ} (hpos : 0 < durationMs)
    (hfits : durationMs * 1000000 < 2 ^ 63) : now < Service.expiry now durationMs := by
  have hmod : (durationMs * 1000000).bmod (2 ^ 64) = durationMs * 1000000 :=
    Int.bmod_eq_of_le (by omega) (by omega)
  exact Int.lt_add_of_pos_right _ (by omega)

variable {r : Rooms}

lemma subscribed_step (hs : s.Follows owner) (hK : s.Followed a)
    (hrooms : RoomsStep s.world a.1.now a.2 r) : r.Subscribed (track s.live a.2) a.1.now := by
  obtain ⟨e, op⟩ := a
  obtain ⟨hexpired, hK⟩ := hK
  -- bans that have expired since leave nobody out
  have hsub : s.world.service.Subscribed s.live e.now := by
    intro ch u c hc hu hban
    by_cases hold : s.world.service.Banned s.world.clock ch u
    · exact hexpired ch u c hold hban hc hu
    · exact hs.subscribed ch u c hc hu hold
  cases hrooms with
  | same hop =>
    rw [track_of_not_session hop]
    exact hsub
  | @enter c u name =>
    intro ch v c' hc' hv hban
    by_cases hcc : c' = c
    · -- the new connection is subscribed to the channels of its user
      rw [hcc] at hc'
      obtain rfl : u = v := by simpa [track] using hc'
      exact mem_subs_enter.mpr (.inr ⟨hcc, hs.listed ch u hv⟩)
    · have hold : s.live c' = some v := by simpa [track, update_of_ne hcc] using hc'
      exact mem_subs_enter.mpr (.inl (hsub ch v c' hold hv hban))
  | @leaveSession c =>
    intro ch v c' hc' hv hban
    have hcc : c' ≠ c := by
      rintro rfl
      simp [track] at hc'
    have hold : s.live c' = some v := by simpa [track, update_of_ne hcc] using hc'
    rw [membership_leaveSession] at hv
    rw [banned_leaveSession] at hban
    exact mem_subs_leaveSession_of_ne (hsub ch v c' hold hv hban) hcc
  | @create ctx slug password topic fresh upserted added u hu =>
    refine hsub.addMember fun c hc => ?_
    rw [hs.index] at hu
    rw [hK u c hu hc]
  | @join ctx slug password ok u ch hu hban =>
    refine hsub.addMember fun c hc => ?_
    rw [hs.index] at hu
    rw [hK u c hu hc]
  | @leave ctx ch ok u hu =>
    refine hsub.dropMember fun c hc => ?_
    rw [← hs.index, ← Option.some.inj hc, hu]
  | addMember => exact hsub.addMember hK
  | removeMember => exact hsub.dropMember (hs.recorded _)
  | @bulkSetMembers ctx ch ids ok =>
    exact hsub.bulkSetMembers fun v hv => hK v (List.mem_map.mpr ⟨v, hv, rfl⟩)
  | setMemberRole hu =>
    exact hsub.step fun ch v c hc hv hban =>
      .inl ⟨(mem_setMemberRole hu).mp hv, hban, id⟩
  | kick => exact hsub.dropMember (hs.recorded _)
  | ban hms => exact hsub.ban (lt_expiry hms hK) (hs.recorded _)
  | unban => exact hsub.unban hK
  | unregister => exact hsub.dropChannel

lemma online_step (hs : s.Follows owner) (hown : OwnConnections owner s a) (hK : s.Followed a)
    (hrooms : RoomsStep s.world a.1.now a.2 r) :
    (∀ v, (r.online.lookup v).isSome ↔ ∃ c, track s.live a.2 c = some v) ∧
      (∀ v c, r.online.lookup v = some c → track s.live a.2 c = some v) ∧
      ∀ c u, track s.live a.2 c = some u → owner c = u := by
  obtain ⟨e, op⟩ := a
  obtain ⟨-, hK⟩ := hK
  dsimp only [OwnConnections] at hrooms hown hK ⊢
  have hsame := And.intro hs.online_iff (And.intro hs.recorded hs.owned)
  cases hrooms with
  | same hop =>
    rw [track_of_not_session hop]
    exact hsame
  | @enter c u name =>
    have hc : owner c = u := by simpa [Op.entered] using hown
    obtain ⟨honline, hrecorded⟩ := online_enter hs hc
    refine ⟨honline, hrecorded, fun c' v hv => ?_⟩
    by_cases hcc : c' = c
    · rw [hcc] at hv ⊢
      obtain rfl : u = v := by simpa [track] using hv
      exact hc
    · exact hs.owned c' v (by simpa [track, update_of_ne hcc] using hv)
  | @leaveSession c =>
    obtain ⟨honline, hrecorded⟩ := online_leave hs hK
    refine ⟨honline, hrecorded, fun c' v hv => ?_⟩
    have hcc : c' ≠ c := by
      rintro rfl
      simp [track] at hv
    exact hs.owned c' v (by simpa [track, update_of_ne hcc] using hv)
  | _ => exact hsame

lemma Follows.step (hs : s.Follows owner) (hown : OwnConnections owner s a) (hK : s.Followed a)
    (hstep : Steps (step o) s a t) : t.Follows owner := by
  obtain ⟨-, hrooms, hlive, hnow⟩ := step_spec hstep
  have hsub := subscribed_step hs hK hrooms
  obtain ⟨honline, hrecorded, howned⟩ := online_step hs hown hK hrooms
  rw [← hlive] at hsub honline hrecorded howned
  rw [← hnow] at hsub
  refine ⟨⟨honline, hrecorded, hsub⟩, ?_, howned, hrooms.listed hs.listed⟩
  rw [hrooms.connIndex_eq, hlive, hs.index]

lemma Started.follows (h : s.Started) : s.Follows owner := by
  have hnone : ∀ c u, s.live c ≠ some u := by
    intro c u
    rw [h.live]
    simp
  refine ⟨⟨fun u => ?_, fun u c hc => ?_, fun ch u c hc => absurd hc (hnone c u)⟩, ?_,
    fun c u hc => absurd hc (hnone c u), h.members⟩
  · rw [h.online]
    exact iff_of_false (by simp) fun ⟨c, hc⟩ => hnone c u hc
  · rw [h.online] at hc
    simp at hc
  · rw [h.connIndex, h.live]

/-- **Presence.** With connections that are used by one user each, presence and subscriptions match
the live connections in every run of steps that can be followed. -/
theorem matches_connections_of_run {s₀ : Observed} (hs₀ : s₀.Started)
    (h : Run (Steps (step o)) (fun s a => OwnConnections owner s a ∧ s.Followed a) s₀ s) :
    s.PresenceMatches := by
  refine (Run.invariant (I := Follows owner) hs₀.follows ?_ h).toPresenceMatches
  intro s t a hs hK hstep
  exact hs.step hK.1 hK.2 hstep

theorem matches_connections_of_run_enter : ∃ s, Run (Steps (step defaultServiceOpts))
    (fun s a => OwnConnections (fun c => if c = 20 then 2 else 1) s a ∧ s.Followed a) oneChannel s ∧
      s.live 20 = none ∧ s.world.service.online.lookup 2 = none ∧
        s.live 10 = some 1 ∧ 10 ∈ s.world.service.subs 7 := by
  have hfree : ∀ (s : Observed) (a : Env × Op), s.world.service.bans = (fun _ => none) →
      ∀ ch u c, s.world.service.Banned s.world.clock ch u → ¬ s.world.service.Banned a.1.now ch u →
        s.live c = some u → u ∈ s.world.service.membership ch → c ∈ s.world.service.subs ch := by
    rintro s a hbans ch u c ⟨b, hb, -⟩
    rw [hbans] at hb
    cases hb
  have hrun : Run (Steps (step defaultServiceOpts))
    (fun s a => OwnConnections (fun c => if c = 20 then 2 else 1) s a ∧ s.Followed a)
      oneChannel oneChannel := .refl
  have hfirst := hrun.get (a := atTime 0 (.sessionEnter 10 (some 1) []))
    ⟨by decide, hfree _ _ rfl, trivial⟩ rfl
  have hsecond := hfirst.get (a := atTime 1 (.sessionEnter 20 (some 2) []))
    ⟨by decide, hfree _ _ rfl, trivial⟩ rfl
  have hleft := hsecond.get (a := atTime 2 (.sessionLeave 20))
    ⟨by decide, hfree _ _ rfl, fun u c hu hc => by
      cases hu
      by_contra hne
      change update (update (fun _ => none) 10 (some 1)) 20 (some 2) c = some 2 at hc
      rw [update_of_ne hne] at hc
      by_cases h : c = 10
      · subst h
        cases hc
      · rw [update_of_ne h] at hc
        cases hc⟩ rfl
  have hmatches := matches_connections_of_run started_oneChannel hleft
  refine ⟨_, hleft, rfl, ?_, rfl, hmatches.subscribed 7 1 10 rfl ?_ ?_⟩
  · decide +kernel
  · decide +kernel
  · decide +kernel

/-- **A session that ends takes its user offline**, though another connection is live. -/
theorem leave_forgets : ∃ s, Run (Steps (step defaultServiceOpts))
    (OwnConnections fun _ => 1) oneChannel s ∧
      s.live 11 = some 1 ∧ s.world.service.online.lookup 1 = none :=
  exists_run (step defaultServiceOpts) (OwnConnections fun _ => 1) _
    [atTime 0 (.sessionEnter 10 (some 1) []), atTime 1 (.sessionEnter 11 (some 1) []),
      atTime 2 (.sessionLeave 10)] (by decide +kernel)

/-- **The index of connections is exact**, whatever is requested and whichever requests fail: the
service knows the connections that have entered and not left, with their users, and every member
has the channel in their list. -/
theorem index_of_run {s₀ : Observed} (hs₀ : s₀.Started) (h : Run (Steps (step o)) Always s₀ s) :
    s.world.service.connIndex = s.live ∧ s.world.service.Listed := by
  refine ⟨connIndex_of_run hs₀ h, ?_⟩
  refine h.invariant (I := fun s => s.world.service.Listed) hs₀.members fun hlisted _ hstep => ?_
  exact (step_spec hstep).2.1.listed hlisted

theorem index_of_run_leave : ∃ s,
    (Run (Steps (step defaultServiceOpts)) Always oneChannel s ∧ s.live 10 = none ∧
      s.live 11 = some 1) ∧ s.world.service.connIndex 11 = some 1 := by
  obtain ⟨s, hrun, hleft, hlive⟩ := exists_run (s := oneChannel) (step defaultServiceOpts) Always
    (fun s => s.live 10 = none ∧ s.live 11 = some 1)
    [atTime 0 (.sessionEnter 10 (some 1) []), atTime 1 (.sessionEnter 11 (some 1) []),
      atTime 2 (.sessionLeave 10)] (by decide +kernel)
  exact ⟨s, ⟨hrun, hleft, hlive⟩, (index_of_run started_oneChannel hrun).1 ▸ hlive⟩

end Observed

end Mmokit.Chat
