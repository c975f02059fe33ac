/-
Bans and what a banned user still hears and says (`handlers_moderation.go`, `fanout.go`).

A ban keeps the membership of the user and takes the recorded connection out of the subscriptions
of the channel. But the paths that subscribe connections do not look at it: a new session,
`HandleAddMember`, `HandleBulkSetMembers` and `HandleCreate` on a slug that exists subscribe a
banned user again, and a ban does not see the connections of the user beyond the recorded one.
-/
import Mmokit.Chat.Requests
import Mmokit.Chat.Rooms

namespace Mmokit.Chat

open Rooms

namespace Rooms

variable {r r' : Rooms} {now : Time}

def Silenced (r : Rooms) (live : ConnID → Option UserID) (now : Time) : Prop :=
  ∀ ch u c, r.Banned now ch u → live c = some u → c ∉ r.subs ch

/-- **The frame rule for bans**: no new ban, no new connection, and no subscription of a connection
of a banned user. -/
lemma Silenced.step {live live' : ConnID → Option UserID} (h : r.Silenced live now)
    (hbans : ∀ ch u, r'.Banned now ch u → r.Banned now ch u)
    (hlive : ∀ c u, live' c = some u → live c = some u)
    (hsubs : ∀ ch c, c ∈ r'.subs ch →
      c ∈ r.subs ch ∨ ∀ u, live c = some u → ¬ r.Banned now ch u) : r'.Silenced live' now := by
  intro ch u c hbanned hc hmem
  rcases hsubs ch c hmem with hold | hnew
  · exact h ch u c (hbans ch u hbanned) (hlive c u hc) hold
  · exact hnew u (hlive c u hc) (hbans ch u hbanned)

end Rooms

namespace Service

variable {s : Service} {now : Time} {ch : ChannelID} {u : UserID}

lemma banCheck_eq_none : s.banCheck now u ch = none ↔ ¬ s.Banned now ch u := by
  unfold banCheck Rooms.Banned
  cases hb : s.bans (ch, u) with
  | none => simp
  | some b => simp

lemma not_banned_of_checkSend {o : ServiceOpts} {e : Env} {ctx : Option OpContext}
    {channelID : Option ChannelID} {body : Text}
    (h : s.checkSend o e ctx channelID body = .ok (ch, u)) : ¬ s.Banned e.now ch u := by
  obtain ⟨_, _, h⟩ := check_bind.mp h
  obtain ⟨ch', _, h⟩ := check_bind.mp h
  obtain ⟨_, _, h⟩ := check_bind.mp h
  dsimp only at h
  split at h
  · cases h
  split at h
  · cases h
  · rename_i hban
    obtain ⟨rfl, rfl⟩ := Prod.mk.inj (check_pure.mp h)
    exact banCheck_eq_none.mp hban

end Service

namespace Observed

/-- The steps that subscribe nobody who is banned, and the bans that see every connection. -/
def RespectsBans (s : Observed) (a : Env × Op) : Prop :=
  match a.2 with
  | .sessionEnter c (some u) _ => ∀ ch, s.world.service.Banned a.1.now ch u →
      ch ∉ s.world.service.userChans u ∧ c ∉ s.world.service.subs ch
  | .create (some ctx) slug _ _ fresh _ _ => ∀ u, s.live ctx.connID = some u →
      ¬ s.world.service.Banned a.1.now (s.world.repo.upsertID slug fresh) u
  | .addMember _ (some ch) (some u) _ _ => ∀ c v, s.world.service.online.lookup u = some c →
      s.live c = some v → ¬ s.world.service.Banned a.1.now ch v
  | .bulkSetMembers _ (some ch) ids _ => ∀ u c v, some u ∈ ids →
      s.world.service.online.lookup u = some c → s.live c = some v →
        ¬ s.world.service.Banned a.1.now ch v
  | .ban _ (some ch) (some u) _ _ _ => ∀ c, s.live c = some u → c ∈ s.world.service.subs ch →
      s.world.service.online.lookup u = some c
  | _ => True

def Silenced (s : Observed) : Prop := s.world.service.Silenced s.live s.world.clock

variable {o : ServiceOpts} {s t : Observed} {a : Env × Op}

lemma Silenced.step (hs : s.Silenced) (hindex : s.world.service.connIndex = s.live)
    (hK : s.RespectsBans a) (hstep : Steps (step o) s a t) : t.Silenced := by
  obtain ⟨hclock, hrooms, hlive, hnow⟩ := step_spec hstep
  obtain ⟨e, op⟩ := a
  have hs' : s.world.service.Silenced s.live e.now :=
    fun ch u c hbanned => hs ch u c (hbanned.earlier hclock)
  unfold Silenced
  rw [hnow, hlive]
  generalize t.world.service.toRooms = r at hrooms
  cases hrooms with
  | same hop =>
    rw [track_of_not_session hop]
    exact hs'
  | @enter c u name =>
    intro ch v c' hbanned hc' hmem
    have hbanned' : s.world.service.Banned e.now ch v := hbanned
    by_cases hcc : c' = c
    · -- the new connection: its user is banned from none of the channels it is subscribed to
      rw [hcc] at hc' hmem
      obtain rfl : u = v := by simpa [track] using hc'
      obtain ⟨hchan, hsub⟩ := hK ch hbanned'
      rcases mem_subs_enter.mp hmem with hold | ⟨-, hnew⟩
      · exact hsub hold
      · exact hchan hnew
    · have hold : s.live c' = some v := by
        simpa [track, Function.update_of_ne hcc] using hc'
      rcases mem_subs_enter.mp hmem with hmem | ⟨rfl, -⟩
      · exact hs' ch v c' hbanned' hold hmem
      · exact hcc rfl
  | @leaveSession c =>
    refine hs'.step (fun ch u h => banned_leaveSession.mp h) (fun c' u h => ?_)
      fun ch c' h => .inl (subs_leaveSession h)
    by_cases hcc : c' = c
    · rw [hcc] at h
      simp [track] at h
    · simpa [track, Function.update_of_ne hcc] using h
  | @create ctx slug password topic fresh upserted added u hu =>
    refine hs'.step (fun _ _ h => h) (fun _ _ h => h) fun ch c h => ?_
    rcases mem_subs_addMember.mp h with h | ⟨rfl, hc⟩
    · exact .inl h
    · rw [← Option.some.inj hc]
      exact .inr fun v hv => hK v hv
  | @join ctx slug password ok u ch hu hban =>
    refine hs'.step (fun _ _ h => h) (fun _ _ h => h) fun ch' c h => ?_
    rcases mem_subs_addMember.mp h with h | ⟨rfl, hc⟩
    · exact .inl h
    rw [← Option.some.inj hc]
    refine .inr fun v hv => ?_
    rw [← hindex, hu] at hv
    rw [← Option.some.inj hv]
    exact Service.banCheck_eq_none.mp hban
  | leave =>
    exact hs'.step (fun _ _ h => h) (fun _ _ h => h) fun _ _ h => .inl (mem_subs_dropMember.mp h).1
  | @addMember ctx ch u role ok r =>
    refine hs'.step (fun _ _ h => h) (fun _ _ h => h) fun ch' c h => ?_
    rcases mem_subs_addMember.mp h with h | ⟨rfl, hc⟩
    · exact .inl h
    · exact .inr fun v hv => hK c v hc hv
  | removeMember =>
    exact hs'.step (fun _ _ h => h) (fun _ _ h => h) fun _ _ h => .inl (mem_subs_dropMember.mp h).1
  | @bulkSetMembers ctx ch ids ok =>
    refine hs'.step (fun _ _ h => h) (fun _ _ h => h) fun ch' c h => ?_
    rcases mem_subs_bulkSetMembers.mp h with ⟨-, h⟩ | ⟨rfl, u, hu, hc⟩
    · exact .inl h
    · exact .inr fun v hv => hK u c v (List.mem_map.mpr ⟨u, hu, rfl⟩) hc hv
  | setMemberRole => exact hs'.step (fun _ _ h => h) (fun _ _ h => h) fun _ _ h => .inl h
  | kick =>
    exact hs'.step (fun _ _ h => h) (fun _ _ h => h) fun _ _ h => .inl (mem_subs_dropMember.mp h).1
  | @ban ctx ch u by_ durationMs reason ok hms =>
    intro ch' v c hbanned hc hmem
    obtain ⟨hold, hne⟩ := mem_subs_ban.mp hmem
    have hbanned' := banned_ban.mp hbanned
    split at hbanned'
    · -- the new ban: the recorded connection was the only one that was subscribed
      rename_i hkey
      obtain ⟨rfl, rfl⟩ := Prod.mk.inj hkey
      exact hne ⟨rfl, hK c hc hold⟩
    · exact hs' ch' v c hbanned' hc hold
  | unban =>
    exact hs'.step (fun _ _ h => (banned_unban.mp h).1) (fun _ _ h => h) fun _ _ h => .inl h
  | unregister =>
    exact hs'.step (fun _ _ h => h) (fun _ _ h => h) fun _ _ h => .inl (mem_subs_dropChannel.mp h).2

/-- **Bans silence.** In a run whose steps respect the bans, no live connection of a banned user is
subscribed to the channel; and in any case no message of a banned user is fanned out on it. -/
theorem silenced_of_run {s₀ : Observed} (hs₀ : s₀.Started)
    (h : Run (Steps (step o)) RespectsBans s₀ s) :
    (∀ ch u c, s.world.service.Banned s.world.clock ch u → s.live c = some u →
      c ∉ s.world.service.subs ch) ∧
    ∀ e op d ch u, d ∈ (s.world.handle o e op).sent → d.event.author = some (ch, u) →
      ¬ s.world.service.Banned e.now ch u := by
  refine ⟨?_, fun e op d ch u hd hauthor => ?_⟩
  · refine (Run.invariant (I := fun s => s.world.service.connIndex = s.live ∧ s.Silenced)
      ⟨?_, ?_⟩ ?_ h).2
    · rw [hs₀.connIndex, hs₀.live]
    · intro ch u c _ hc
      rw [hs₀.live] at hc
      cases hc
    · intro s t a ⟨hindex, hs⟩ hK hstep
      obtain ⟨-, hrooms, hlive, -⟩ := step_spec hstep
      exact ⟨by rw [hrooms.connIndex_eq, hlive, hindex], hs.step hindex hK hstep⟩
  · obtain ⟨ctx, channelID, body, msgID, rfl⟩ := World.send_of_author hd hauthor
    exact Service.not_banned_of_checkSend
      (World.sent_handleSend ctx channelID body msgID hd hauthor)

theorem silenced_of_run_ban : ∃ s, Run (Steps (step defaultServiceOpts)) RespectsBans oneChannel s ∧
    s.world.service.Banned s.world.clock 7 1 ∧ s.live 10 = some 1 ∧
      10 ∉ s.world.service.subs 7 := by
  have hrun : Run (Steps (step defaultServiceOpts)) RespectsBans oneChannel oneChannel := .refl
  have henter := hrun.get (a := atTime 0 (.sessionEnter 10 (some 1) []))
    (by rintro ch ⟨b, hb, -⟩; cases hb) rfl
  have hban := henter.get (a := atTime 1 (.ban console (some 7) (some 1) 3600000 [] true))
    (by
      intro c hc _
      change Function.update (fun _ => none) 10 (some 1) c = some 1 at hc
      by_cases hcc : c = 10
      · rw [hcc]
        rfl
      · rw [Function.update_of_ne hcc] at hc
        cases hc) (by decide +kernel)
  refine ⟨_, hban, ?_, rfl, (silenced_of_run started_oneChannel hban).1 7 1 10 ?_ rfl⟩
  · decide +kernel
  · decide +kernel

/-- **A banned user who comes back hears the channel again.** -/
theorem enter_unsilences : ∃ s, Run (Steps (step defaultServiceOpts)) Always oneChannel s ∧
    s.live 11 = some 1 ∧ s.world.service.Banned s.world.clock 7 1 ∧
      11 ∈ s.world.service.subs 7 :=
  exists_run (step defaultServiceOpts) Always _
    [atTime 0 (.sessionEnter 10 (some 1) []),
      atTime 1 (.ban console (some 7) (some 1) 3600000 [] true),
      atTime 2 (.sessionEnter 11 (some 1) [])] (by decide +kernel)

end Observed

end Mmokit.Chat
