/-
Who can speak on a channel (`HandleSend` in `handlers.go`).

`HandleSend` checks the length, the channel, mutes, bans, the rate and the slow mode, but it does
not ask whether the sender is a member.
-/
import Mmokit.Chat.Bans

namespace Mmokit.Chat

open Service

namespace Service

/-- The request is no `send`, or its connection is in the index and belongs to a member of the
channel, or to anyone if the channel is system-wide. -/
def FromMember (s : Service) : Op → Prop
  | .send ctx channelID _ _ => ∃ c u, ctx = some c ∧ s.connIndex c.connID = some u ∧
      ∀ ch channel, channelID = some ch → s.channels.lookup ch = some channel →
        channel.kind = .systemAll ∨ u ∈ s.membership ch
  | _ => True

lemma sender_of_checkSend {s : Service} {o : ServiceOpts} {e : Env} {ctx : Option OpContext}
    {channelID : Option ChannelID} {body : Text} {ch : ChannelID} {u : UserID}
    (h : s.checkSend o e ctx channelID body = .ok (ch, u)) :
    channelID = some ch ∧ (ctx.bind fun ctx => s.connIndex ctx.connID).getD nilUUID = u := by
  obtain ⟨_, -, h⟩ := check_bind.mp h
  obtain ⟨ch', hch, h⟩ := check_bind.mp h
  obtain ⟨c, -, h⟩ := check_bind.mp h
  dsimp only at h
  split at h
  · cases h
  split at h
  · cases h
  · obtain ⟨rfl, rfl⟩ := Prod.mk.inj (check_pure.mp h)
    exact ⟨found_eq_ok.mp hch, rfl⟩

end Service

namespace Observed

/-- The connection is a live one, and its user is a member unless the channel is system-wide. -/
def MaySpeak (s : Observed) (ctx : Option OpContext) (ch : ChannelID) (u : UserID) : Prop :=
  ∃ c, ctx = some c ∧ s.live c.connID = some u ∧
    ∀ channel, s.world.service.channels.lookup ch = some channel →
      channel.kind = .systemAll ∨ u ∈ s.world.service.membership ch

/-- Every message of a user that a request fans out comes from a connection that may speak. -/
def OnlyMembersSpeak (o : ServiceOpts) (s : Observed) (e : Env) (op : Op) : Prop :=
  ∀ d ∈ (s.world.handle o e op).sent, ∀ ch u, d.event.author = some (ch, u) →
    ∃ ctx channelID body msgID, op = .send ctx channelID body msgID ∧ s.MaySpeak ctx ch u

/-- **Who speaks.** After any requests and session events, a request fans out messages of members
only, if it is no `send` or if its connection is one of a member. -/
theorem onlyMembersSpeak_of_run {o : ServiceOpts} {s₀ s : Observed} (hs₀ : s₀.Started)
    (hrun : Run (Steps (step o)) Always s₀ s) (e : Env) {op : Op}
    (hmember : s.world.service.FromMember op) : OnlyMembersSpeak o s e op := by
  intro d hd ch u hauthor
  -- only a `send` has messages of users, and its author is the user of the connection
  obtain ⟨ctx, channelID, body, msgID, rfl⟩ := World.send_of_author hd hauthor
  have hcheck := World.sent_handleSend ctx channelID body msgID hd hauthor
  obtain ⟨hch, hsender⟩ := sender_of_checkSend hcheck
  obtain ⟨c, v, rfl, hconn, hspeak⟩ := hmember
  obtain rfl : v = u := by simpa [hconn] using hsender
  refine ⟨_, channelID, body, msgID, rfl, c, rfl, ?_, fun channel => hspeak ch channel hch⟩
  rw [← connIndex_of_run hs₀ hrun, hconn]

/-- A member enters and speaks. -/
theorem onlyMembersSpeak_of_run_member : ∃ s,
    Run (Steps (step defaultServiceOpts)) Always oneChannel s ∧
      ((s.world.handle defaultServiceOpts (atTime 2 .reap).1
        (.send (some ⟨10, false⟩) (some 7) ['h', 'i'] (some 99))).sent.any fun d =>
          d.event.author = some (7, 1)) = true ∧
      OnlyMembersSpeak defaultServiceOpts s (atTime 2 .reap).1
        (.send (some ⟨10, false⟩) (some 7) ['h', 'i'] (some 99)) := by
  obtain ⟨s, hrun, hconn, hmember, hsent⟩ := exists_run (s := oneChannel)
    (step defaultServiceOpts) Always
    (fun s => s.world.service.connIndex 10 = some 1 ∧ 1 ∈ s.world.service.membership 7 ∧
      ((s.world.handle defaultServiceOpts (atTime 2 .reap).1
        (.send (some ⟨10, false⟩) (some 7) ['h', 'i'] (some 99))).sent.any fun d =>
          d.event.author = some (7, 1)) = true)
    [atTime 0 (.sessionEnter 10 (some 1) [])] (by decide +kernel)
  refine ⟨s, hrun, hsent, onlyMembersSpeak_of_run started_oneChannel hrun _ ?_⟩
  refine ⟨_, 1, rfl, hconn, fun ch channel hch _ => .inr ?_⟩
  exact Option.some.inj hch ▸ hmember

/-- **An outsider speaks**: a user who is online and not a member of the channel. -/
theorem outsider_speaks : ∃ s, Run (Steps (step defaultServiceOpts)) Always oneChannel s ∧
    s.live 12 = some 3 ∧ 3 ∉ s.world.service.membership 7 ∧
      (s.world.service.channels.lookup 7).map Channel.kind = some .custom ∧
      ((s.world.handle defaultServiceOpts (atTime 2 .reap).1
        (.send (some ⟨12, false⟩) (some 7) ['h', 'i'] (some 99))).sent.any fun d =>
          d.event.author = some (7, 3) && 10 ∈ d.targets) = true :=
  exists_run (step defaultServiceOpts) Always _
    [atTime 0 (.sessionEnter 10 (some 1) []), atTime 1 (.sessionEnter 12 (some 3) [])]
    (by decide +kernel)

end Observed

end Mmokit.Chat
