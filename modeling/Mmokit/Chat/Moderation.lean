/-
The handlers of moderators (`handlers_membership.go`, `handlers_moderation.go`,
`handlers_channel.go` and `handlers_register.go` of `pkg/services/chat`).

A caller moderates a channel with the role of an admin in it, with the global capability, or from
the trusted console.
-/
import Mmokit.Chat.Handlers

namespace Mmokit.Chat

open Service

inductive RoleName
  | empty
  | role (r : Role)
  | other
deriving DecidableEq

def RoleName.orMember : RoleName → Option Role
  | .empty => some .member
  | .role r => some r
  | .other => none

def RoleName.explicit : RoleName → Option Role
  | .role r => some r
  | .empty | .other => none

/-- The channel of a mute: left out for a global mute, or a text that may not parse. -/
inductive MuteScope
  | global
  | channel (channelID : Option ChannelID)
deriving DecidableEq

namespace Service

variable (s : Service) (o : ServiceOpts) (e : Env)

/-! ### Members -/

def checkTarget (ctx : Option OpContext) (channelID : Option ChannelID)
    (userID : Option UserID) : Check (UserID × ChannelID × UserID) := do
  let caller ← s.requireCaller ctx
  let ch ← parseChannel channelID
  let target ← parseUser userID
  s.requireModerator e caller ch
  return (caller, ch, target)

def requireMembers (ch : ChannelID) (message : String) : Check Unit := do
  let c ← s.requireChannel ch
  demand (c.kind ≠ .systemAll) (fail .permissionDenied message)

def checkAddMember (ctx : Option OpContext) (channelID : Option ChannelID)
    (userID : Option UserID) (role : RoleName) : Check (ChannelID × UserID × Role) := do
  let (_, ch, target) ← s.checkTarget e ctx channelID userID
  let role ← found role.orMember (fail .internal "invalid role")
  s.requireMembers ch "cannot mutate system_all members"
  return (ch, target, role)

def checkRemoveMember (ctx : Option OpContext) (channelID : Option ChannelID)
    (userID : Option UserID) : Check (ChannelID × UserID) := do
  let (_, ch, target) ← s.checkTarget e ctx channelID userID
  s.requireMembers ch "cannot mutate system_all members"
  return (ch, target)

def parseUsers : List (Option UserID) → Check (List UserID)
  | [] => .ok []
  | u :: us => do
    let u ← found u (fail .internal "invalid user_id: ")
    let us ← parseUsers us
    return u :: us

def checkBulkSetMembers (ctx : Option OpContext) (channelID : Option ChannelID)
    (userIDs : List (Option UserID)) : Check (ChannelID × List UserID) := do
  let caller ← s.requireCaller ctx
  let ch ← parseChannel channelID
  s.requireModerator e caller ch
  let ids ← parseUsers userIDs
  s.requireMembers ch "cannot mutate system_all members"
  return (ch, ids)

def checkSetMemberRole (ctx : Option OpContext) (channelID : Option ChannelID)
    (userID : Option UserID) (role : RoleName) : Check (ChannelID × UserID × Role) := do
  let (_, ch, target) ← s.checkTarget e ctx channelID userID
  let role ← found role.explicit
    (fail .internal "invalid role (must be 'member' or 'admin')")
  let _ ← s.requireChannel ch
  demand (target ∈ s.membership ch) (fail .notAMember "target is not a member")
  return (ch, target, role)

/-! ### Mutes, kicks and bans -/

def checkMuteScope (caller : UserID) : MuteScope → Check ChannelID
  | .global => do
    requireGlobalAdmin e caller
    return muteGlobalChannelID
  | .channel channelID => do
    let ch ← parseChannel channelID
    let _ ← s.requireChannel ch
    s.requireModerator e caller ch
    return ch

def checkMuteUser (ctx : Option OpContext) (userID : Option UserID) (scope : MuteScope)
    (durationMs : ℤ) : Check (UserID × UserID × ChannelID) := do
  let caller ← s.requireCaller ctx
  let target ← parseUser userID
  demand (0 < durationMs) (fail .internal "duration must be positive")
  let ch ← s.checkMuteScope e caller scope
  return (caller, target, ch)

def checkUnmuteUser (ctx : Option OpContext) (userID : Option UserID) (scope : MuteScope) :
    Check (UserID × ChannelID) := do
  let caller ← s.requireCaller ctx
  let target ← parseUser userID
  let ch ← s.checkMuteScope e caller scope
  return (target, ch)

def checkKick (ctx : Option OpContext) (channelID : Option ChannelID) (userID : Option UserID) :
    Check (UserID × ChannelID × UserID) := do
  let (caller, ch, target) ← s.checkTarget e ctx channelID userID
  s.requireMembers ch "cannot kick from system_all channel"
  return (caller, ch, target)

def checkBan (ctx : Option OpContext) (channelID : Option ChannelID) (userID : Option UserID)
    (durationMs : ℤ) : Check (UserID × ChannelID × UserID) := do
  let caller ← s.requireCaller ctx
  let ch ← parseChannel channelID
  let target ← parseUser userID
  demand (0 < durationMs) (fail .internal "duration must be positive")
  s.requireModerator e caller ch
  s.requireMembers ch "cannot ban from system_all channel"
  return (caller, ch, target)

def checkUnban (ctx : Option OpContext) (channelID : Option ChannelID) (userID : Option UserID) :
    Check (ChannelID × UserID) := do
  let (_, ch, target) ← s.checkTarget e ctx channelID userID
  let _ ← s.requireChannel ch
  return (ch, target)

/-- `time.Now().Add(time.Duration(ms) * time.Millisecond)`; the product is one of `int64`. -/
def expiry (now : Time) (durationMs : ℤ) : Time := now + (durationMs * 1000000).bmod (2 ^ 64)

def checkDeleteMessage (ctx : Option OpContext) (msgID : MsgID) (channelID : Option ChannelID) :
    Check (UserID × ChannelID) := do
  let caller ← s.requireCaller ctx
  let entry ← found ((s.msgIDIndex msgID).filter fun m => e.now ≤ m.expiresAt)
    (fail .messageUnknown "message id unknown or expired")
  demand (channelID = some entry.channelID) (fail .messageUnknown "channel mismatch")
  s.requireModerator e caller entry.channelID
  return (caller, entry.channelID)

def checkBroadcast (ctx : Option OpContext) (channelID : Option ChannelID) (body : Text) :
    Check ChannelID := do
  let caller ← s.requireCaller ctx
  requireGlobalAdmin e caller
  let ch ← parseChannel channelID
  let _ ← s.requireChannel ch
  demand (body.len ≤ o.maxMessageLen) (fail .payloadTooLarge "body exceeds max length")
  return ch

/-! ### Channels -/

def validateSystemSlugFormat (slug : Text) : Bool :=
  slug ≠ [] && slug.count ':' ≤ 1 && slug.all fun r =>
    ('a' ≤ r && r ≤ 'z') || ('0' ≤ r && r ≤ '9') || r = '_' || r = '-' || r = ':'

def checkTopic (topic : Text) : Check Unit :=
  demand (topic.len ≤ o.maxTopicLen) (fail .payloadTooLarge "topic exceeds max length")

def checkRegistered (caller : UserID) (slug : Text) (kind : ChannelKind) (topic : Text) :
    Check Unit := do
  requireGlobalAdmin e caller
  demand (kind = .systemAll ∨ kind = .systemPredicate)
    (fail .internal "invalid kind for register (use system_all or system_predicate)")
  checkSlugLength o slug
  demand (validateSlugFormat slug = true ∨ validateSystemSlugFormat slug = true)
    (fail .reservedSlug "slug must match [a-z0-9_:-]")
  checkTopic o topic

def checkRegister (ctx : Option OpContext) (slug : Text) (kind : ChannelKind) (topic : Text) :
    Check Unit := do
  let caller ← s.requireCaller ctx
  checkRegistered o e caller slug kind topic

def readChannel (channelID : Option ChannelID) : Check (ChannelID × Channel) := do
  let ch ← parseChannel channelID
  let c ← s.requireChannel ch
  return (ch, c)

def checkModify (ctx : Option OpContext) (channelID : Option ChannelID) :
    Check (ChannelID × Channel) := do
  let caller ← s.requireCaller ctx
  let (ch, c) ← s.readChannel channelID
  s.requireModerator e caller ch
  return (ch, c)

def checkRenamed (c : Channel) (newSlug : Text) : Check Unit := do
  demand (c.kind ≠ .systemAll) (fail .permissionDenied "cannot rename system_all channel")
  checkSlugLength o newSlug
  match c.kind with
  | .custom => checkCustomSlug o newSlug
  | .systemPredicate =>
    demand (validateSystemSlugFormat newSlug = true)
      (fail .reservedSlug "slug must match [a-z0-9_:-]")
  | .systemAll | .unspecified => pure ()

def clampSeconds (seconds : ℤ) : ℤ :=
  if seconds < 0 then 0 else if 3600 < seconds then 3600 else seconds

def checkUnregister (ctx : Option OpContext) (channelID : Option ChannelID) :
    Check (ChannelID × Channel) := do
  let caller ← s.requireCaller ctx
  requireGlobalAdmin e caller
  s.readChannel channelID

def commitRename (ch : ChannelID) (c updated : Channel) : Service :=
  { s with
    bySlug := Function.update (Function.update s.bySlug c.slug none) updated.slug (some ch)
    channels := s.channels.insert ch updated }

def commitUpdate (ch : ChannelID) (updated : Channel) : Service :=
  { s with channels := s.channels.insert ch updated }

def commitUnregister (ch : ChannelID) (c : Channel) : Service :=
  { s with
    channels := s.channels.erase ch
    bySlug := Function.update s.bySlug c.slug none
    toRooms := s.toRooms.dropChannel ch }

end Service

namespace World

variable (w : World) (o : ServiceOpts) (e : Env)

def stored (ok : Bool) (message : String) : Check Unit :=
  demand (ok = true) (fail .internal message)

/-- `HandleAddMember`: a new member is announced, a new role as well, and the rest is silent. -/
def handleAddMember (ctx : Option OpContext) (channelID : Option ChannelID)
    (userID : Option UserID) (role : RoleName) (ok : Bool) : Outcome :=
  w.attempt (w.service.checkAddMember e ctx channelID userID role) fun (ch, target, role) =>
    w.attempt (stored ok "add member: ") fun _ =>
      let conn := w.service.online.lookup target
      let s := { w.service with toRooms := w.service.toRooms.addMember ch target role conn }
      w.commit s .done
        (match (w.service.membership ch).lookup target with
        | none =>
          [⟨(s.subs ch).erase (conn.getD 0), .memberJoined ch target (s.usernames target)⟩]
        | some prevRole =>
          if prevRole = role then [] else [⟨s.subs ch, .memberRoleChanged ch target role⟩])

def handleRemoveMember (ctx : Option OpContext) (channelID : Option ChannelID)
    (userID : Option UserID) (ok : Bool) : Outcome :=
  w.attempt (w.service.checkRemoveMember e ctx channelID userID) fun (ch, target) =>
    w.attempt (stored ok "remove member: ") fun _ =>
      let s := { w.service with
        toRooms := w.service.toRooms.dropMember ch target (w.service.online.lookup target) }
      w.commit s .done [⟨s.subs ch, .memberLeft ch target⟩]

def handleBulkSetMembers (ctx : Option OpContext) (channelID : Option ChannelID)
    (userIDs : List (Option UserID)) (ok : Bool) : Outcome :=
  w.attempt (w.service.checkBulkSetMembers e ctx channelID userIDs) fun (ch, ids) =>
    w.attempt (stored ok "bulk set: ") fun _ =>
      let s := { w.service with toRooms := w.service.toRooms.bulkSetMembers ch ids }
      let joined := (w.service.added ch ids).map fun u =>
        Delivery.mk ((w.service.online.lookup u).elim (s.subs ch) fun c => (s.subs ch).erase c)
          (.memberJoined ch u (s.usernames u))
      let left := (w.service.departed ch ids).map fun u =>
        Delivery.mk (s.subs ch) (.memberLeft ch u)
      w.commit s .done (joined ++ left)

def handleSetMemberRole (ctx : Option OpContext) (channelID : Option ChannelID)
    (userID : Option UserID) (role : RoleName) (ok : Bool) : Outcome :=
  w.attempt (w.service.checkSetMemberRole e ctx channelID userID role) fun (ch, target, role) =>
    w.attempt (stored ok "set role: ") fun _ =>
      let s := { w.service with toRooms := w.service.toRooms.setMemberRole ch target role }
      w.commit s .done [⟨s.subs ch, .memberRoleChanged ch target role⟩]

def notify (s : Service) (u : UserID) (event : Event) : List Delivery :=
  (s.online.lookup u).elim [] fun c => [⟨{c}, event⟩]

/-- `HandleMuteUser`; the event of a global mute keeps the sentinel for its channel here. -/
def handleMuteUser (ctx : Option OpContext) (userID : Option UserID) (scope : MuteScope)
    (durationMs : ℤ) (reason : Text) (ok : Bool) : Outcome :=
  w.attempt (w.service.checkMuteUser e ctx userID scope durationMs) fun (caller, target, ch) =>
    w.attempt (stored ok "upsert mute: ") fun _ =>
      let expires := expiry e.now durationMs
      let s := { w.service with
        mutes := Function.update w.service.mutes (target, ch) (some ⟨expires, reason, caller⟩) }
      w.commit s .done (notify s target (.muted ch (milliseconds expires) reason))

def handleUnmuteUser (ctx : Option OpContext) (userID : Option UserID) (scope : MuteScope)
    (ok : Bool) : Outcome :=
  w.attempt (w.service.checkUnmuteUser e ctx userID scope) fun (target, ch) =>
    w.attempt (stored ok "delete mute: ") fun _ =>
      let s := { w.service with mutes := Function.update w.service.mutes (target, ch) none }
      w.commit s .done (notify s target (.unmuted ch))

def handleKick (ctx : Option OpContext) (channelID : Option ChannelID) (userID : Option UserID)
    (reason : Text) (ok : Bool) : Outcome :=
  w.attempt (w.service.checkKick e ctx channelID userID) fun (caller, ch, target) =>
    w.attempt (stored ok "remove member: ") fun _ =>
      let s := { w.service with
        toRooms := w.service.toRooms.dropMember ch target (w.service.online.lookup target) }
      w.commit s .done
        (notify s target (.kicked ch caller reason) ++ [⟨s.subs ch, .memberLeft ch target⟩])

def handleBan (ctx : Option OpContext) (channelID : Option ChannelID) (userID : Option UserID)
    (durationMs : ℤ) (reason : Text) (ok : Bool) : Outcome :=
  w.attempt (w.service.checkBan e ctx channelID userID durationMs) fun (caller, ch, target) =>
    w.attempt (stored ok "set ban: ") fun _ =>
      let entry : BanEntry := ⟨expiry e.now durationMs, caller, reason⟩
      let s := { w.service with toRooms := w.service.toRooms.ban ch target entry }
      w.commit s .done
        (notify s target (.banned ch caller (milliseconds entry.bannedUntil) reason) ++
          [⟨s.subs ch, .memberLeft ch target⟩])

/-- `HandleUnbanFromChannel`: nobody is told, and nobody is subscribed again. -/
def handleUnban (ctx : Option OpContext) (channelID : Option ChannelID) (userID : Option UserID)
    (ok : Bool) : Outcome :=
  w.attempt (w.service.checkUnban e ctx channelID userID) fun (ch, target) =>
    w.attempt (stored ok "clear ban: ") fun _ =>
      w.commit { w.service with toRooms := w.service.toRooms.unban ch target } .done []

def handleDeleteMessage (ctx : Option OpContext) (msgID : MsgID) (channelID : Option ChannelID) :
    Outcome :=
  w.attempt (w.service.checkDeleteMessage e ctx msgID channelID) fun (caller, ch) =>
    w.commit w.service .done (w.service.fanoutEvent ch (.messageDeleted msgID ch caller))

def handleBroadcast (ctx : Option OpContext) (channelID : Option ChannelID) (body : Text)
    (msgID : Option MsgID) : Outcome :=
  w.attempt (w.service.checkBroadcast o e ctx channelID body) fun ch =>
    w.attempt (found msgID (fail .internal "msg_id: ")) fun msgID =>
      let s := w.service.putMessage o e.now msgID ch
      w.commit s .done
        (s.fanoutEvent ch (.message msgID ch none [] body (milliseconds e.now)))

def handleRegister (ctx : Option OpContext) (slug : Text) (kind : ChannelKind) (topic : Text)
    (slowModeSeconds : ℤ) (fresh : ChannelID) (ok : Bool) : Outcome :=
  w.attempt (w.service.checkRegister o e ctx slug kind topic) fun _ =>
    w.upsert ⟨nilUUID, slug, kind, topic, slowModeSeconds, [], nilUUID⟩ fresh ok fun w stored =>
      let s := w.service.putChannel stored
      w.commit s (.channel (s.channelInfo stored)) []

def update (c : Channel) (ok : Bool) (k : World → Outcome) : Outcome :=
  if ok then
    match w.repo.updateChannel c with
    | .error .slugInUse => w.refuse (fail .slugInUse "slug already in use")
    | .error .channelNotFound => w.refuse (fail .channelNotFound "channel not found")
    | .error .other => w.refuse (fail .internal "update: ")
    | .ok repo => k { w with repo := repo }
  else w.refuse (fail .internal "update: ")

def announce (s : Service) (ch : ChannelID) (updated : Channel) : List Delivery :=
  s.fanoutEvent ch (.channelUpdated (s.channelInfo updated))

def handleRename (ctx : Option OpContext) (channelID : Option ChannelID) (newSlug : Text)
    (ok : Bool) : Outcome :=
  w.attempt (w.service.checkModify e ctx channelID) fun (ch, c) =>
    w.attempt (checkRenamed o c newSlug) fun _ =>
      let updated := { c with slug := newSlug }
      w.update updated ok fun w =>
        let s := w.service.commitRename ch c updated
        w.commit s (.channel (s.channelInfo updated)) (announce s ch updated)

def handleSetTopic (ctx : Option OpContext) (channelID : Option ChannelID) (topic : Text)
    (ok : Bool) : Outcome :=
  w.attempt (w.service.checkModify e ctx channelID) fun (ch, c) =>
    w.attempt (checkTopic o topic) fun _ =>
      let updated := { c with topic := topic }
      w.update updated ok fun w =>
        let s := w.service.commitUpdate ch updated
        w.commit s .done (announce s ch updated)

def handleSetSlowMode (ctx : Option OpContext) (channelID : Option ChannelID) (seconds : ℤ)
    (ok : Bool) : Outcome :=
  w.attempt (w.service.checkModify e ctx channelID) fun (ch, c) =>
    let updated := { c with slowModeSeconds := clampSeconds seconds }
    w.update updated ok fun w =>
      let s := w.service.commitUpdate ch updated
      w.commit s .done (announce s ch updated)

def handleUnregister (ctx : Option OpContext) (channelID : Option ChannelID) (ok : Bool) :
    Outcome :=
  w.attempt (w.service.checkUnregister e ctx channelID) fun (ch, c) =>
    w.attempt (stored ok "delete: ") fun _ =>
      let targets :=
        if c.kind = .systemAll then w.service.onlineConns else w.service.subs ch
      let w := { w with repo := w.repo.deleteChannel ch }
      w.commit (w.service.commitUnregister ch c) .done [⟨targets, .channelGone ch⟩]

/-- `reapOnce`, in memory: mutes that have expired go, and so do old message ids. -/
def reapOnce : World :=
  { w with service := { w.service with
      mutes := fun key => (w.service.mutes key).filter fun m => e.now ≤ m.expiresAt
      msgIDIndex := fun id => (w.service.msgIDIndex id).filter fun m => e.now ≤ m.expiresAt } }

end World

end Mmokit.Chat
