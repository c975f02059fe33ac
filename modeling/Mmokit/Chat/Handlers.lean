/-
The handlers of players and of the gateway (`pkg/services/chat/handlers.go`).

A handler checks its request against the state in memory, writes through to the repository and then
changes the state in memory in one critical section. The checks are `check…` here and return the
error of the first one that fails; the critical sections are `commit…`.
-/
import Mmokit.Chat.Service

namespace Mmokit.Chat

open Service

/-- What a request finds outside of the service: the clock, the capability cache, and the password
functions. -/
structure Env where
  now : Time
  capability : UserID → Bool
  hashPassword : Text → Option Text
  verifyPassword : Text → Text → Bool

/-- The service, its repository and the time. -/
structure World where
  service : Service
  repo : Repo
  clock : Time

inductive Reply
  | done
  | channel (info : ChannelInfo)
  | message (msgID : MsgID) (sentAtMs : ℤ)
deriving DecidableEq

structure Outcome where
  world : World
  reply : Except ErrorBlock Reply
  sent : List Delivery

abbrev Check := Except ErrorBlock

def fail (code : ChatError) (message : String) : ErrorBlock := ⟨code, message, 0⟩

def demand (p : Prop) [Decidable p] (e : ErrorBlock) : Check Unit := if p then .ok () else .error e

def found {α : Type} (o : Option α) (e : ErrorBlock) : Check α := o.elim (.error e) .ok

namespace World

def refuse (w : World) (e : ErrorBlock) : Outcome := ⟨w, .error e, []⟩

def attempt {α : Type} (w : World) (check : Check α) (k : α → Outcome) : Outcome :=
  match check with
  | .error e => w.refuse e
  | .ok a => k a

def commit (w : World) (s : Service) (reply : Reply) (sent : List Delivery) : Outcome :=
  ⟨{ w with service := s }, .ok reply, sent⟩

end World

/-! ### Who asks -/

namespace Service

variable (s : Service)

def notOnline : ErrorBlock := fail .permissionDenied "not online"

def requireContext (ctx : Option OpContext) : Check OpContext :=
  found ctx (fail .internal "missing op context")

def requireOnline (connID : ConnID) : Check UserID := do
  let caller ← found (s.connIndex connID) notOnline
  demand (caller ≠ nilUUID) notOnline
  return caller

def requirePlayer (ctx : Option OpContext) : Check (ConnID × UserID) := do
  let ctx ← requireContext ctx
  let caller ← s.requireOnline ctx.connID
  return (ctx.connID, caller)

def requireCaller (ctx : Option OpContext) : Check UserID := do
  let ctx ← requireContext ctx
  demand (s.callerFromOpCtx ctx ≠ nilUUID) notOnline
  return s.callerFromOpCtx ctx

def parseChannel (channelID : Option ChannelID) : Check ChannelID :=
  found channelID (fail .channelNotFound "invalid channel_id")

def parseUser (userID : Option UserID) : Check UserID :=
  found userID (fail .internal "invalid user_id")

def requireChannel (ch : ChannelID) : Check Channel :=
  found (s.channels.lookup ch) (fail .channelNotFound "channel not found")

def requireModerator (e : Env) (caller : UserID) (ch : ChannelID) : Check Unit :=
  demand (s.canModerate e.capability caller ch = true) (fail .permissionDenied "denied")

def requireGlobalAdmin (e : Env) (caller : UserID) : Check Unit :=
  demand (hasGlobalAdmin e.capability caller = true) (fail .permissionDenied "denied")

/-! ### Messages -/

/-- The checks of `HandleSend` that change nothing: the channel and the sender. A connection that is
not known sends as `uuid.Nil`. -/
def checkSend (o : ServiceOpts) (e : Env) (ctx : Option OpContext) (channelID : Option ChannelID)
    (body : Text) : Check (ChannelID × UserID) := do
  demand (body.len ≤ o.maxMessageLen) (fail .payloadTooLarge "body exceeds max length")
  let ch ← parseChannel channelID
  let _ ← s.requireChannel ch
  let sender := (ctx.bind fun ctx => s.connIndex ctx.connID).getD nilUUID
  match s.muteCheck e.now sender ch with
  | some retry => throw ⟨.muted, "muted", milliseconds retry⟩
  | none =>
    match s.banCheck e.now sender ch with
    | some retry => throw ⟨.banned, "banned", milliseconds retry⟩
    | none => return (ch, sender)

def putMessage (o : ServiceOpts) (now : Time) (msgID : MsgID) (ch : ChannelID) : Service :=
  { s with msgIDIndex := Function.update s.msgIDIndex msgID (some ⟨ch, now + o.msgIDTTL⟩) }

end Service

namespace World

variable (w : World) (o : ServiceOpts) (e : Env)

def handleSend (ctx : Option OpContext) (channelID : Option ChannelID) (body : Text)
    (msgID : Option MsgID) : Outcome :=
  w.attempt (w.service.checkSend o e ctx channelID body) fun (ch, sender) =>
    -- A token and the slow mode are used up even if a later check fails.
    let rate := w.service.rateLimitTake o e.now sender
    let w := { w with service := rate.1 }
    match rate.2 with
    | some retry => w.refuse ⟨.rateLimited, "rate limited", milliseconds retry⟩
    | none =>
      let slow := w.service.slowModeCheck e.now ch sender
      let w := { w with service := slow.1 }
      match slow.2 with
      | some retry => w.refuse ⟨.slowMode, "slow mode active", milliseconds retry⟩
      | none =>
        w.attempt (found msgID (fail .internal "msg_id: ")) fun msgID =>
          let s := w.service.putMessage o e.now msgID ch
          let now := milliseconds e.now
          w.commit s (.message msgID now)
            (s.fanoutEvent ch (.message msgID ch (some sender) (s.usernames sender) body now))

def checkSendDM (ctx : Option OpContext) (recipient : Option UserID) (body : Text) :
    Check (ConnID × UserID × UserID) := do
  let ctx ← requireContext ctx
  demand (body.len ≤ o.maxMessageLen) (fail .payloadTooLarge "body exceeds max length")
  let recipient ← found recipient (fail .internal "invalid recipient_user_id")
  let sender ← w.service.requireOnline ctx.connID
  match w.service.muteCheck e.now sender muteGlobalChannelID with
  | some retry => throw ⟨.muted, "muted", milliseconds retry⟩
  | none => return (ctx.connID, sender, recipient)

/-- `HandleSendDM`: a recipient who is offline gets nothing, and neither does the sender. -/
def handleSendDM (ctx : Option OpContext) (recipient : Option UserID) (body : Text)
    (msgID : Option MsgID) : Outcome :=
  w.attempt (w.checkSendDM o e ctx recipient body) fun (connID, sender, recipient) =>
    let rate := w.service.rateLimitTake o e.now sender
    let w := { w with service := rate.1 }
    match rate.2 with
    | some retry => w.refuse ⟨.rateLimited, "rate limited", milliseconds retry⟩
    | none =>
      w.attempt (found msgID (fail .internal "msg_id: ")) fun msgID =>
        let now := milliseconds e.now
        let event := Event.dm msgID sender (w.service.usernames sender) body now
        w.commit w.service (.message msgID now)
          (match w.service.online.lookup recipient with
          | none => []
          | some conn => [⟨{conn}, event⟩, ⟨{connID}, event⟩])

end World

/-! ### Channels of players -/

def validateSlugFormat (slug : Text) : Bool :=
  slug ≠ [] && slug.all fun r =>
    ('a' ≤ r && r ≤ 'z') || ('0' ≤ r && r ≤ '9') || r = '_' || r = '-'

namespace Service

variable (s : Service) (o : ServiceOpts) (e : Env)

def checkCustomSlug (slug : Text) : Check Unit := do
  demand (validateSlugFormat slug = true) (fail .reservedSlug "slug must match [a-z0-9_-]")
  demand (o.reservedSlugPrefixes.all (fun p => !p.isPrefixOf slug) = true)
    (fail .reservedSlug "slug uses reserved prefix")

def checkSlugLength (slug : Text) : Check Unit := do
  demand (slug ≠ []) (fail .reservedSlug "empty slug")
  demand (slug.len ≤ o.maxChannelSlugLen) (fail .reservedSlug "slug exceeds max length")

def ownedChannels (u : UserID) : ℕ :=
  (s.channels.entries.filter fun row => row.2.kind = .custom ∧ row.2.ownerUserID = u).length

def hashOf (password : Text) : Check Text :=
  if password = [] then .ok [] else found (e.hashPassword password) (fail .internal "hash: ")

def checkNewChannel (caller : UserID) (slug password : Text) : Check Text := do
  checkSlugLength o slug
  checkCustomSlug o slug
  demand (password = [] ∨ o.minChannelPasswordLen ≤ password.len)
    (fail .invalidPassword "password too short")
  demand (s.ownedChannels caller < o.maxChannelsPerUser)
    (fail .maxChannelsReached "max channels reached")
  hashOf e password

def checkCreate (ctx : Option OpContext) (slug password : Text) :
    Check (ConnID × UserID × Text) := do
  let (conn, caller) ← s.requirePlayer ctx
  let hash ← s.checkNewChannel o e caller slug password
  return (conn, caller, hash)

def putChannel (c : Channel) : Service :=
  { s with channels := s.channels.insert c.channelID c,
           bySlug := Function.update s.bySlug c.slug (some c.channelID) }

def commitCreate (stored : Channel) (caller : UserID) (conn : ConnID) : Service :=
  { s.putChannel stored with
    toRooms := s.toRooms.addMember stored.channelID caller .admin (some conn) }

def checkJoined (caller : UserID) (slug password : Text) : Check (ChannelID × Channel) := do
  let ch ← found (s.bySlug slug) (fail .channelNotFound "channel not found")
  let c ← s.requireChannel ch
  demand (c.kind = .custom) (fail .permissionDenied "cannot join system channel")
  demand (s.banCheck e.now caller ch = none) (fail .banned "user is banned")
  demand (c.passwordHash = [] ∨ e.verifyPassword password c.passwordHash = true)
    (fail .invalidPassword "invalid password")
  demand ((s.membership ch).entries.length < o.maxMembersPerCustomChannel)
    (fail .maxMembersReached "channel full")
  return (ch, c)

def checkJoin (ctx : Option OpContext) (slug password : Text) :
    Check (ChannelID × Channel × ConnID × UserID) := do
  let (conn, caller) ← s.requirePlayer ctx
  let (ch, c) ← s.checkJoined o e caller slug password
  return (ch, c, conn, caller)

def commitJoin (ch : ChannelID) (caller : UserID) (conn : ConnID) : Service :=
  { s with toRooms := s.toRooms.addMember ch caller .member (some conn) }

def checkLeave (ctx : Option OpContext) (channelID : Option ChannelID) :
    Check (ChannelID × ConnID × UserID) := do
  let ctx ← requireContext ctx
  let ch ← parseChannel channelID
  let caller ← s.requireOnline ctx.connID
  let c ← s.requireChannel ch
  demand (c.kind ≠ .systemAll) (fail .permissionDenied "cannot leave system channel")
  demand (((s.membership ch).lookup caller).isSome = true) (fail .notAMember "not a member")
  return (ch, ctx.connID, caller)

end Service

namespace World

variable (w : World) (o : ServiceOpts) (e : Env)

def upsert (c : Channel) (fresh : ChannelID) (stored : Bool) (k : World → Channel → Outcome) :
    Outcome :=
  if stored then
    match w.repo.upsertChannel c fresh with
    | .error .slugInUse => w.refuse (fail .slugInUse "slug already in use")
    | .error _ => w.refuse (fail .internal "upsert: ")
    | .ok (repo, c) => k { w with repo := repo } c
  else w.refuse (fail .internal "upsert: ")

def handleCreate (ctx : Option OpContext) (slug password topic : Text) (fresh : ChannelID)
    (upserted added : Bool) : Outcome :=
  w.attempt (w.service.checkCreate o e ctx slug password) fun (conn, caller, hash) =>
    w.upsert ⟨nilUUID, slug, .custom, topic, 0, hash, caller⟩ fresh upserted fun w stored =>
      w.attempt (demand (added = true) (fail .internal "add member: ")) fun _ =>
        let s := w.service.commitCreate stored caller conn
        w.commit s (.channel (s.channelInfo stored)) []

def handleJoin (ctx : Option OpContext) (slug password : Text) (stored : Bool) : Outcome :=
  w.attempt (w.service.checkJoin o e ctx slug password) fun (ch, c, conn, caller) =>
    w.attempt (demand (stored = true) (fail .internal "add member: ")) fun _ =>
      let s := w.service.commitJoin ch caller conn
      w.commit s (.channel (s.channelInfo c))
        [⟨(s.subs ch).erase conn, .memberJoined ch caller (s.usernames caller)⟩]

def handleLeave (ctx : Option OpContext) (channelID : Option ChannelID) (stored : Bool) :
    Outcome :=
  w.attempt (w.service.checkLeave ctx channelID) fun (ch, conn, caller) =>
    w.attempt (demand (stored = true) (fail .internal "remove member: ")) fun _ =>
      let s := { w.service with toRooms := w.service.toRooms.dropMember ch caller (some conn) }
      w.commit s .done [⟨(s.subs ch).erase conn, .memberLeft ch caller⟩]

/-! ### Sessions -/

def hydration (s : Service) (u : UserID) : List ChannelInfo :=
  (s.channels.entries.filter fun row =>
    row.2.kind = .systemAll || ((s.membership row.2.channelID).lookup u).isSome).map
      fun row => s.channelInfo row.2

def handleSessionEnter (connID : ConnID) (userID : Option UserID) (username : Text) : Outcome :=
  w.attempt (parseUser userID) fun u =>
    let s := { w.service with
      toRooms := w.service.toRooms.enter u connID
      usernames := Function.update w.service.usernames u username }
    w.commit s .done [⟨{connID}, .channelsHydrated (hydration s u)⟩]

def handleSessionLeave (connID : ConnID) : Outcome :=
  w.commit { w.service with toRooms := w.service.toRooms.leaveSession connID } .done []

end World

end Mmokit.Chat
