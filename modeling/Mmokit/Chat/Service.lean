/-
The state of the chat service (`pkg/services/chat`).

The part of the state that says who is in which channel is `Rooms`; the operations on it here are
the critical sections of the handlers.
-/
import Mathlib.Algebra.GroupWithZero.Nat
import Mathlib.Algebra.Ring.Int.Defs
import Mathlib.Data.Finset.Basic
import Mathlib.Data.List.AList

namespace Mmokit.Chat

open Function

abbrev Text := List Char

def Text.len (t : Text) : ℤ := (t.map Char.utf8Size).sum

abbrev UserID := ℕ
abbrev ChannelID := ℕ
abbrev ConnID := ℕ
abbrev MsgID := ℕ

abbrev Time := ℤ

def nilUUID : ℕ := 0

def systemCallerID : UserID := 2 ^ 128 - 1

def muteGlobalChannelID : ChannelID := nilUUID

inductive ChannelKind
  | unspecified
  | systemAll
  | systemPredicate
  | custom
deriving DecidableEq

inductive Role
  | member
  | admin
deriving DecidableEq

inductive ChatError
  | channelNotFound
  | notAMember
  | muted
  | banned
  | rateLimited
  | slowMode
  | payloadTooLarge
  | invalidPassword
  | messageUnknown
  | permissionDenied
  | reservedSlug
  | slugInUse
  | maxChannelsReached
  | maxMembersReached
  | internal
deriving DecidableEq

structure ErrorBlock where
  errorCode : ChatError
  errorMessage : String
  retryAfterMs : ℤ := 0
deriving DecidableEq

/-- A channel as it is stored. -/
structure Channel where
  channelID : ChannelID
  slug : Text
  kind : ChannelKind
  topic : Text
  slowModeSeconds : ℤ
  passwordHash : Text
  ownerUserID : UserID
deriving DecidableEq

structure BanEntry where
  bannedUntil : Time
  bannedBy : UserID
  reason : Text
deriving DecidableEq

structure Mute where
  expiresAt : Time
  reason : Text
  mutedBy : UserID
deriving DecidableEq

structure TokenBucket where
  tokens : ℤ
  lastFill : Time
  capacity : ℤ
  refillDur : ℤ
deriving DecidableEq

structure MsgIDEntry where
  channelID : ChannelID
  expiresAt : Time
deriving DecidableEq

structure ServiceOpts where
  userRateMax : ℤ
  userRateWindow : ℤ
  maxMessageLen : ℤ
  maxTopicLen : ℤ
  maxChannelSlugLen : ℤ
  maxChannelsPerUser : ℤ
  maxMembersPerCustomChannel : ℤ
  minChannelPasswordLen : ℤ
  msgIDTTL : ℤ
  reservedSlugPrefixes : List Text

structure OpContext where
  connID : ConnID
  systemTrusted : Bool := false
deriving DecidableEq

/-! ### Members and connections -/

/-- Who is where: the part of the service that bans and presence are about. -/
structure Rooms where
  membership : ChannelID → AList (fun _ : UserID => Role)
  userChans : UserID → Finset ChannelID
  bans : ChannelID × UserID → Option BanEntry
  online : AList (fun _ : UserID => ConnID)
  connIndex : ConnID → Option UserID
  subs : ChannelID → Finset ConnID

namespace Rooms

variable (s : Rooms)

/-- `HandleSessionEnter`: the connection is subscribed to the channels of its user. -/
def enter (u : UserID) (c : ConnID) : Rooms :=
  { s with
    online := s.online.insert u c
    connIndex := update s.connIndex c (some u)
    subs := fun ch => if ch ∈ s.userChans u then insert c (s.subs ch) else s.subs ch }

def leaveSession (c : ConnID) : Rooms :=
  match s.connIndex c with
  | none => s
  | some u =>
    { s with
      online := s.online.erase u
      connIndex := update s.connIndex c none
      subs := fun ch => (s.subs ch).erase c }

def addMember (ch : ChannelID) (u : UserID) (role : Role) (conn : Option ConnID) : Rooms :=
  { s with
    membership := update s.membership ch ((s.membership ch).insert u role)
    userChans := update s.userChans u (insert ch (s.userChans u))
    subs := update s.subs ch (conn.elim (s.subs ch) fun c => insert c (s.subs ch)) }

def dropMember (ch : ChannelID) (u : UserID) (conn : Option ConnID) : Rooms :=
  { s with
    membership := update s.membership ch ((s.membership ch).erase u)
    userChans := update s.userChans u ((s.userChans u).erase ch)
    subs := update s.subs ch (conn.elim (s.subs ch) fun c => (s.subs ch).erase c) }

def departed (ch : ChannelID) (ids : List UserID) : List UserID :=
  (s.membership ch).keys.filter fun u => u ∉ ids

def added (ch : ChannelID) (ids : List UserID) : List UserID :=
  ids.filter fun u => u ∉ s.membership ch

/-- `HandleBulkSetMembers`: the subscriptions are built anew from the users who are online. -/
def bulkSetMembers (ch : ChannelID) (ids : List UserID) : Rooms :=
  { s with
    membership := update s.membership ch
      (ids.foldl (fun members u => members.insert u Role.member) ∅)
    userChans := fun u =>
      if u ∈ s.departed ch ids then (s.userChans u).erase ch
      else if u ∈ s.added ch ids then insert ch (s.userChans u)
      else s.userChans u
    subs := update s.subs ch (ids.filterMap fun u => s.online.lookup u).toFinset }

def setMemberRole (ch : ChannelID) (u : UserID) (role : Role) : Rooms :=
  { s with membership := update s.membership ch ((s.membership ch).insert u role) }

/-- `HandleBanFromChannel`: the membership stays, the recorded connection is unsubscribed. -/
def ban (ch : ChannelID) (u : UserID) (entry : BanEntry) : Rooms :=
  { s with
    bans := update s.bans (ch, u) (some entry)
    subs := update s.subs ch
      ((s.online.lookup u).elim (s.subs ch) fun c => (s.subs ch).erase c) }

def unban (ch : ChannelID) (u : UserID) : Rooms :=
  { s with bans := update s.bans (ch, u) none }

/-- `HandleUnregisterChannel`: nothing in memory mentions the channel any more, but for its bans. -/
def dropChannel (ch : ChannelID) : Rooms :=
  { s with
    membership := update s.membership ch ∅
    userChans := fun u => if u ∈ s.membership ch then (s.userChans u).erase ch else s.userChans u
    subs := update s.subs ch ∅ }

def Banned (now : Time) (ch : ChannelID) (u : UserID) : Prop :=
  ∃ b, s.bans (ch, u) = some b ∧ now < b.bannedUntil

end Rooms

/-! ### The service -/

/-- The tables of the service. -/
structure Service extends Rooms where
  channels : AList (fun _ : ChannelID => Channel)
  bySlug : Text → Option ChannelID
  mutes : UserID × ChannelID → Option Mute
  usernames : UserID → Text
  rateBuckets : UserID → Option TokenBucket
  slowMode : ChannelID × UserID → Option Time
  msgIDIndex : MsgID → Option MsgIDEntry

structure ChannelInfo where
  channelID : ChannelID
  slug : Text
  kind : ChannelKind
  topic : Text
  slowModeSeconds : ℤ
  ownerUserID : UserID
  memberCount : ℕ
  hasPassword : Bool
deriving DecidableEq

inductive Event
  | message (msgID : MsgID) (channelID : ChannelID) (sender : Option UserID) (username body : Text)
      (sentAtMs : ℤ)
  | dm (msgID : MsgID) (sender : UserID) (username body : Text) (sentAtMs : ℤ)
  | memberJoined (channelID : ChannelID) (userID : UserID) (username : Text)
  | memberLeft (channelID : ChannelID) (userID : UserID)
  | memberRoleChanged (channelID : ChannelID) (userID : UserID) (role : Role)
  | messageDeleted (msgID : MsgID) (channelID : ChannelID) (deletedBy : UserID)
  | muted (channelID : ChannelID) (untilMs : ℤ) (reason : Text)
  | unmuted (channelID : ChannelID)
  | kicked (channelID : ChannelID) (byUser : UserID) (reason : Text)
  | banned (channelID : ChannelID) (byUser : UserID) (untilMs : ℤ) (reason : Text)
  | channelUpdated (channel : ChannelInfo)
  | channelGone (channelID : ChannelID)
  | channelsHydrated (channels : List ChannelInfo)
deriving DecidableEq

/-- An event and the connections that get it. -/
structure Delivery where
  targets : Finset ConnID
  event : Event
deriving DecidableEq

namespace Service

variable (s : Service)

def milliseconds (d : ℤ) : ℤ := d.tdiv 1000000

def channelInfo (c : Channel) : ChannelInfo where
  channelID := c.channelID
  slug := c.slug
  kind := c.kind
  topic := c.topic
  slowModeSeconds := c.slowModeSeconds
  ownerUserID := c.ownerUserID
  memberCount := (s.membership c.channelID).entries.length
  hasPassword := c.passwordHash ≠ []

def onlineConns : Finset ConnID := (s.online.entries.map Sigma.snd).toFinset

def fanoutEvent (ch : ChannelID) (event : Event) : List Delivery :=
  match s.channels.lookup ch with
  | none => []
  | some c => [⟨if c.kind = .systemAll then s.onlineConns else s.subs ch, event⟩]

def callerFromOpCtx (ctx : OpContext) : UserID :=
  if ctx.systemTrusted then systemCallerID else (s.connIndex ctx.connID).getD nilUUID

def hasGlobalAdmin (capability : UserID → Bool) (u : UserID) : Bool :=
  u = systemCallerID || capability u

def canModerate (capability : UserID → Bool) (u : UserID) (ch : ChannelID) : Bool :=
  hasGlobalAdmin capability u || (s.membership ch).lookup u = some Role.admin

/-! The checks on the way of a message. -/

def muteCheck (now : Time) (u : UserID) (ch : ChannelID) : Option ℤ :=
  [(u, muteGlobalChannelID), (u, ch)].findSome? fun key =>
    match s.mutes key with
    | some m => if now < m.expiresAt then some (m.expiresAt - now) else none
    | none => none

def banCheck (now : Time) (u : UserID) (ch : ChannelID) : Option ℤ :=
  match s.bans (ch, u) with
  | some b => if now < b.bannedUntil then some (b.bannedUntil - now) else none
  | none => none

end Service

/-- `take`: the bucket after the attempt, and how long to wait if it was empty. -/
def TokenBucket.take (b : TokenBucket) (now : Time) : TokenBucket × Option ℤ :=
  if b.capacity ≤ 0 then (b, none)
  else
    let perToken := if b.refillDur.tdiv b.capacity ≤ 0 then 1000000 else b.refillDur.tdiv b.capacity
    let gained := (now - b.lastFill).tdiv perToken
    let b :=
      if 0 < gained then
        { b with tokens := min (b.tokens + gained) b.capacity,
                 lastFill := b.lastFill + gained * perToken }
      else b
    if b.tokens ≤ 0 then (b, some perToken) else ({ b with tokens := b.tokens - 1 }, none)

namespace Service

variable (s : Service)

def rateLimitTake (o : ServiceOpts) (now : Time) (u : UserID) : Service × Option ℤ :=
  let b := (s.rateBuckets u).getD ⟨o.userRateMax, now, o.userRateMax, o.userRateWindow⟩
  let r := b.take now
  ({ s with rateBuckets := update s.rateBuckets u (some r.1) }, r.2)

def slowModeCheck (now : Time) (ch : ChannelID) (u : UserID) : Service × Option ℤ :=
  match s.channels.lookup ch with
  | none => (s, none)
  | some c =>
    if c.slowModeSeconds ≤ 0 then (s, none)
    else
      let gap := c.slowModeSeconds * 1000000000
      let mark := { s with slowMode := update s.slowMode (ch, u) (some now) }
      match s.slowMode (ch, u) with
      | none => (mark, none)
      | some last => if now - last < gap then (s, some (gap - (now - last))) else (mark, none)

end Service

/-! ### The repository -/

structure Repo where
  channels : AList (fun _ : ChannelID => Channel)
  used : Finset ChannelID

inductive RepoError
  | channelNotFound
  | slugInUse
  | other
deriving DecidableEq

namespace Repo

variable (r : Repo)

def idOfSlug (slug : Text) : Option ChannelID :=
  (r.channels.entries.find? fun row => row.2.slug = slug).map Sigma.fst

/-- `UpsertChannel` of a channel without an id: a row with its slug is overwritten and keeps its
id. -/
def upsertChannel (c : Channel) (fresh : ChannelID) : Except RepoError (Repo × Channel) :=
  match r.idOfSlug c.slug with
  | some id =>
    let c := { c with channelID := id }
    .ok ({ r with channels := r.channels.insert id c }, c)
  | none =>
    if fresh ∈ r.used then .error .other
    else
      let c := { c with channelID := fresh }
      .ok ({ channels := r.channels.insert fresh c, used := insert fresh r.used }, c)

def upsertID (slug : Text) (fresh : ChannelID) : ChannelID := (r.idOfSlug slug).getD fresh

def updateChannel (c : Channel) : Except RepoError Repo :=
  if c.channelID ∈ r.channels then
    if r.channels.entries.any fun row => row.1 ≠ c.channelID && row.2.slug = c.slug then
      .error .slugInUse
    else .ok { r with channels := r.channels.insert c.channelID c }
  else .error .channelNotFound

/-- `DeleteChannel`; a row that is gone already is no error for the service. -/
def deleteChannel (id : ChannelID) : Repo := { r with channels := r.channels.erase id }

end Repo

end Mmokit.Chat
