/-
The chat service as a system: requests and session events, one at a time, at times that do not go
back.

What a request can do to the members and the connections is said once, by `RoomsStep`; every
statement about runs goes through it.
-/
import Mmokit.Chat.Moderation
import Mmokit.Library.Runs

namespace Mmokit.Chat

open Function List Service

/-- What clients, the console and the timers ask for. -/
inductive Op
  | sessionEnter (connID : ConnID) (userID : Option UserID) (username : Text)
  | sessionLeave (connID : ConnID)
  | send (ctx : Option OpContext) (channelID : Option ChannelID) (body : Text)
      (msgID : Option MsgID)
  | sendDM (ctx : Option OpContext) (recipient : Option UserID) (body : Text)
      (msgID : Option MsgID)
  | create (ctx : Option OpContext) (slug password topic : Text) (fresh : ChannelID)
      (upserted added : Bool)
  | join (ctx : Option OpContext) (slug password : Text) (ok : Bool)
  | leave (ctx : Option OpContext) (channelID : Option ChannelID) (ok : Bool)
  | addMember (ctx : Option OpContext) (channelID : Option ChannelID) (userID : Option UserID)
      (role : RoleName) (ok : Bool)
  | removeMember (ctx : Option OpContext) (channelID : Option ChannelID) (userID : Option UserID)
      (ok : Bool)
  | bulkSetMembers (ctx : Option OpContext) (channelID : Option ChannelID)
      (userIDs : List (Option UserID)) (ok : Bool)
  | setMemberRole (ctx : Option OpContext) (channelID : Option ChannelID) (userID : Option UserID)
      (role : RoleName) (ok : Bool)
  | muteUser (ctx : Option OpContext) (userID : Option UserID) (scope : MuteScope)
      (durationMs : ℤ) (reason : Text) (ok : Bool)
  | unmuteUser (ctx : Option OpContext) (userID : Option UserID) (scope : MuteScope) (ok : Bool)
  | kick (ctx : Option OpContext) (channelID : Option ChannelID) (userID : Option UserID)
      (reason : Text) (ok : Bool)
  | ban (ctx : Option OpContext) (channelID : Option ChannelID) (userID : Option UserID)
      (durationMs : ℤ) (reason : Text) (ok : Bool)
  | unban (ctx : Option OpContext) (channelID : Option ChannelID) (userID : Option UserID)
      (ok : Bool)
  | deleteMessage (ctx : Option OpContext) (msgID : MsgID) (channelID : Option ChannelID)
  | broadcast (ctx : Option OpContext) (channelID : Option ChannelID) (body : Text)
      (msgID : Option MsgID)
  | register (ctx : Option OpContext) (slug : Text) (kind : ChannelKind) (topic : Text)
      (slowModeSeconds : ℤ) (fresh : ChannelID) (ok : Bool)
  | unregister (ctx : Option OpContext) (channelID : Option ChannelID) (ok : Bool)
  | rename (ctx : Option OpContext) (channelID : Option ChannelID) (newSlug : Text) (ok : Bool)
  | setTopic (ctx : Option OpContext) (channelID : Option ChannelID) (topic : Text) (ok : Bool)
  | setSlowMode (ctx : Option OpContext) (channelID : Option ChannelID) (seconds : ℤ) (ok : Bool)
  | reap

def Op.isSession : Op → Bool
  | .sessionEnter _ (some _) _ => true
  | .sessionLeave _ => true
  | _ => false

namespace World

def handle (o : ServiceOpts) (w : World) (e : Env) : Op → Outcome
  | .sessionEnter connID userID username => w.handleSessionEnter connID userID username
  | .sessionLeave connID => w.handleSessionLeave connID
  | .send ctx channelID body msgID => w.handleSend o e ctx channelID body msgID
  | .sendDM ctx recipient body msgID => w.handleSendDM o e ctx recipient body msgID
  | .create ctx slug password topic fresh upserted added =>
    w.handleCreate o e ctx slug password topic fresh upserted added
  | .join ctx slug password ok => w.handleJoin o e ctx slug password ok
  | .leave ctx channelID ok => w.handleLeave ctx channelID ok
  | .addMember ctx channelID userID role ok => w.handleAddMember e ctx channelID userID role ok
  | .removeMember ctx channelID userID ok => w.handleRemoveMember e ctx channelID userID ok
  | .bulkSetMembers ctx channelID userIDs ok => w.handleBulkSetMembers e ctx channelID userIDs ok
  | .setMemberRole ctx channelID userID role ok =>
    w.handleSetMemberRole e ctx channelID userID role ok
  | .muteUser ctx userID scope durationMs reason ok =>
    w.handleMuteUser e ctx userID scope durationMs reason ok
  | .unmuteUser ctx userID scope ok => w.handleUnmuteUser e ctx userID scope ok
  | .kick ctx channelID userID reason ok => w.handleKick e ctx channelID userID reason ok
  | .ban ctx channelID userID durationMs reason ok =>
    w.handleBan e ctx channelID userID durationMs reason ok
  | .unban ctx channelID userID ok => w.handleUnban e ctx channelID userID ok
  | .deleteMessage ctx msgID channelID => w.handleDeleteMessage e ctx msgID channelID
  | .broadcast ctx channelID body msgID => w.handleBroadcast o e ctx channelID body msgID
  | .register ctx slug kind topic slowModeSeconds fresh ok =>
    w.handleRegister o e ctx slug kind topic slowModeSeconds fresh ok
  | .unregister ctx channelID ok => w.handleUnregister e ctx channelID ok
  | .rename ctx channelID newSlug ok => w.handleRename o e ctx channelID newSlug ok
  | .setTopic ctx channelID topic ok => w.handleSetTopic o e ctx channelID topic ok
  | .setSlowMode ctx channelID seconds ok => w.handleSetSlowMode e ctx channelID seconds ok
  | .reap => ⟨w.reapOnce e, .ok .done, []⟩

def step (o : ServiceOpts) (w : World) (a : Env × Op) : Option World :=
  if w.clock ≤ a.1.now then some { (w.handle o a.1 a.2).world with clock := a.1.now } else none

end World

/-! ### What a request does to members and connections -/

/-- The updates of members and connections, each with the request that does it. -/
inductive RoomsStep (w : World) (now : Time) : Op → Rooms → Prop
  | same {op : Op} (hop : op.isSession = false) : RoomsStep w now op w.service.toRooms
  | enter {c : ConnID} {u : UserID} {name : Text} :
    RoomsStep w now (.sessionEnter c (some u) name) (w.service.enter u c)
  | leaveSession {c : ConnID} : RoomsStep w now (.sessionLeave c) (w.service.leaveSession c)
  | create {ctx : OpContext} {slug password topic : Text} {fresh : ChannelID}
      {upserted added : Bool} {u : UserID} (hu : w.service.connIndex ctx.connID = some u) :
    RoomsStep w now (.create (some ctx) slug password topic fresh upserted added)
      (w.service.addMember (w.repo.upsertID slug fresh) u .admin (some ctx.connID))
  | join {ctx : OpContext} {slug password : Text} {ok : Bool} {u : UserID} {ch : ChannelID}
      (hu : w.service.connIndex ctx.connID = some u) (hban : w.service.banCheck now u ch = none) :
    RoomsStep w now (.join (some ctx) slug password ok)
      (w.service.addMember ch u .member (some ctx.connID))
  | leave {ctx : OpContext} {ch : ChannelID} {ok : Bool} {u : UserID}
      (hu : w.service.connIndex ctx.connID = some u) :
    RoomsStep w now (.leave (some ctx) (some ch) ok)
      (w.service.dropMember ch u (some ctx.connID))
  | addMember {ctx : Option OpContext} {ch : ChannelID} {u : UserID} {role : RoleName} {ok : Bool}
      {r : Role} :
    RoomsStep w now (.addMember ctx (some ch) (some u) role ok)
      (w.service.addMember ch u r (w.service.online.lookup u))
  | removeMember {ctx : Option OpContext} {ch : ChannelID} {u : UserID} {ok : Bool} :
    RoomsStep w now (.removeMember ctx (some ch) (some u) ok)
      (w.service.dropMember ch u (w.service.online.lookup u))
  | bulkSetMembers {ctx : Option OpContext} {ch : ChannelID} {ids : List UserID} {ok : Bool} :
    RoomsStep w now (.bulkSetMembers ctx (some ch) (ids.map some) ok)
      (w.service.bulkSetMembers ch ids)
  | setMemberRole {ctx : Option OpContext} {ch : ChannelID} {u : UserID} {role : RoleName}
      {ok : Bool} {r : Role} (hu : u ∈ w.service.membership ch) :
    RoomsStep w now (.setMemberRole ctx (some ch) (some u) role ok)
      (w.service.setMemberRole ch u r)
  | kick {ctx : Option OpContext} {ch : ChannelID} {u : UserID} {reason : Text} {ok : Bool} :
    RoomsStep w now (.kick ctx (some ch) (some u) reason ok)
      (w.service.dropMember ch u (w.service.online.lookup u))
  | ban {ctx : Option OpContext} {ch : ChannelID} {u by_ : UserID} {durationMs : ℤ}
      {reason : Text} {ok : Bool} (hms : 0 < durationMs) :
    RoomsStep w now (.ban ctx (some ch) (some u) durationMs reason ok)
      (w.service.ban ch u ⟨expiry now durationMs, by_, reason⟩)
  | unban {ctx : Option OpContext} {ch : ChannelID} {u : UserID} {ok : Bool} :
    RoomsStep w now (.unban ctx (some ch) (some u) ok) (w.service.unban ch u)
  | unregister {ctx : Option OpContext} {ch : ChannelID} {ok : Bool} :
    RoomsStep w now (.unregister ctx (some ch) ok) (w.service.dropChannel ch)

/-! The checks, from what they let through. -/

section Checks

variable {α β : Type}

lemma check_bind {x : Check α} {f : α → Check β} {b : β} :
    (x >>= f) = .ok b ↔ ∃ a, x = .ok a ∧ f a = .ok b := by
  cases x with
  | error e =>
    constructor
    · intro h
      cases h
    · rintro ⟨a, h, -⟩
      cases h
  | ok a =>
    constructor
    · exact fun h => ⟨a, rfl, h⟩
    · rintro ⟨a, ha, h⟩
      cases ha
      exact h

lemma check_pure {a b : α} : (pure a : Check α) = .ok b ↔ a = b :=
  ⟨fun h => Except.ok.inj h, fun h => congrArg _ h⟩

variable {e : ErrorBlock}

lemma demand_eq_ok {p : Prop} [Decidable p] {u : Unit} : demand p e = .ok u ↔ p := by
  unfold demand
  split
  · simp [*]
  · simp [*]

lemma found_eq_ok {o : Option α} {a : α} : found o e = .ok a ↔ o = some a := by
  cases o <;> simp [found]

lemma Service.requireOnline_eq_ok {s : Service} {c : ConnID} {u : UserID}
    (h : s.requireOnline c = .ok u) : s.connIndex c = some u := by
  obtain ⟨a, ha, h⟩ := check_bind.mp h
  obtain ⟨-, -, h⟩ := check_bind.mp h
  obtain rfl := check_pure.mp h
  exact found_eq_ok.mp ha

end Checks

/-! What holds of a request that is refused and of one that passes holds of every outcome. -/

section Outcomes

variable {α : Type} {w : World} {P : Outcome → Prop}

lemma World.attempt_induction {check : Check α} {k : α → Outcome} (hrefuse : ∀ e, P (w.refuse e))
    (hk : ∀ a, check = .ok a → P (k a)) : P (w.attempt check k) := by
  cases hcheck : check with
  | error e => exact hrefuse e
  | ok a => exact hk a hcheck

variable {c : Channel} {ok : Bool}

lemma World.upsert_induction {fresh : ChannelID} {k : World → Channel → Outcome}
    (hrefuse : ∀ e, P (w.refuse e))
    (hk : ∀ repo stored, w.repo.upsertChannel c fresh = .ok (repo, stored) →
      P (k { w with repo := repo } stored)) : P (w.upsert c fresh ok k) := by
  unfold World.upsert
  split
  · split
    · exact hrefuse _
    · exact hrefuse _
    · exact hk _ _ ‹_›
  · exact hrefuse _

lemma World.update_induction {k : World → Outcome} (hrefuse : ∀ e, P (w.refuse e))
    (hk : ∀ repo, w.repo.updateChannel c = .ok repo → P (k { w with repo := repo })) :
    P (w.update c ok k) := by
  unfold World.update
  split
  · split
    · exact hrefuse _
    · exact hrefuse _
    · exact hrefuse _
    · exact hk _ ‹_›
  · exact hrefuse _

end Outcomes

lemma Repo.channelID_upsertChannel {r r' : Repo} {c stored : Channel} {fresh : ChannelID}
    (h : r.upsertChannel c fresh = .ok (r', stored)) :
    stored.channelID = r.upsertID c.slug fresh ∧ stored.slug = c.slug := by
  unfold upsertChannel at h
  unfold upsertID
  split at h
  · rename_i id hid
    cases h
    rw [hid]
    exact ⟨rfl, rfl⟩
  · rename_i hid
    split at h
    · cases h
    · cases h
      rw [hid]
      exact ⟨rfl, rfl⟩

@[simp] lemma Service.toRooms_slowModeCheck (s : Service) (now : Time) (ch : ChannelID)
    (u : UserID) : (s.slowModeCheck now ch u).1.toRooms = s.toRooms := by
  unfold slowModeCheck
  split
  · rfl
  split
  · rfl
  dsimp only
  split
  · rfl
  · split <;> rfl

/-! What the checks say about the request. -/

section Requests

variable {s : Service} {o : ServiceOpts} {e : Env} {ctx : Option OpContext}
  {channelID : Option ChannelID} {userID : Option UserID} {caller target : UserID} {ch : ChannelID}

variable {conn : ConnID}

lemma Service.requirePlayer_eq_ok (h : s.requirePlayer ctx = .ok (conn, caller)) :
    ∃ ctx', ctx = some ctx' ∧ ctx'.connID = conn ∧ s.connIndex conn = some caller := by
  obtain ⟨ctx', hctx, h⟩ := check_bind.mp h
  obtain ⟨u, hu, h⟩ := check_bind.mp h
  obtain ⟨rfl, rfl⟩ := Prod.mk.inj (check_pure.mp h)
  exact ⟨ctx', found_eq_ok.mp hctx, rfl, requireOnline_eq_ok hu⟩

variable {c : Channel}

lemma Service.readChannel_eq_ok (h : s.readChannel channelID = .ok (ch, c)) :
    channelID = some ch ∧ s.channels.lookup ch = some c := by
  obtain ⟨ch', hch, h⟩ := check_bind.mp h
  obtain ⟨c', hc, h⟩ := check_bind.mp h
  obtain ⟨rfl, rfl⟩ := Prod.mk.inj (check_pure.mp h)
  exact ⟨found_eq_ok.mp hch, found_eq_ok.mp hc⟩

lemma Service.checkCreate_eq_ok {slug password hash : Text}
    (h : s.checkCreate o e ctx slug password = .ok (conn, caller, hash)) :
    ∃ ctx', ctx = some ctx' ∧ ctx'.connID = conn ∧ s.connIndex conn = some caller := by
  obtain ⟨⟨c, u⟩, hplayer, h⟩ := check_bind.mp h
  simp only [check_bind, check_pure] at h
  obtain ⟨-, -, rfl, rfl, -⟩ := h
  exact requirePlayer_eq_ok hplayer

lemma Service.checkJoin_eq_ok {slug password : Text}
    (h : s.checkJoin o e ctx slug password = .ok (ch, c, conn, caller)) :
    (∃ ctx', ctx = some ctx' ∧ ctx'.connID = conn ∧ s.connIndex conn = some caller) ∧
      s.banCheck e.now caller ch = none := by
  obtain ⟨⟨conn', u⟩, hplayer, h⟩ := check_bind.mp h
  obtain ⟨⟨ch', c'⟩, hjoined, h⟩ := check_bind.mp h
  obtain ⟨rfl, -, rfl, rfl⟩ := h
  simp only [checkJoined, check_bind, check_pure, demand_eq_ok] at hjoined
  obtain ⟨_, -, -, -, -, -, -, hban, -, -, -, -, rfl, -⟩ := hjoined
  exact ⟨requirePlayer_eq_ok hplayer, hban⟩

lemma Service.checkLeave_eq_ok (h : s.checkLeave ctx channelID = .ok (ch, conn, caller)) :
    channelID = some ch ∧ ∃ ctx', ctx = some ctx' ∧ ctx'.connID = conn ∧
      s.connIndex conn = some caller := by
  obtain ⟨ctx', hctx, h⟩ := check_bind.mp h
  obtain ⟨ch', hch, h⟩ := check_bind.mp h
  obtain ⟨u, hu, h⟩ := check_bind.mp h
  simp only [check_bind, check_pure] at h
  obtain ⟨-, -, -, -, -, -, rfl, rfl, rfl⟩ := h
  exact ⟨found_eq_ok.mp hch, ctx', found_eq_ok.mp hctx, rfl, requireOnline_eq_ok hu⟩

lemma Service.checkTarget_eq_ok
    (h : s.checkTarget e ctx channelID userID = .ok (caller, ch, target)) :
    channelID = some ch ∧ userID = some target := by
  obtain ⟨_, _, h⟩ := check_bind.mp h
  obtain ⟨ch', hch, h⟩ := check_bind.mp h
  obtain ⟨u, hu, h⟩ := check_bind.mp h
  simp only [check_bind, check_pure] at h
  obtain ⟨-, -, -, rfl, rfl⟩ := h
  exact ⟨found_eq_ok.mp hch, found_eq_ok.mp hu⟩

variable {userIDs : List (Option UserID)} {ids : List UserID}

lemma Service.parseUsers_eq_ok (h : parseUsers userIDs = .ok ids) : userIDs = ids.map some := by
  induction userIDs generalizing ids with
  | nil =>
    cases h
    rfl
  | cons u us ih =>
    simp only [parseUsers, check_bind, check_pure, found_eq_ok] at h
    obtain ⟨v, rfl, vs, hvs, rfl⟩ := h
    rw [ih hvs, map_cons]

variable {role : RoleName}

lemma Service.checkAddMember_eq_ok {r : Role}
    (h : s.checkAddMember e ctx channelID userID role = .ok (ch, target, r)) :
    channelID = some ch ∧ userID = some target := by
  obtain ⟨⟨_, ch', u⟩, htarget, h⟩ := check_bind.mp h
  simp only [check_bind, check_pure] at h
  obtain ⟨_, -, -, -, rfl, rfl, -⟩ := h
  exact checkTarget_eq_ok htarget

lemma Service.checkRemoveMember_eq_ok
    (h : s.checkRemoveMember e ctx channelID userID = .ok (ch, target)) :
    channelID = some ch ∧ userID = some target := by
  obtain ⟨⟨_, ch', u⟩, htarget, h⟩ := check_bind.mp h
  simp only [check_bind, check_pure] at h
  obtain ⟨-, -, rfl, rfl⟩ := h
  exact checkTarget_eq_ok htarget

lemma Service.checkBulkSetMembers_eq_ok
    (h : s.checkBulkSetMembers e ctx channelID userIDs = .ok (ch, ids)) :
    channelID = some ch ∧ userIDs = ids.map some := by
  obtain ⟨_, _, h⟩ := check_bind.mp h
  obtain ⟨ch', hch, h⟩ := check_bind.mp h
  obtain ⟨_, _, h⟩ := check_bind.mp h
  obtain ⟨ids', hids, h⟩ := check_bind.mp h
  simp only [check_bind, check_pure] at h
  obtain ⟨-, -, rfl, rfl⟩ := h
  exact ⟨found_eq_ok.mp hch, parseUsers_eq_ok hids⟩

lemma Service.checkSetMemberRole_eq_ok {r : Role}
    (h : s.checkSetMemberRole e ctx channelID userID role = .ok (ch, target, r)) :
    channelID = some ch ∧ userID = some target ∧ target ∈ s.membership ch := by
  obtain ⟨⟨_, ch', u⟩, htarget, h⟩ := check_bind.mp h
  simp only [check_bind, check_pure, demand_eq_ok] at h
  obtain ⟨_, -, _, -, -, hmem, rfl, rfl, -⟩ := h
  exact ⟨(checkTarget_eq_ok htarget).1, (checkTarget_eq_ok htarget).2, hmem⟩

lemma Service.checkKick_eq_ok
    (h : s.checkKick e ctx channelID userID = .ok (caller, ch, target)) :
    channelID = some ch ∧ userID = some target := by
  obtain ⟨⟨_, ch', u⟩, htarget, h⟩ := check_bind.mp h
  simp only [check_bind, check_pure] at h
  obtain ⟨-, -, -, rfl, rfl⟩ := h
  exact checkTarget_eq_ok htarget

lemma Service.checkBan_eq_ok {durationMs : ℤ}
    (h : s.checkBan e ctx channelID userID durationMs = .ok (caller, ch, target)) :
    channelID = some ch ∧ userID = some target ∧ 0 < durationMs := by
  obtain ⟨_, _, h⟩ := check_bind.mp h
  obtain ⟨ch', hch, h⟩ := check_bind.mp h
  obtain ⟨u, hu, h⟩ := check_bind.mp h
  obtain ⟨_, hms, h⟩ := check_bind.mp h
  simp only [check_bind, check_pure] at h
  obtain ⟨-, -, -, -, -, rfl, rfl⟩ := h
  exact ⟨found_eq_ok.mp hch, found_eq_ok.mp hu, demand_eq_ok.mp hms⟩

lemma Service.checkUnban_eq_ok
    (h : s.checkUnban e ctx channelID userID = .ok (ch, target)) :
    channelID = some ch ∧ userID = some target := by
  obtain ⟨⟨_, ch', u⟩, htarget, h⟩ := check_bind.mp h
  simp only [check_bind, check_pure] at h
  obtain ⟨_, -, rfl, rfl⟩ := h
  exact checkTarget_eq_ok htarget

lemma Service.checkUnregister_eq_ok (h : s.checkUnregister e ctx channelID = .ok (ch, c)) :
    channelID = some ch := by
  obtain ⟨_, _, h⟩ := check_bind.mp h
  obtain ⟨_, _, h⟩ := check_bind.mp h
  exact (readChannel_eq_ok h).1

end Requests

def Keeps (w : World) (now : Time) (op : Op) (out : Outcome) : Prop :=
  RoomsStep w now op out.world.service.toRooms

namespace World

variable {w : World} {o : ServiceOpts} {e : Env}

lemma keeps_attempt {α : Type} {op : Op} {check : Check α} {k : α → Outcome}
    (hop : op.isSession = false) (hk : ∀ a, check = .ok a → Keeps w e.now op (k a)) :
    Keeps w e.now op (w.attempt check k) :=
  attempt_induction (fun _ => .same hop) hk

lemma keeps_update {op : Op} {c : Channel} {ok : Bool} {k : World → Outcome}
    (hop : op.isSession = false) (hk : ∀ repo, Keeps w e.now op (k { w with repo := repo })) :
    Keeps w e.now op (w.update c ok k) :=
  update_induction (fun _ => .same hop) fun repo _ => hk repo

lemma keeps_handleSend (ctx : Option OpContext) (channelID : Option ChannelID) (body : Text)
    (msgID : Option MsgID) :
    Keeps w e.now (.send ctx channelID body msgID) (w.handleSend o e ctx channelID body msgID) := by
  refine keeps_attempt rfl fun ⟨ch, sender⟩ _ => ?_
  dsimp only
  split
  · exact .same rfl
  have hsame : RoomsStep w e.now (.send ctx channelID body msgID)
      ((w.service.rateLimitTake o e.now sender).1.slowModeCheck e.now ch sender).1.toRooms := by
    rw [toRooms_slowModeCheck]
    exact .same rfl
  split
  · exact hsame
  · exact attempt_induction (fun _ => hsame) fun _ _ => hsame

lemma handle_rooms (w : World) (op : Op) :
    RoomsStep w e.now op (w.handle o e op).world.service.toRooms := by
  cases op with
  | sessionEnter c userID name =>
    cases userID with
    | none => exact .same rfl
    | some u => exact .enter
  | sessionLeave c => exact .leaveSession
  | send ctx channelID body msgID => exact keeps_handleSend ctx channelID body msgID
  | sendDM ctx recipient body msgID =>
    refine keeps_attempt rfl fun ⟨conn, sender, recipient⟩ _ => ?_
    dsimp only
    split
    · exact .same rfl
    · exact attempt_induction (fun _ => .same rfl) fun _ _ => .same rfl
  | create ctx slug password topic fresh upserted added =>
    refine keeps_attempt rfl fun ⟨conn, caller, hash⟩ h => ?_
    obtain ⟨ctx, rfl, rfl, hcaller⟩ := checkCreate_eq_ok h
    refine upsert_induction (fun _ => .same rfl) fun repo stored hstored => ?_
    refine attempt_induction (fun _ => .same rfl) fun _ _ => ?_
    obtain ⟨hid, -⟩ := Repo.channelID_upsertChannel hstored
    change RoomsStep w e.now _ (w.service.addMember stored.channelID caller .admin _)
    rw [hid]
    exact .create hcaller
  | join ctx slug password ok =>
    refine keeps_attempt rfl fun ⟨ch, c, conn, caller⟩ h => keeps_attempt rfl fun _ _ => ?_
    obtain ⟨⟨ctx, rfl, rfl, hcaller⟩, hban⟩ := checkJoin_eq_ok h
    exact .join hcaller hban
  | leave ctx channelID ok =>
    refine keeps_attempt rfl fun ⟨ch, conn, caller⟩ h => keeps_attempt rfl fun _ _ => ?_
    obtain ⟨rfl, ctx, rfl, rfl, hcaller⟩ := checkLeave_eq_ok h
    exact .leave hcaller
  | addMember ctx channelID userID role ok =>
    refine keeps_attempt rfl fun ⟨ch, target, r⟩ h => keeps_attempt rfl fun _ _ => ?_
    obtain ⟨rfl, rfl⟩ := checkAddMember_eq_ok h
    exact .addMember
  | removeMember ctx channelID userID ok =>
    refine keeps_attempt rfl fun ⟨ch, target⟩ h => keeps_attempt rfl fun _ _ => ?_
    obtain ⟨rfl, rfl⟩ := checkRemoveMember_eq_ok h
    exact .removeMember
  | bulkSetMembers ctx channelID userIDs ok =>
    refine keeps_attempt rfl fun ⟨ch, ids⟩ h => keeps_attempt rfl fun _ _ => ?_
    obtain ⟨rfl, rfl⟩ := checkBulkSetMembers_eq_ok h
    exact .bulkSetMembers
  | setMemberRole ctx channelID userID role ok =>
    refine keeps_attempt rfl fun ⟨ch, target, r⟩ h => keeps_attempt rfl fun _ _ => ?_
    obtain ⟨rfl, rfl, hmem⟩ := checkSetMemberRole_eq_ok h
    exact .setMemberRole hmem
  | muteUser ctx userID scope durationMs reason ok =>
    exact keeps_attempt rfl fun ⟨caller, target, ch⟩ _ => keeps_attempt rfl fun _ _ => .same rfl
  | unmuteUser ctx userID scope ok =>
    exact keeps_attempt rfl fun ⟨target, ch⟩ _ => keeps_attempt rfl fun _ _ => .same rfl
  | kick ctx channelID userID reason ok =>
    refine keeps_attempt rfl fun ⟨caller, ch, target⟩ h => keeps_attempt rfl fun _ _ => ?_
    obtain ⟨rfl, rfl⟩ := checkKick_eq_ok h
    exact .kick
  | ban ctx channelID userID durationMs reason ok =>
    refine keeps_attempt rfl fun ⟨caller, ch, target⟩ h => keeps_attempt rfl fun _ _ => ?_
    obtain ⟨rfl, rfl, hms⟩ := checkBan_eq_ok h
    exact .ban hms
  | unban ctx channelID userID ok =>
    refine keeps_attempt rfl fun ⟨ch, target⟩ h => keeps_attempt rfl fun _ _ => ?_
    obtain ⟨rfl, rfl⟩ := checkUnban_eq_ok h
    exact .unban
  | deleteMessage ctx msgID channelID => exact keeps_attempt rfl fun ⟨caller, ch⟩ _ => .same rfl
  | broadcast ctx channelID body msgID =>
    exact keeps_attempt rfl fun ch _ => keeps_attempt rfl fun _ _ => .same rfl
  | register ctx slug kind topic slowModeSeconds fresh ok =>
    exact keeps_attempt rfl fun _ _ => upsert_induction (fun _ => .same rfl) fun _ _ _ => .same rfl
  | unregister ctx channelID ok =>
    refine keeps_attempt rfl fun ⟨ch, c⟩ h => keeps_attempt rfl fun _ _ => ?_
    obtain rfl := checkUnregister_eq_ok h
    exact .unregister
  | rename ctx channelID newSlug ok =>
    exact keeps_attempt rfl fun ⟨ch, c⟩ _ => keeps_attempt rfl fun _ _ =>
      keeps_update rfl fun _ => .same rfl
  | setTopic ctx channelID topic ok =>
    exact keeps_attempt rfl fun ⟨ch, c⟩ _ => keeps_attempt rfl fun _ _ =>
      keeps_update rfl fun _ => .same rfl
  | setSlowMode ctx channelID seconds ok =>
    exact keeps_attempt rfl fun ⟨ch, c⟩ _ => keeps_update rfl fun _ => .same rfl
  | reap => exact .same rfl

end World

/-! ### Messages of users -/

def Event.author : Event → Option (ChannelID × UserID)
  | .message _ ch (some u) _ _ _ => some (ch, u)
  | _ => none

def Outcome.Silent (out : Outcome) : Prop := ∀ d ∈ out.sent, d.event.author = none

namespace World

variable {w : World} {o : ServiceOpts} {e : Env}

lemma silent_refuse (err : ErrorBlock) : (w.refuse err).Silent :=
  fun _ hd => absurd hd not_mem_nil

lemma silent_attempt {α : Type} {check : Check α} {k : α → Outcome} (hk : ∀ a, (k a).Silent) :
    (w.attempt check k).Silent :=
  attempt_induction silent_refuse fun a _ => hk a

variable {s : Service} {ch : ChannelID} {event : Event} {d : Delivery}

lemma event_of_mem_fanoutEvent (h : d ∈ s.fanoutEvent ch event) : d.event = event := by
  unfold fanoutEvent at h
  split at h
  · exact absurd h not_mem_nil
  · rw [mem_singleton.mp h]

variable {reply : Reply}

lemma silent_fanout (h : event.author = none) :
    (w.commit s reply (s.fanoutEvent ch event)).Silent := by
  intro d hd
  rw [event_of_mem_fanoutEvent hd, h]

lemma silent_one {targets : Finset ConnID} (h : event.author = none) :
    (w.commit s reply [⟨targets, event⟩]).Silent := by
  intro d hd
  rw [mem_singleton.mp hd]
  exact h

lemma silent_none : (w.commit s reply []).Silent :=
  fun _ hd => absurd hd not_mem_nil

variable {u : UserID}

lemma silent_notify (h : event.author = none) : ∀ d ∈ notify s u event, d.event.author = none := by
  intro d hd
  unfold notify at hd
  cases hu : s.online.lookup u with
  | none =>
    rw [hu] at hd
    exact absurd hd not_mem_nil
  | some c =>
    rw [hu] at hd
    rw [mem_singleton.mp hd]
    exact h

lemma silent_handle {op : Op}
    (h : ∀ ctx channelID body msgID, op ≠ .send ctx channelID body msgID) :
    (w.handle o e op).Silent := by
  cases op with
  | send ctx channelID body msgID => exact absurd rfl (h ctx channelID body msgID)
  | sessionEnter c userID name =>
    exact silent_attempt fun _ => silent_one rfl
  | sessionLeave c => exact silent_none
  | sendDM ctx recipient body msgID =>
    refine silent_attempt fun ⟨conn, sender, recipient⟩ => ?_
    dsimp only
    split
    · exact silent_refuse _
    refine silent_attempt fun id d hd => ?_
    dsimp only [commit] at hd
    split at hd
    · exact absurd hd not_mem_nil
    · simp only [mem_cons, not_mem_nil, or_false] at hd
      rcases hd with rfl | rfl <;> rfl
  | create ctx slug password topic fresh upserted added =>
    refine silent_attempt fun ⟨conn, caller, hash⟩ => ?_
    refine upsert_induction silent_refuse fun repo stored _ => ?_
    exact silent_attempt fun _ => silent_none
  | join ctx slug password ok =>
    refine silent_attempt fun ⟨ch, c, conn, caller⟩ => ?_
    exact silent_attempt fun _ => silent_one rfl
  | leave ctx channelID ok =>
    refine silent_attempt fun ⟨ch, conn, caller⟩ => ?_
    exact silent_attempt fun _ => silent_one rfl
  | addMember ctx channelID userID role ok =>
    refine silent_attempt fun ⟨ch, target, r⟩ => ?_
    refine silent_attempt fun _ d hd => ?_
    dsimp only [commit] at hd
    split at hd
    · rw [mem_singleton.mp hd]
      rfl
    split at hd
    · exact absurd hd not_mem_nil
    · rw [mem_singleton.mp hd]
      rfl
  | removeMember ctx channelID userID ok =>
    refine silent_attempt fun ⟨ch, target⟩ => ?_
    exact silent_attempt fun _ => silent_one rfl
  | bulkSetMembers ctx channelID userIDs ok =>
    refine silent_attempt fun ⟨ch, ids⟩ => ?_
    refine silent_attempt fun _ d hd => ?_
    rcases mem_append.mp hd with hd | hd
    · obtain ⟨u, -, rfl⟩ := mem_map.mp hd
      rfl
    · obtain ⟨u, -, rfl⟩ := mem_map.mp hd
      rfl
  | setMemberRole ctx channelID userID role ok =>
    refine silent_attempt fun ⟨ch, target, r⟩ => ?_
    exact silent_attempt fun _ => silent_one rfl
  | muteUser ctx userID scope durationMs reason ok =>
    refine silent_attempt fun ⟨caller, target, ch⟩ => ?_
    exact silent_attempt fun _ => silent_notify rfl
  | unmuteUser ctx userID scope ok =>
    refine silent_attempt fun ⟨target, ch⟩ => ?_
    exact silent_attempt fun _ => silent_notify rfl
  | kick ctx channelID userID reason ok =>
    refine silent_attempt fun ⟨caller, ch, target⟩ => ?_
    refine silent_attempt fun _ d hd => ?_
    rcases mem_append.mp hd with hd | hd
    · exact silent_notify rfl d hd
    · rw [mem_singleton.mp hd]
      rfl
  | ban ctx channelID userID durationMs reason ok =>
    refine silent_attempt fun ⟨caller, ch, target⟩ => ?_
    refine silent_attempt fun _ d hd => ?_
    rcases mem_append.mp hd with hd | hd
    · exact silent_notify rfl d hd
    · rw [mem_singleton.mp hd]
      rfl
  | unban ctx channelID userID ok =>
    refine silent_attempt fun ⟨ch, target⟩ => ?_
    exact silent_attempt fun _ => silent_none
  | deleteMessage ctx msgID channelID =>
    exact silent_attempt fun ⟨caller, ch⟩ => silent_fanout rfl
  | broadcast ctx channelID body msgID =>
    refine silent_attempt fun ch => ?_
    exact silent_attempt fun _ => silent_fanout rfl
  | register ctx slug kind topic slowModeSeconds fresh ok =>
    refine silent_attempt fun _ => ?_
    exact upsert_induction silent_refuse fun _ _ _ => silent_none
  | unregister ctx channelID ok =>
    refine silent_attempt fun ⟨ch, c⟩ => ?_
    exact silent_attempt fun _ => silent_one rfl
  | rename ctx channelID newSlug ok =>
    refine silent_attempt fun ⟨ch, c⟩ => ?_
    refine silent_attempt fun _ => ?_
    exact update_induction silent_refuse fun _ _ => silent_fanout rfl
  | setTopic ctx channelID topic ok =>
    refine silent_attempt fun ⟨ch, c⟩ => ?_
    refine silent_attempt fun _ => ?_
    exact update_induction silent_refuse fun _ _ => silent_fanout rfl
  | setSlowMode ctx channelID seconds ok =>
    refine silent_attempt fun ⟨ch, c⟩ => ?_
    exact update_induction silent_refuse fun _ _ => silent_fanout rfl
  | reap => exact fun d hd => absurd hd not_mem_nil

/-- A message of a user passed the checks of `send`. -/
lemma sent_handleSend (ctx : Option OpContext) (channelID : Option ChannelID) (body : Text)
    (msgID : Option MsgID) (hd : d ∈ (w.handleSend o e ctx channelID body msgID).sent)
    (hauthor : d.event.author = some (ch, u)) :
    w.service.checkSend o e ctx channelID body = .ok (ch, u) := by
  revert hd
  refine attempt_induction (P := fun out => d ∈ out.sent → _)
    (fun _ hd => absurd hd not_mem_nil) fun ⟨ch', u'⟩ hcheck => ?_
  dsimp only
  split
  · exact fun hd => absurd hd not_mem_nil
  split
  · exact fun hd => absurd hd not_mem_nil
  refine attempt_induction (P := fun out => d ∈ out.sent → _)
    (fun _ hd => absurd hd not_mem_nil) fun _ _ hd => ?_
  rw [event_of_mem_fanoutEvent hd] at hauthor
  obtain ⟨rfl, rfl⟩ := Prod.mk.inj (Option.some.inj hauthor)
  exact hcheck

lemma send_of_author {op : Op} (hd : d ∈ (w.handle o e op).sent)
    (hauthor : d.event.author = some (ch, u)) :
    ∃ ctx channelID body msgID, op = .send ctx channelID body msgID := by
  by_contra hsend
  have hsilent : (w.handle o e op).Silent := silent_handle
    fun ctx channelID body msgID heq => hsend ⟨ctx, channelID, body, msgID, heq⟩
  rw [hsilent d hd] at hauthor
  cases hauthor

end World

/-! ### The system -/

/-- The service, and which connections have entered and not left, with their users. -/
structure Observed where
  world : World
  live : ConnID → Option UserID

namespace Observed

def track (live : ConnID → Option UserID) : Op → ConnID → Option UserID
  | .sessionEnter c (some u) _ => update live c (some u)
  | .sessionLeave c => update live c none
  | _ => live

def step (o : ServiceOpts) (s : Observed) (a : Env × Op) : Option Observed :=
  (s.world.step o a).map fun w => ⟨w, track s.live a.2⟩

/-- Nobody is connected. -/
structure Started (s : Observed) : Prop where
  live : s.live = fun _ => none
  connIndex : s.world.service.connIndex = fun _ => none
  online : s.world.service.online = ∅
  subs : s.world.service.subs = fun _ => ∅
  members : ∀ ch u, u ∈ s.world.service.membership ch → ch ∈ s.world.service.userChans u

/-! What one step and what a run does to the connections. -/

lemma track_of_not_session {live : ConnID → Option UserID} {op : Op} (h : op.isSession = false) :
    track live op = live := by
  cases op with
  | sessionEnter c userID name =>
    cases userID with
    | none => rfl
    | some u => cases h
  | sessionLeave c => cases h
  | _ => rfl

variable {o : ServiceOpts} {s t : Observed} {a : Env × Op}

lemma step_spec (h : Steps (step o) s a t) : s.world.clock ≤ a.1.now ∧
    RoomsStep s.world a.1.now a.2 t.world.service.toRooms ∧ t.live = track s.live a.2 ∧
      t.world.clock = a.1.now := by
  obtain ⟨w, hw, rfl⟩ := Option.map_eq_some_iff.mp h
  unfold World.step at hw
  split at hw
  · cases hw
    exact ⟨‹_›, World.handle_rooms s.world a.2, rfl, rfl⟩
  · cases hw

end Observed

lemma RoomsStep.connIndex_eq {w : World} {now : Time} {op : Op} {r : Rooms}
    (h : RoomsStep w now op r) : r.connIndex = Observed.track w.service.connIndex op := by
  cases h with
  | same hop => exact (Observed.track_of_not_session hop).symm
  | @leaveSession c =>
    unfold Rooms.leaveSession
    cases hc : w.service.connIndex c with
    | none => exact (Function.update_eq_self_iff.mpr hc.symm).symm
    | some u => rfl
  | _ => rfl

namespace Observed

variable {o : ServiceOpts} {K : Observed → Env × Op → Prop} {s₀ s : Observed}

/-- The index of connections is exact, whatever is requested and whichever requests fail. -/
lemma connIndex_of_run (hs₀ : s₀.Started) (h : Run (Steps (step o)) K s₀ s) :
    s.world.service.connIndex = s.live := by
  refine h.invariant (I := fun s => s.world.service.connIndex = s.live)
    (hs₀.connIndex.trans hs₀.live.symm) fun hindex _ hstep => ?_
  obtain ⟨-, hrooms, hlive, -⟩ := step_spec hstep
  rw [hrooms.connIndex_eq, hindex, hlive]

/-! A small service, for runs on given requests. -/

def defaultServiceOpts : ServiceOpts where
  userRateMax := 5
  userRateWindow := 5000000000
  maxMessageLen := 500
  maxTopicLen := 200
  maxChannelSlugLen := 32
  maxChannelsPerUser := 5
  maxMembersPerCustomChannel := 1000
  minChannelPasswordLen := 4
  msgIDTTL := 300000000000
  reservedSlugPrefixes := [['g', 'u', 'i', 'l', 'd', ':'], ['p', 'a', 'r', 't', 'y', ':'],
    ['a', 'l', 'l', 'i', 'a', 'n', 'c', 'e', ':'], ['r', 'a', 'i', 'd', ':'],
    ['s', 'y', 's', 't', 'e', 'm', ':']]

def oneChannel : Observed where
  world :=
    { service :=
        { membership := update (fun _ => ∅) 7 (AList.singleton 1 .member)
          userChans := update (fun _ => ∅) 1 {7}
          bans := fun _ => none
          online := ∅
          connIndex := fun _ => none
          subs := fun _ => ∅
          channels := AList.singleton 7 ⟨7, ['a'], .custom, [], 0, [], 2⟩
          bySlug := update (fun _ => none) ['a'] (some 7)
          mutes := fun _ => none
          usernames := fun _ => []
          rateBuckets := fun _ => none
          slowMode := fun _ => none
          msgIDIndex := fun _ => none }
      repo := ⟨AList.singleton 7 ⟨7, ['a'], .custom, [], 0, [], 2⟩, {7}⟩
      clock := 0 }
  live := fun _ => none

def atTime (now : Time) (op : Op) : Env × Op := (⟨now, fun _ => false, some, fun _ _ => true⟩, op)

def console : Option OpContext := some ⟨0, true⟩

lemma started_oneChannel : oneChannel.Started where
  live := rfl
  connIndex := rfl
  online := rfl
  subs := rfl
  members := by
    intro ch u h
    by_cases hch : ch = 7
    · subst hch
      obtain rfl : u = 1 := by simpa [oneChannel, AList.mem_keys] using h
      decide
    · have hnone : oneChannel.world.service.membership ch = ∅ := by simp [oneChannel, hch]
      rw [hnone] at h
      exact absurd h (AList.notMem_empty _)

end Observed

end Mmokit.Chat
