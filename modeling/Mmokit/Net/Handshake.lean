/-
The handshake of the UDP server (`pkg/net/udp_server.go`, `udp_cookie.go`, `udp_keys.go`) and the
traffic keys of its sessions (`pkg/net/udpcrypto`).

The server answers a request with a salt and a cookie and keeps nothing. A peer that sends the
cookie back from the same address, and names a key that has not expired, gets a session.

The cryptography is ideal. A cookie is as good as what it is the MAC of, a derived key as good as
the master key and the salts, and a packet can be opened only with the key it was sealed with.
-/
import Mathlib.Data.List.AList
import Mmokit.Net.ReceiveWindow

namespace Mmokit.UDP

open Function List Option

structure AddrPort where
  addr : BitVec 128
  port : UInt16
deriving DecidableEq

/-! ### Cookies -/

def cookieSlot : ℕ := 15000000000

def slotOf (now : ℕ) : ℤ := (now / cookieSlot : ℕ)

structure Cookie where
  addr : AddrPort
  clientSalt : UInt64
  serverSalt : UInt64
  slot : ℤ
deriving DecidableEq

def mint (ap : AddrPort) (clientSalt serverSalt : UInt64) (now : ℕ) : Cookie :=
  ⟨ap, clientSalt, serverSalt, slotOf now⟩

/-- `Verify`; `none` stands for bytes that are no cookie at all. -/
def verify (cookie : Option Cookie) (ap : AddrPort) (clientSalt serverSalt : UInt64)
    (now : ℕ) : Bool :=
  cookie == some ⟨ap, clientSalt, serverSalt, slotOf now⟩ ||
    cookie == some ⟨ap, clientSalt, serverSalt, slotOf now - 1⟩

structure Accept where
  addr : AddrPort
  clientSalt : UInt64
  serverSalt : UInt64
  sentAt : ℕ
deriving DecidableEq

def Accept.cookie (a : Accept) : Cookie := mint a.addr a.clientSalt a.serverSalt a.sentAt

/-! ### Keys -/

/-- A key of the registry. -/
structure UDPKeyEntry where
  key : ℕ
  expiresAt : ℕ
deriving DecidableEq

abbrev UDPKeyRegistry := UInt64 → Option UDPKeyEntry

def UDPKeyRegistry.lookup (r : UDPKeyRegistry) (id : UInt64) (now : ℕ) :
    Option UDPKeyEntry × UDPKeyRegistry :=
  match r id with
  | none => (none, r)
  | some e => if now < e.expiresAt then (some e, r) else (none, update r id none)

/-- What the keys of the two directions are derived from: one for what a session has sealed and one
for what it has opened. -/
structure TrafficKey where
  master : ℕ
  clientSalt : UInt64
  serverSalt : UInt64
deriving DecidableEq

/-- What a sealed packet is. -/
inductive PacketType
  | unreliable
  | reliable (seq : UInt16)
  | ack
  | disconnect
deriving DecidableEq

/-- The header of a sealed packet, which is authenticated together with the body. -/
structure Header where
  type : PacketType
  token : UInt32
  counter : ℕ
deriving DecidableEq

/-- A packet that was sealed under `key`; the nonce is the counter of its header. -/
structure Sealed where
  key : TrafficKey
  header : Header
  body : Payload
deriving DecidableEq

/-- What must not be used twice. -/
def Sealed.nonce (p : Sealed) : TrafficKey × ℕ := (p.key, p.header.counter)

/-- The keys of a session and what was sealed with them. -/
structure Session where
  key : TrafficKey
  sendCtr : ℕ := 0
  win : ReplayWindow := ⟨0, 0⟩
  sealed : List Sealed := []
  opened : List Sealed := []
deriving DecidableEq

namespace Session

variable (s : Session)

/-- `SealWithHeader`. The counter goes on also when it is exhausted. -/
def sealPacket (type : PacketType) (token : UInt32) (body : Payload) : Session :=
  let ctr := (s.sendCtr + 1) % 2 ^ 64
  { s with
    sendCtr := ctr
    sealed :=
      if maxCounter < ctr then s.sealed else ⟨s.key, ⟨type, token, ctr⟩, body⟩ :: s.sealed }

/-- `Open` of a packet that came with the given header. -/
def openPacket (header : Header) (p : Sealed) : Option Session :=
  if header.counter ≠ 0 ∧ s.win.check header.counter = true ∧ p.key = s.key ∧ p.header = header then
    some { s with win := s.win.commit header.counter, opened := p :: s.opened }
  else none

end Session

/-! ### The server -/

structure UDPTransport where
  addr : AddrPort
  token : UInt32
  clientSalt : UInt64
  serverSalt : UInt64
  crypto : Session
  closed : Bool := false
deriving DecidableEq

/-- The server. A transport is known by a number, which is given out once. -/
structure UDPServer where
  keys : Option UDPKeyRegistry
  maxConnections : ℕ
  clock : ℕ
  transports : ℕ → Option UDPTransport := fun _ => none
  nextTransport : ℕ := 0
  byToken : AList (fun _ : UInt32 => ℕ) := ∅
  byAddr : AddrPort → Option ℕ := fun _ => none
  connIDs : ℕ → Option ℕ := fun _ => none
  accepts : List Accept := []
  proven : List AddrPort := []

def makeToken (clientSalt serverSalt : UInt64) : UInt32 :=
  let combined := clientSalt ^^^ serverSalt
  combined.toUInt32 ^^^ (combined >>> 32).toUInt32

/-- A datagram. A sealed packet comes with a header, which may not be the one it was sealed with. -/
inductive Datagram
  | connReq (clientSalt : UInt64)
  | connConfirm (keyID clientSalt serverSalt : UInt64) (cookie : Option Cookie)
  | packet (header : Header) (p : Sealed)
  | malformed

namespace UDPServer

variable (s : UDPServer)

def routeFor (token : UInt32) (ap : AddrPort) : Option (ℕ × UDPTransport) :=
  (s.byToken.lookup token).bind fun t =>
    (s.transports t).bind fun tr => if tr.addr = ap then some (t, tr) else none

/-- The transport that a packet is routed to and opens, with its session afterwards. -/
def receive (header : Header) (ap : AddrPort) (p : Sealed) : Option (ℕ × UDPTransport) :=
  (s.routeFor header.token ap).bind fun r =>
    (r.2.crypto.openPacket header p).map fun crypto => (r.1, { r.2 with crypto })

def setTransport (t : ℕ) (tr : UDPTransport) : UDPServer :=
  { s with transports := update s.transports t (some tr) }

def forgetTransport (t : ℕ) (tr : UDPTransport) : UDPServer :=
  { s with
    byToken := if s.byToken.lookup tr.token = some t then s.byToken.erase tr.token else s.byToken
    byAddr := if s.byAddr tr.addr = some t then update s.byAddr tr.addr none else s.byAddr
    connIDs := update s.connIDs t none }

/-- `UDPTransport.Close`: the first time, the session is forgotten and a Disconnect is sealed. -/
def close (t : ℕ) (tr : UDPTransport) : UDPServer :=
  if tr.closed then s
  else (s.forgetTransport t tr).setTransport t
    { tr with closed := true, crypto := tr.crypto.sealPacket .disconnect tr.token [] }

def removeTransport (t : ℕ) (tr : UDPTransport) : UDPServer :=
  (s.forgetTransport t tr).close t tr

def promoteConfirmed (token : UInt32) (ap : AddrPort) (clientSalt serverSalt : UInt64)
    (sess : Session) (connID : ℕ) : UDPServer :=
  if (s.byToken.lookup token).isSome ∨ s.maxConnections ≤ s.byToken.keys.length then s
  else
    let t := s.nextTransport
    { s with
      transports := update s.transports t (some ⟨ap, token, clientSalt, serverSalt, sess, false⟩)
      nextTransport := t + 1
      byToken := s.byToken.insert token t
      byAddr := update s.byAddr ap (some t)
      connIDs := update s.connIDs t (some connID) }

def handleConnReq (clientSalt : UInt64) (ap : AddrPort) (salt : UInt64) : UDPServer :=
  let accept : Accept := match (s.byAddr ap).bind s.transports with
    | some tr => ⟨ap, tr.clientSalt, tr.serverSalt, s.clock⟩
    | none => ⟨ap, clientSalt, salt, s.clock⟩
  { s with accepts := accept :: s.accepts }

def handleConnConfirm (keyID clientSalt serverSalt : UInt64) (cookie : Option Cookie)
    (ap : AddrPort) (connID : ℕ) : UDPServer :=
  if verify cookie ap clientSalt serverSalt s.clock then
    match s.keys with
    | none => s
    | some keys =>
      let r := keys.lookup keyID s.clock
      match r.1 with
      | none => { s with keys := some r.2 }
      | some entry =>
        { s with keys := some r.2, proven := ap :: s.proven }.promoteConfirmed
          (makeToken clientSalt serverSalt) ap clientSalt serverSalt
          { key := ⟨entry.key, clientSalt, serverSalt⟩ } connID
  else s

def dispatch (ap : AddrPort) (salt : UInt64) (connID : ℕ) : Datagram → UDPServer
  | .connReq clientSalt => s.handleConnReq clientSalt ap salt
  | .connConfirm keyID clientSalt serverSalt cookie =>
    s.handleConnConfirm keyID clientSalt serverSalt cookie ap connID
  | .packet header p => (s.receive header ap p).elim s fun r =>
    match header.type with
    | .disconnect => (s.setTransport r.1 r.2).removeTransport r.1 r.2
    | _ => s.setTransport r.1 r.2
  | .malformed => s

end UDPServer

/-- What happens to the server: a datagram, a packet that a transport sends, a kick or a logout
(`ConnManager.Remove`), a session that times out or is out of retries, another registry. -/
inductive ServerEvent
  | packet (ap : AddrPort) (d : Datagram) (salt : UInt64) (connID : ℕ)
  | transmit (t : ℕ) (type : PacketType) (body : Payload)
  | close (t : ℕ)
  | timeout (t : ℕ)
  | setKeys (keys : Option UDPKeyRegistry)

namespace UDPServer

def handle (s : UDPServer) : ServerEvent → UDPServer
  | .packet ap d salt connID => s.dispatch ap salt connID d
  | .transmit t type body => ((s.transports t).map fun tr =>
    s.setTransport t { tr with crypto := tr.crypto.sealPacket type tr.token body }).getD s
  | .close t => ((s.transports t).map (s.close t)).getD s
  | .timeout t => ((s.transports t).map (s.removeTransport t)).getD s
  | .setKeys keys => { s with keys }

def step (s : UDPServer) (e : ℕ × ServerEvent) : Option UDPServer :=
  if s.clock ≤ e.1 then some ({ s with clock := e.1 }.handle e.2) else none

/-- An ideal MAC: a cookie that is presented was sent in an accept before. -/
def unforged (s : UDPServer) : ℕ × ServerEvent → Bool
  | (_, .packet _ (.connConfirm _ _ _ (some c)) _ _) => s.accepts.any (·.cookie == c)
  | _ => true

def tables (s : UDPServer) : AList (fun _ : UInt32 => ℕ) × (AddrPort → Option ℕ) × (ℕ → Option ℕ) :=
  (s.byToken, s.byAddr, s.connIDs)

def Verified (s : UDPServer) (e : ℕ × ServerEvent) (ap : AddrPort) (cs ss : UInt64)
    (entry : UDPKeyEntry) : Prop :=
  ∃ keyID cookie salt connID keys,
    e.2 = .packet ap (.connConfirm keyID cs ss cookie) salt connID ∧
    verify cookie ap cs ss e.1 = true ∧
    s.keys = some keys ∧ keys keyID = some entry ∧ e.1 < entry.expiresAt

/-- **The check**: a confirmation from an address that was sent an accept with these salts less than
two slots ago, with a key that has not expired. -/
def Passes (s : UDPServer) (e : ℕ × ServerEvent) (ap : AddrPort) (cs ss : UInt64) :
    Prop :=
  (∃ a ∈ s.accepts, a.addr = ap ∧ a.clientSalt = cs ∧ a.serverSalt = ss ∧
    a.sentAt ≤ e.1 ∧ e.1 < a.sentAt + 2 * cookieSlot) ∧
  ∃ keyID cookie salt connID keys entry,
    e.2 = .packet ap (.connConfirm keyID cs ss cookie) salt connID ∧
    s.keys = some keys ∧ keys keyID = some entry ∧ e.1 < entry.expiresAt

end UDPServer

variable {ap : AddrPort} {cs ss : UInt64} {cookie : Option Cookie} {now t : ℕ}

lemma UDPKeyRegistry.lookup_eq_some {r : UDPKeyRegistry} {id : UInt64} {e : UDPKeyEntry}
    (h : (r.lookup id now).1 = some e) :
    r id = some e ∧ now < e.expiresAt ∧ (r.lookup id now).2 = r := by
  unfold lookup at h ⊢
  split at h
  · cases h
  split at h
  · next he hlt =>
    cases h
    exact ⟨he, hlt, if_pos hlt ▸ rfl⟩
  · cases h

lemma eq_of_verify {a : Accept} (h : verify (some a.cookie) ap cs ss now = true) :
    a.addr = ap ∧ a.clientSalt = cs ∧ a.serverSalt = ss ∧
      now < a.sentAt + 2 * cookieSlot := by
  have hslot : ∀ k : ℤ, slotOf now - 1 ≤ k → slotOf a.sentAt = k →
    now < a.sentAt + 2 * cookieSlot := by
    unfold slotOf cookieSlot
    omega
  rcases Bool.or_eq_true_iff.mp h with h | h
  all_goals
    obtain ⟨rfl, rfl, rfl, hk⟩ := Cookie.mk.inj (some.inj (beq_iff_eq.mp h))
    exact ⟨rfl, rfl, rfl, hslot _ (by omega) hk⟩

namespace UDPServer

variable {s u : UDPServer} {e : ℕ × ServerEvent}

/-- **What a confirmation does**: nothing to the sessions, unless the cookie and the key
are good. -/
lemma handleConnConfirm_cases {keyID : UInt64} {connID : ℕ}
    (h : s.handleConnConfirm keyID cs ss cookie ap connID = u) :
    (∃ keys, u = { s with keys }) ∨
      verify cookie ap cs ss s.clock = true ∧ ∃ keys entry, s.keys = some keys ∧
        keys keyID = some entry ∧ s.clock < entry.expiresAt ∧
          u = { s with proven := ap :: s.proven }.promoteConfirmed (makeToken cs ss)
            ap cs ss { key := ⟨entry.key, cs, ss⟩ } connID := by
  subst h
  unfold handleConnConfirm
  split
  · next hv =>
    split
    · exact .inl ⟨s.keys, rfl⟩
    next keys hkeys =>
    dsimp only
    split
    · exact .inl ⟨_, rfl⟩
    · next entry hentry =>
      obtain ⟨hkey, hlt, hr⟩ := UDPKeyRegistry.lookup_eq_some hentry
      exact .inr ⟨hv, keys, entry, hkeys, hkey, hlt, by rw [hr, ← hkeys]⟩
  · exact .inl ⟨s.keys, rfl⟩

/-- **What a step may do to a transport**: open a packet, seal one, or both. -/
inductive Use (tr : UDPTransport) : UDPTransport → Prop
  | rest : Use tr tr
  | receive {header : Header} {p : Sealed} {c : Session}
    (hc : tr.crypto.openPacket header p = some c) :
    Use tr { tr with crypto := c }
  | transmit {tr' : UDPTransport} {type : PacketType} {body : Payload} {closed : Bool}
    (h : Use tr tr')
    (hctr : tr'.crypto.sendCtr = tr.crypto.sendCtr) :
    Use tr { tr' with closed, crypto := tr'.crypto.sealPacket type tr'.token body }

/-- What one step does to the server. -/
structure Effect (s : UDPServer) (e : ℕ × ServerEvent) (u : UDPServer) : Prop where
  clock : u.clock = e.1
  le : s.clock ≤ e.1
  accepts : ∀ a ∈ u.accepts, a ∈ s.accepts ∨ a.sentAt = e.1
  proven : u.proven = s.proven ∨ ∃ ap cs ss entry,
    s.Verified e ap cs ss entry ∧ u.proven = ap :: s.proven
  next : s.nextTransport ≤ u.nextTransport
  transports : ∀ {t tr}, u.transports t = some tr →
    (∃ tr', s.transports t = some tr' ∧ Use tr' tr) ∨
      t = s.nextTransport ∧ t < u.nextTransport ∧ tr.addr ∈ u.proven ∧
      s.byToken.lookup (makeToken tr.clientSalt tr.serverSalt) = none ∧
      ∃ entry, s.Verified e tr.addr tr.clientSalt tr.serverSalt entry ∧
        tr.crypto = { key := ⟨entry.key, tr.clientSalt, tr.serverSalt⟩ }
  tables : u.tables = s.tables ∨ (∃ t, e.2 = .close t ∨ e.2 = .timeout t) ∨ ∃ ap d salt connID,
    e.2 = .packet ap d salt connID ∧
      (ap ∈ u.proven ∨ ∃ t tr, s.transports t = some tr ∧ tr.addr = ap)

lemma receive_eq_some {header : Header} {p : Sealed} {r : ℕ × UDPTransport}
    (h : s.receive header ap p = some r) :
    ∃ tr c, s.transports r.1 = some tr ∧ tr.addr = ap ∧ tr.crypto.openPacket header p = some c ∧
      r.2 = { tr with crypto := c } := by
  obtain ⟨r', hr, h⟩ := bind_eq_some_iff.mp h
  obtain ⟨c, hc, rfl⟩ := map_eq_some_iff.mp h
  obtain ⟨t', -, hr⟩ := bind_eq_some_iff.mp hr
  obtain ⟨tr', htr, hr⟩ := bind_eq_some_iff.mp hr
  split at hr
  · next haddr =>
    cases hr
    exact ⟨tr', c, htr, haddr, hc, rfl⟩
  · cases hr

lemma update_eq_some {f : ℕ → Option UDPTransport} {t' : ℕ} {x y : UDPTransport}
    (h : update f t (some x) t' = some y) : t' = t ∧ x = y ∨ f t' = some y := by
  by_cases ht : t' = t
  · subst ht
    rw [update_self] at h
    exact .inl ⟨rfl, some.inj h⟩
  · rw [update_of_ne ht] at h
    exact .inr h

lemma openPacket_sendCtr {c c' : Session} {header : Header} {p : Sealed}
    (h : c.openPacket header p = some c') : c'.sendCtr = c.sendCtr := by
  unfold Session.openPacket at h
  split at h
  · cases h
    rfl
  · cases h

/-- Most events leave the sessions as they are. -/
lemma Effect.quiet (hle : s.clock ≤ e.1) (hclock : u.clock = e.1)
    (haccepts : ∀ a ∈ u.accepts, a ∈ s.accepts ∨ a.sentAt = e.1) (hproven : u.proven = s.proven)
    (hnext : u.nextTransport = s.nextTransport) (htransports : u.transports = s.transports)
    (htables : u.tables = s.tables ∨ ∃ t, e.2 = .close t ∨ e.2 = .timeout t) : Effect s e u :=
  ⟨hclock, hle, haccepts, .inl hproven, hnext.ge, fun htr => .inl ⟨_, htransports ▸ htr, .rest⟩,
    htables.imp_right .inl⟩

/-- The others use one of them. -/
lemma Effect.use {tr tr' : UDPTransport} (hle : s.clock ≤ e.1) (htr : s.transports t = some tr)
    (huse : Use tr tr') (hclock : u.clock = e.1) (haccepts : u.accepts = s.accepts)
    (hproven : u.proven = s.proven) (hnext : u.nextTransport = s.nextTransport)
    (htransports : u.transports = update s.transports t (some tr'))
    (htables : u.tables = s.tables ∨ (∃ t, e.2 = .close t ∨ e.2 = .timeout t) ∨
      ∃ d salt connID, e.2 = .packet tr.addr d salt connID) : Effect s e u := by
  refine ⟨hclock, hle, fun a ha => .inl (haccepts ▸ ha), .inl hproven, hnext.ge, fun htr' => ?_,
    htables.imp_right (.imp_right fun ⟨d, salt, connID, he⟩ =>
      ⟨_, d, salt, connID, he, .inr ⟨t, tr, htr, rfl⟩⟩)⟩
  rw [htransports] at htr'
  rcases update_eq_some htr' with ⟨rfl, rfl⟩ | htr'
  · exact .inl ⟨tr, htr, huse⟩
  · exact .inl ⟨_, htr', .rest⟩

lemma effect_step (h : s.step e = some u) : Effect s e u := by
  unfold step at h
  split at h
  swap
  · cases h
  next hle =>
  cases h
  obtain ⟨now, ev⟩ := e
  cases ev with
  | packet ap d salt connID =>
    cases d with
    | connReq cs =>
      refine .quiet hle rfl (fun a ha => ?_) rfl rfl rfl (.inl rfl)
      rcases mem_cons.mp ha with rfl | ha
      · right
        split <;> rfl
      · exact .inl ha
    | malformed => exact .quiet hle rfl (fun _ => .inl) rfl rfl rfl (.inl rfl)
    | connConfirm keyID cs ss cookie =>
      simp only [handle, dispatch]
      rcases handleConnConfirm_cases rfl
        with ⟨keys, hu⟩ | ⟨hv, keys, entry, hkeys, hentry, hlive, hu⟩
      · rw [hu]
        exact .quiet hle rfl (fun _ => .inl) rfl rfl rfl (.inl rfl)
      have hverified : s.Verified (now, .packet ap _ salt connID) ap cs ss entry :=
        ⟨keyID, cookie, salt, connID, keys, rfl, hv, hkeys, hentry, hlive⟩
      have hproven : ap ∈ ap :: s.proven := mem_cons_self
      rw [hu]
      unfold promoteConfirmed
      split
      · exact ⟨rfl, hle, fun _ => .inl, .inr ⟨_, _, _, _, hverified, rfl⟩, le_rfl,
          fun htr => .inl ⟨_, htr, .rest⟩, .inl rfl⟩
      next hroom =>
      refine ⟨rfl, hle, fun _ => .inl, .inr ⟨_, _, _, _, hverified, rfl⟩, Nat.le_succ _,
        fun htr => ?_, .inr (.inr ⟨_, _, _, _, rfl, .inl hproven⟩)⟩
      rcases update_eq_some htr with ⟨rfl, rfl⟩ | htr
      · exact .inr ⟨rfl, Nat.lt_succ_self _, hproven, not_isSome_iff_eq_none.mp fun hsome =>
          hroom (.inl hsome), entry, hverified, rfl⟩
      · exact .inl ⟨_, htr, .rest⟩
    | packet header p =>
      simp only [handle, dispatch]
      cases hr : receive _ header ap p with
      | none => exact .quiet hle rfl (fun _ => .inl) rfl rfl rfl (.inl rfl)
      | some r =>
        obtain ⟨tr, c, htr, rfl, hc, hr₂⟩ := receive_eq_some hr
        simp only [Option.elim_some, hr₂]
        split
        · simp only [removeTransport, close]
          split
          · exact .use hle htr (.receive hc) rfl rfl rfl rfl rfl
              (.inr (.inr ⟨_, salt, connID, rfl⟩))
          · exact .use hle htr (.transmit (.receive hc) (openPacket_sendCtr hc)) rfl rfl rfl rfl
              (update_idem ..) (.inr (.inr ⟨_, salt, connID, rfl⟩))
        · exact .use hle htr (.receive hc) rfl rfl rfl rfl rfl (.inl rfl)
  | transmit t type body =>
    cases htr : s.transports t <;> simp only [handle, htr]
    · exact .quiet hle rfl (fun _ => .inl) rfl rfl rfl (.inl rfl)
    · exact .use hle htr (.transmit .rest rfl) rfl rfl rfl rfl rfl (.inl rfl)
  | close t =>
    cases htr : s.transports t with
    | none =>
      simp only [handle, htr]
      exact .quiet hle rfl (fun _ => .inl) rfl rfl rfl (.inl rfl)
    | some tr =>
      simp only [handle, htr, Option.map_some, Option.getD_some, close]
      split
      · exact .quiet hle rfl (fun _ => .inl) rfl rfl rfl (.inl rfl)
      · exact .use hle htr (.transmit .rest rfl) rfl rfl rfl rfl rfl (.inr (.inl ⟨t, .inl rfl⟩))
  | timeout t =>
    cases htr : s.transports t with
    | none =>
      simp only [handle, htr]
      exact .quiet hle rfl (fun _ => .inl) rfl rfl rfl (.inl rfl)
    | some tr =>
      simp only [handle, htr, Option.map_some, Option.getD_some, removeTransport, close]
      split
      · exact .quiet hle rfl (fun _ => .inl) rfl rfl rfl (.inr ⟨t, .inr rfl⟩)
      · exact .use hle htr (.transmit .rest rfl) rfl rfl rfl rfl rfl (.inr (.inl ⟨t, .inr rfl⟩))
  | setKeys keys => exact .quiet hle rfl (fun _ => .inl) rfl rfl rfl (.inl rfl)

/-! ### Return routability -/

/-- Sessions belong to addresses that have passed the check, and no accept is from the future. -/
structure Bound (s : UDPServer) : Prop where
  proven : ∀ t tr, s.transports t = some tr → tr.addr ∈ s.proven
  past : ∀ a ∈ s.accepts, a.sentAt ≤ s.clock

lemma Effect.subset (h : Effect s e u) : s.proven ⊆ u.proven := by
  rcases h.proven with heq | ⟨_, _, _, _, -, heq⟩ <;> simp [heq]

lemma Use.addr {tr tr' : UDPTransport} (h : Use tr tr') : tr'.addr = tr.addr := by
  induction h with
  | rest | receive => rfl
  | transmit _ _ ih => exact ih

lemma Bound.step (hb : Bound s) (h : Effect s e u) : Bound u := by
  refine ⟨fun t tr htr => ?_, fun a ha => ?_⟩
  · rcases h.transports htr with ⟨tr', htr', huse⟩ | ⟨-, -, hproven, -⟩
    · exact h.subset (huse.addr ▸ hb.proven t tr' htr')
    · exact hproven
  rw [h.clock]
  rcases h.accepts a ha with ha | ha
  · exact (hb.past a ha).trans h.le
  · exact ha.le

lemma Verified.passes {entry : UDPKeyEntry} (hv : s.Verified e ap cs ss entry)
    (hb : Bound s) (hle : s.clock ≤ e.1) (hK : s.unforged e = true) :
    s.Passes e ap cs ss := by
  obtain ⟨keyID, cookie, salt, connID, keys, he, hcookie, hkeys, hentry, hlive⟩ := hv
  refine ⟨?_, keyID, cookie, salt, connID, keys, entry, he, hkeys, hentry, hlive⟩
  cases cookie with
  | none => simp [verify] at hcookie
  | some c =>
    obtain ⟨now, ev⟩ := e
    subst he
    obtain ⟨a, ha, hac⟩ := any_eq_true.mp hK
    obtain rfl := beq_iff_eq.mp hac
    obtain ⟨haddr, hcs, hss, hlt⟩ := eq_of_verify hcookie
    exact ⟨a, ha, haddr, hcs, hss, (hb.past a ha).trans hle, hlt⟩

/-- **Return routability.** In every run in which no cookie is forged, a step creates a session only
for a confirmation that passes the check, and an address becomes a proven one only so; a packet from
another address leaves the session tables alone. -/
theorem return_routability {keys : Option UDPKeyRegistry} {maxConnections clock : ℕ}
    (hrun : Run (Steps step) (fun s e => s.unforged e) { keys, maxConnections, clock } s)
    (hK : s.unforged e = true) (h : s.step e = some u) :
    (∀ t tr, s.transports t = none → u.transports t = some tr →
      s.Passes e tr.addr tr.clientSalt tr.serverSalt) ∧
    (∀ ap ∈ u.proven, ap ∈ s.proven ∨ ∃ cs ss, s.Passes e ap cs ss) ∧
    ∀ ap d salt connID, e.2 = .packet ap d salt connID → ap ∉ u.proven → u.tables = s.tables := by
  have hb : Bound s := hrun.invariant ⟨fun _ _ h => (some_ne_none _ h.symm).elim,
    fun _ h => absurd h not_mem_nil⟩ fun hb _ h => hb.step (effect_step h)
  have heffect := effect_step h
  refine ⟨fun t tr hnone htr => ?_, fun ap hap => ?_, fun ap d salt connID he hap => ?_⟩
  · rcases heffect.transports htr with ⟨tr', htr', -⟩ | ⟨-, -, -, -, entry, hv, -⟩
    · rw [hnone] at htr'
      cases htr'
    · exact hv.passes hb heffect.le hK
  · rcases heffect.proven with heq | ⟨ap', _, _, _, hv, heq⟩ <;> rw [heq] at hap
    · exact .inl hap
    · rcases mem_cons.mp hap with rfl | hap
      · exact .inr ⟨_, _, hv.passes hb heffect.le hK⟩
      · exact .inl hap
  · rcases heffect.tables with heq | ⟨t, ht⟩ | ⟨ap', d', salt', connID', he', hbound⟩
    · exact heq
    · rcases ht with ht | ht <;> rw [ht] at he <;> cases he
    rw [he] at he'
    obtain ⟨rfl, -⟩ := ServerEvent.packet.inj he'
    rcases hbound with hproven | ⟨t, tr, htr, rfl⟩
    · exact absurd hproven hap
    · exact absurd (heffect.subset (hb.proven t tr htr)) hap

def oneKey : UDPServer where
  keys := some fun id => if id = 1 then some ⟨5, 100⟩ else none
  maxConnections := 1
  clock := 0

def visitor : AddrPort := ⟨1, 1⟩

def confirm : ServerEvent := .packet visitor (.connConfirm 1 1 2 (some ⟨visitor, 1, 2, 0⟩)) 0 0

lemma run_visit : Run (Steps step) (fun s e => s.unforged e) oneKey
    { oneKey with accepts := [⟨visitor, 1, 2, 0⟩] } :=
  .tail (a := (0, .packet visitor (.connReq 1) 2 0)) .refl rfl rfl

theorem return_routability_visitor :
    UDPServer.Passes { oneKey with accepts := [⟨visitor, 1, 2, 0⟩] } (1, confirm) visitor 1 2 :=
  (return_routability run_visit (e := (1, confirm)) rfl rfl).1 0 _ rfl rfl

end UDPServer

/-! ### Traffic keys -/

/-- The counters of a session are used once, in both directions. -/
structure Session.Sound (c : Session) : Prop where
  key : ∀ p ∈ c.sealed, p.key = c.key ∧ p.header.counter ≤ c.sendCtr
  nonces : (c.sealed.map Sealed.nonce).Nodup
  opened_key : ∀ p ∈ c.opened, p.key = c.key
  nodup : c.opened.Nodup
  knows : c.win.Knows {n | ∃ p ∈ c.opened, p.header.counter = n}

lemma Session.sound_new (key : TrafficKey) : Session.Sound { key } where
  key := fun _ h => absurd h not_mem_nil
  nonces := nodup_nil
  opened_key := fun _ h => absurd h not_mem_nil
  nodup := nodup_nil
  knows := ⟨BitVec.tracks_zero fun n hn => absurd hn (by simp), fun n hn => absurd hn (by simp)⟩

lemma Session.Sound.sealPacket {c : Session} (hc : c.Sound) (hctr : c.sendCtr + 1 < 2 ^ 64)
    (type : PacketType) (token : UInt32) (body : Payload) :
    (c.sealPacket type token body).Sound := by
  unfold Session.sealPacket
  rw [Nat.mod_eq_of_lt hctr]
  dsimp only
  split
  · exact ⟨fun p hp =>
      ⟨(hc.key p hp).1, Nat.le_succ_of_le (hc.key p hp).2⟩, hc.nonces, hc.opened_key,
      hc.nodup, hc.knows⟩
  refine ⟨fun p hp => ?_, ?_, hc.opened_key, hc.nodup, hc.knows⟩
  · rcases mem_cons.mp hp with rfl | hp
    · exact ⟨rfl, le_rfl⟩
    · exact ⟨(hc.key p hp).1, Nat.le_succ_of_le (hc.key p hp).2⟩
  -- the new counter is above those of all the packets before
  refine nodup_cons.mpr ⟨fun hmem => ?_, hc.nonces⟩
  obtain ⟨p, hp, hnonce⟩ := mem_map.mp hmem
  have hle := (hc.key p hp).2
  rw [show p.header.counter = c.sendCtr + 1 from congrArg Prod.snd hnonce] at hle
  omega

lemma Session.Sound.openPacket {c c' : Session} (hc : c.Sound) {header : Header} {p : Sealed}
    (h : c.openPacket header p = some c') : c'.Sound := by
  unfold Session.openPacket at h
  split at h
  · next hp =>
    cases h
    obtain ⟨-, hcheck, hkey, rfl⟩ := hp
    refine ⟨hc.key, hc.nonces, fun q hq => ?_, nodup_cons.mpr ⟨fun hmem => ?_, hc.nodup⟩, ?_⟩
    · rcases mem_cons.mp hq with rfl | hq
      · exact hkey
      · exact hc.opened_key q hq
    · exact ((ReplayWindow.check_iff hc.knows).mp hcheck).2 ⟨p, hmem, rfl⟩
    · convert ReplayWindow.knows_commit hc.knows hcheck using 1
      ext n
      simp [eq_comm]
  · cases h

namespace UDPServer

/-- **No two seals share key and counter**, of one session or of two. -/
def NoncesUnique (s : UDPServer) : Prop :=
  ∀ t tr, s.transports t = some tr → (tr.crypto.sealed.map Sealed.nonce).Nodup ∧
    ∀ t' tr', s.transports t' = some tr' → ∀ p ∈ tr.crypto.sealed, ∀ q ∈ tr'.crypto.sealed,
      p.nonce = q.nonce → t = t'

/-- No packet is accepted twice, by one session or by two. -/
def AcceptsOnce (s : UDPServer) : Prop :=
  ∀ t tr, s.transports t = some tr → tr.crypto.opened.Nodup ∧
    ∀ t' tr' p, s.transports t' = some tr' → p ∈ tr.crypto.opened → p ∈ tr'.crypto.opened → t = t'

/-- No session is out of counters, and a confirmation that builds a session does not lead to the key
of an earlier one. -/
def Fresh (s : UDPServer) (e : ℕ × ServerEvent) : Prop :=
  (∀ t tr, s.transports t = some tr → tr.crypto.sendCtr + 1 < 2 ^ 64) ∧
  ∀ ap keyID cs ss cookie salt connID,
    e.2 = .packet ap (.connConfirm keyID cs ss cookie) salt connID →
    s.byToken.lookup (makeToken cs ss) = none →
      ∀ t tr keys entry, s.transports t = some tr → s.keys = some keys → keys keyID = some entry →
        tr.crypto.key ≠ ⟨entry.key, cs, ss⟩

/-- The sessions are sound and have keys of their own. -/
structure Keyed (s : UDPServer) : Prop where
  lt : ∀ t tr, s.transports t = some tr → t < s.nextTransport
  sound : ∀ t tr, s.transports t = some tr → tr.crypto.Sound
  apart : ∀ t t' tr tr', s.transports t = some tr → s.transports t' = some tr' →
    tr.crypto.key = tr'.crypto.key → t = t'

lemma Use.key {tr tr' : UDPTransport} (h : Use tr tr') : tr'.crypto.key = tr.crypto.key := by
  induction h with
  | rest => rfl
  | receive hc =>
    unfold Session.openPacket at hc
    split at hc
    · cases hc
      rfl
    · cases hc
  | transmit _ _ ih => exact ih

lemma Use.sound {tr tr' : UDPTransport} (h : Use tr tr') (hs : tr.crypto.Sound)
    (hctr : tr.crypto.sendCtr + 1 < 2 ^ 64) : tr'.crypto.Sound := by
  induction h with
  | rest => exact hs
  | receive hc => exact hs.openPacket hc
  | transmit _ heq ih => exact ih.sealPacket (heq ▸ hctr) _ _ _

lemma Keyed.step (hs : Keyed s) (hK : Fresh s e) (h : Effect s e u) : Keyed u := by
  obtain ⟨hctr, hK⟩ := hK
  have hnew : ∀ {t tr}, s.transports t = some tr → ∀ {ap cs ss entry},
      s.Verified e ap cs ss entry →
      s.byToken.lookup (makeToken cs ss) = none →
      tr.crypto.key ≠ ⟨entry.key, cs, ss⟩ := by
    rintro t tr htr ap cs ss entry ⟨keyID, _, _, _, keys, he, -, hkeys, hentry, -⟩ hfree
    exact hK _ _ _ _ _ _ _ he hfree t tr keys entry htr hkeys hentry
  refine ⟨fun t tr htr => ?_, fun t tr htr => ?_, fun t t' tr tr' htr htr' hkey => ?_⟩
  · rcases h.transports htr with ⟨tr', htr', -⟩ | ⟨-, hlt, -⟩
    · exact (hs.lt t tr' htr').trans_le h.next
    · exact hlt
  · rcases h.transports htr with ⟨tr', htr', huse⟩ | ⟨-, -, -, -, entry, -, hc⟩
    · exact huse.sound (hs.sound t tr' htr') (hctr t tr' htr')
    · exact hc ▸ Session.sound_new _
  · rcases h.transports htr with ⟨x, hx, hxu⟩ | ⟨rfl, -, -, hfree, entry, hv, hc⟩ <;>
      rcases h.transports htr' with ⟨y, hy, hyu⟩ | ⟨rfl, -, -, hfree', entry', hv', hc'⟩
    · exact hs.apart t t' x y hx hy (hxu.key ▸ hyu.key ▸ hkey)
    · exact absurd (hxu.key.symm.trans (hkey.trans (congrArg Session.key hc'))) (hnew hx hv' hfree')
    · exact absurd (hyu.key.symm.trans (hkey.symm.trans (congrArg Session.key hc)))
        (hnew hy hv hfree)
    · rfl

/-- **Traffic keys are not reused** in a run without a confirmation that leads to the key of an
earlier session. -/
theorem traffic_keys_fresh {keys : Option UDPKeyRegistry} {maxConnections clock : ℕ}
    (hrun : Run (Steps step) Fresh { keys, maxConnections, clock } s) :
    s.NoncesUnique ∧ s.AcceptsOnce := by
  have hs : Keyed s := hrun.invariant ⟨fun _ _ h => (some_ne_none _ h.symm).elim,
    fun _ _ h => (some_ne_none _ h.symm).elim, fun _ _ _ _ h => (some_ne_none _ h.symm).elim⟩
    fun hs hK h => hs.step hK (effect_step h)
  refine ⟨fun t tr htr => ⟨(hs.sound t tr htr).nonces, fun t' tr' htr' p hp q hq hnonce => ?_⟩,
    fun t tr htr => ⟨(hs.sound t tr htr).nodup, fun t' tr' p htr' hp hp' => ?_⟩⟩
  · refine hs.apart t t' tr tr' htr htr' ?_
    calc tr.crypto.key = p.key := ((hs.sound t tr htr).key p hp).1.symm
      _ = q.key := congrArg Prod.fst hnonce
      _ = tr'.crypto.key := ((hs.sound t' tr' htr').key q hq).1
  · exact hs.apart t t' tr tr' htr htr' (((hs.sound t tr htr).opened_key p hp).symm.trans
      ((hs.sound t' tr' htr').opened_key p hp'))

/-- A session that has sent a packet and was kicked: its Disconnect has the next counter. -/
theorem traffic_keys_fresh_visitor :
    ∃ (s : UDPServer) (tr : UDPTransport), s.transports 0 = some tr ∧
    tr.crypto.sealed =
      [⟨⟨5, 1, 2⟩, ⟨.disconnect, 3, 2⟩, []⟩, ⟨⟨5, 1, 2⟩, ⟨.unreliable, 3, 1⟩, [1]⟩] ∧
    s.NoncesUnique ∧ s.AcceptsOnce := by
  have hfresh : ∀ {s : UDPServer} {now ev}, (∀ t tr, s.transports t = some tr → t = 0) →
      (∀ tr, s.transports 0 = some tr → tr.crypto.sendCtr + 1 < 2 ^ 64) →
      (s.transports 0 = none ∨ ∀ ap d salt connID, ev ≠ .packet ap d salt connID) →
      Fresh s (now, ev) := by
    intro s now ev hone hctr hev
    refine ⟨fun t tr htr => ?_, fun ap _ _ _ _ salt connID he _ t tr _ _ htr => ?_⟩
    · obtain rfl := hone t tr htr
      exact hctr tr htr
    · obtain rfl := hone t tr htr
      rcases hev with hnone | hev
      · rw [hnone] at htr
        cases htr
      · exact absurd he (hev _ _ _ _)
  have hrun : Run (Steps step) Fresh oneKey _ :=
    .tail (a := (3, .close 0))
      (.tail (a := (2, .transmit 0 .unreliable [1])) (.tail (a := (1, confirm))
      (.tail (a := (0, .packet visitor (.connReq 1) 2 0)) .refl
        (hfresh (fun _ _ h => by cases h) (fun _ h => by cases h) (.inl rfl)) rfl)
      (hfresh (fun _ _ h => by cases h) (fun _ h => by cases h) (.inl rfl)) rfl)
      (hfresh (fun | 0, _, _ => rfl | _ + 1, _, h => nomatch h) (fun tr h => by cases h; decide)
        (.inr nofun)) rfl)
      (hfresh (fun | 0, _, _ => rfl | _ + 1, _, h => nomatch h) (fun tr h => by cases h; decide)
        (.inr nofun)) rfl
  exact ⟨_, _, rfl, rfl, traffic_keys_fresh hrun⟩

/-- **A replayed confirmation.** The peer `visitor` has connected, sent a packet and left. When the
confirmation and the packet are sent once more, the new session seals under the old nonce and
accepts the packet again. -/
theorem replayed_confirm_reuses_nonces : ∃ s, Run (Steps step) (fun s e => s.unforged e) oneKey s ∧
    ¬ s.NoncesUnique ∧ ¬ s.AcceptsOnce := by
  let input : Sealed := ⟨⟨5, 1, 2⟩, ⟨.unreliable, 3, 1⟩, [7]⟩
  let bye : Sealed := ⟨⟨5, 1, 2⟩, ⟨.disconnect, 3, 2⟩, []⟩
  obtain ⟨s, hrun, h₀, h₁⟩ := exists_run (s := oneKey) step (fun s e => s.unforged e)
    (fun s => (s.transports 0).map (fun tr => (tr.crypto.sealed, tr.crypto.opened)) =
        some ([bye, ⟨⟨5, 1, 2⟩, ⟨.unreliable, 3, 1⟩, [1]⟩], [bye, input]) ∧
      (s.transports 1).map (fun tr => (tr.crypto.sealed, tr.crypto.opened)) =
        some ([⟨⟨5, 1, 2⟩, ⟨.unreliable, 3, 1⟩, [2]⟩], [input]))
    [(0, .packet visitor (.connReq 1) 2 0), (1, confirm), (2, .transmit 0 .unreliable [1]),
      (3, .packet visitor (.packet input.header input) 0 0),
      (4, .packet visitor (.packet bye.header bye) 0 0), (5, confirm),
        (6, .transmit 1 .unreliable [2]),
      (7, .packet visitor (.packet input.header input) 0 0)] (by decide +kernel)
  obtain ⟨tr, htr, hlists⟩ := map_eq_some_iff.mp h₀
  obtain ⟨tr', htr', hlists'⟩ := map_eq_some_iff.mp h₁
  obtain ⟨hsealed, hopened⟩ := Prod.mk.inj hlists
  obtain ⟨hsealed', hopened'⟩ := Prod.mk.inj hlists'
  refine ⟨s, hrun, fun hs => ?_, fun hs => ?_⟩
  · have := (hs 0 tr htr).2 1 tr' htr' ⟨⟨5, 1, 2⟩, ⟨.unreliable, 3, 1⟩, [1]⟩ (by simp [hsealed])
      ⟨⟨5, 1, 2⟩, ⟨.unreliable, 3, 1⟩, [2]⟩ (by simp [hsealed']) rfl
    cases this
  · have := (hs 0 tr htr).2 1 tr' input htr' (by simp [hopened]) (by simp [hopened'])
    cases this

end UDPServer

end Mmokit.UDP
