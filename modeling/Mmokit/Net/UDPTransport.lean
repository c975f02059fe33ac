/-
The reliable channel over UDP (`pkg/net/udp_transport.go`, `pkg/net/udpclient/client.go`,
`UdpTransport.cs`) with its packet counters (`pkg/net/udpcrypto`).

An endpoint numbers its reliable messages modulo `2 ^ 16` and keeps up to 256 of them until they
are acknowledged. A message that arrives is recorded under a lock and handed on after the lock is
released, so that an acknowledgement may be sent in between.

The server and the two clients do the same but for three things: C# shifts the window modulo the
width of the word, only the server acts on a disconnect, and the `Tick` of C# closes the session
when one of its writes fails, where Go tries again. C# also asks whether it is closed before it
seals.
-/
import Mathlib.Algebra.Group.Nat.Defs
import Mathlib.Data.List.Basic
import Mmokit.Library.Runs

namespace Mmokit.UDP

open Function

abbrev Payload := List UInt8

abbrev Time := ℤ

def reliableBufSize : ℕ := 256

def retransmitInterval : Time := 100000000

def reliableTimeout : Time := 5000000000

def keepaliveInterval : Time := 1000000000

def connectionTimeout : Time := 10000000000

def seqGreaterThan (s1 s2 : BitVec 16) : Bool :=
  (s2 < s1 && s1 - s2 ≤ 32768) || (s1 < s2 && 32768 < s2 - s1)

/-! ### Counters -/

def replayWindowSize : ℕ := 64

def maxCounter : ℕ := 2 ^ 64 - 1 - 1024

/-- `replayWindow`: bit `i` is for the counter `i` below the highest. -/
structure ReplayWindow where
  highest : ℕ
  bitmap : BitVec 64
deriving DecidableEq

namespace ReplayWindow

def check (w : ReplayWindow) (ctr : ℕ) : Bool :=
  if w.highest < ctr then true
  else if replayWindowSize ≤ w.highest - ctr then false
  else w.bitmap &&& (1#64 <<< (w.highest - ctr)) == 0#64

def commit (w : ReplayWindow) (ctr : ℕ) : ReplayWindow :=
  if w.highest < ctr then
    let shift := ctr - w.highest
    ⟨ctr, (if replayWindowSize ≤ shift then 0#64 else w.bitmap <<< shift) ||| 1#64⟩
  else if w.highest - ctr < replayWindowSize then
    { w with bitmap := w.bitmap ||| (1#64 <<< (w.highest - ctr)) }
  else w

end ReplayWindow

/-! ### Packets -/

/-- What a packet says. The numbers of the messages are not on the wire. -/
inductive Body
  | unreliable (payload : Payload)
  | reliable (seq : BitVec 16) (payload : Payload) (number : ℕ)
  | ack (ackSeq : BitVec 16) (ackBits : BitVec 32) (number : ℕ)
  | disconnect
deriving DecidableEq

/-- A sealed packet with its counter. -/
structure Packet where
  counter : ℕ
  body : Body
deriving DecidableEq

/-- A message that is not acknowledged. -/
structure ReliableEntry where
  seq : BitVec 16
  payload : Payload
  firstSentAt : Time
  lastSentAt : Time
  number : ℕ
deriving DecidableEq

inductive Disposition
  | queued
  | closed
  | backpressure
  | failed
deriving DecidableEq

inductive Kind
  | server
  | goClient
  | csharpClient
deriving DecidableEq

/-- The shift of the receive window: C# takes the distance modulo 32 and so asks for it first. -/
def Kind.shiftLeft : Kind → BitVec 32 → ℕ → BitVec 32
  | .server, bits, diff | .goClient, bits, diff => bits <<< diff
  | .csharpClient, bits, diff => if 32 ≤ diff then 0#32 else bits <<< (diff % 32)

/-! ### One end -/

/-- One end of a session: the fields of the transport, then what the proofs are about. -/
structure Endpoint where
  kind : Kind
  sendCtr : ℕ := 0
  win : ReplayWindow := ⟨0, 0⟩
  sendSeq : BitVec 16 := 0
  sendBuf : ℕ → Option ReliableEntry := fun _ => none
  recvInit : Bool := false
  recvSeq : BitVec 16 := 0
  recvBits : BitVec 32 := 0
  ackDirty : Bool := false
  lastRecv : Time
  lastSend : Time
  closed : Bool := false
  /-- How many messages have taken a sequence number. -/
  sent : ℕ := 0
  /-- The number of the message that `recvSeq` stands for. -/
  recvNumber : ℕ := 0
  /-- The numbers of the messages of the peer that were delivered. -/
  delivered : List ℕ := []
  /-- The messages of the peer that were handed to `routePayload`. -/
  routed : List (ℕ × Payload) := []
  /-- What was recorded and is not handed on yet. The reader has one message in hand at most. -/
  inHand : List (ℕ × Payload) := []
  /-- The messages that had been recorded when the last acknowledgement was sent. -/
  announced : List ℕ := []
  /-- The messages whose slots were freed by an acknowledgement. -/
  freed : List (ℕ × Payload) := []

namespace Endpoint

variable (e : Endpoint) (now : Time)

def sealWithHeader (body : Body) : Endpoint × Option Packet :=
  let ctr := (e.sendCtr + 1) % 2 ^ 64
  ({ e with sendCtr := ctr }, if maxCounter < ctr then none else some ⟨ctr, body⟩)

def sealSend (ok : Bool) (body : Body) : Endpoint × Disposition × List Packet :=
  match e.sealWithHeader body with
  | (e, none) => (e, .failed, [])
  | (e, some packet) =>
    if e.closed then (e, .closed, [])
    else if ok then ({ e with lastSend := now }, .queued, [packet])
    else (e, .failed, [])

def sendReliable (ok : Bool) (data : Payload) : Endpoint × Disposition × List Packet :=
  if e.closed then (e, .closed, [])
  else
    let seq := e.sendSeq
    let idx := seq.toNat % reliableBufSize
    if (e.sendBuf idx).isSome then (e, .backpressure, [])
    else
      let staged := { e with
        sendSeq := seq + 1
        sent := e.sent + 1
        sendBuf := update e.sendBuf idx (some ⟨seq, data, now, now, e.sent⟩) }
      let result := staged.sealSend now ok (.reliable seq data e.sent)
      if result.2.1 = .queued then result
      else
        -- a failed write gives the slot back, but not the sequence number
        ({ result.1 with sendBuf := update result.1.sendBuf idx none }, result.2)

/-- Whether the end refuses to seal. -/
def mute : Bool := e.closed && e.kind == .csharpClient

def sendUnreliable (ok : Bool) (data : Payload) : Endpoint × Disposition × List Packet :=
  if e.mute then (e, .closed, []) else e.sealSend now ok (.unreliable data)

def close : Endpoint × List Packet :=
  if e.closed then (e, [])
  else
    let r := { e with closed := true, sendBuf := fun _ => none }.sealWithHeader .disconnect
    (r.1, r.2.toList)

/-- What follows a write of the maintenance that failed. -/
def writeFailed : Endpoint × List Packet :=
  match e.kind with
  | .csharpClient => e.close
  | .server | .goClient => (e, [])

/-- The pass over the slots, with `false` where it ends the session. -/
def retransmit (ok : ℕ → Bool) : List ℕ → Endpoint → Endpoint × Bool × List Packet
  | [], e => (e, true, [])
  | i :: slots, e =>
    match e.sendBuf i with
    | none => retransmit ok slots e
    | some entry =>
      if reliableTimeout < now - entry.firstSentAt then (e, false, [])
      else if retransmitInterval ≤ now - entry.lastSentAt then
        let result := e.sealSend now (ok i) (.reliable entry.seq entry.payload entry.number)
        if e.kind = .csharpClient ∧ result.2.1 ≠ .queued then (result.1, false, result.2.2)
        else
          let resent := { result.1 with
            sendBuf := update result.1.sendBuf i (some { entry with lastSentAt := now }) }
          let rest := retransmit ok slots resent
          (rest.1, rest.2.1, result.2.2 ++ rest.2.2)
      else retransmit ok slots e

def maintain (ok : ℕ → Bool) : Endpoint × List Packet :=
  if connectionTimeout < now - e.lastRecv then e.close
  else
    let result := retransmit now ok (List.range reliableBufSize) e
    if result.2.1 then (result.1, result.2.2)
    else
      let closed := result.1.close
      (closed.1, result.2.2 ++ closed.2)

def sendACK (ok : Bool) : Endpoint × List Packet :=
  if e.ackDirty then
    let result := { e with ackDirty := false }.sealSend now ok
      (.ack e.recvSeq e.recvBits e.recvNumber)
    match result.2.1 with
    | .queued => ({ result.1 with announced := e.delivered }, result.2.2)
    | .closed => (result.1, result.2.2)
    | .failed | .backpressure => { result.1 with ackDirty := true }.writeFailed
  else (e, [])

def keepalive (ok : Bool) : Endpoint × List Packet :=
  if keepaliveInterval < now - e.lastSend then
    let result := e.sealSend now ok (.unreliable [])
    if result.2.1 = .queued then (result.1, result.2.2) else result.1.writeFailed
  else (e, [])

def updateRecvTracking (seq : BitVec 16) (number : ℕ) : Endpoint × Bool :=
  if !e.recvInit then
    ({ e with recvInit := true, recvSeq := seq, recvBits := 0, ackDirty := true,
              recvNumber := number }, true)
  else if seqGreaterThan seq e.recvSeq then
    let diff := (seq - e.recvSeq).toNat
    ({ e with
        recvBits :=
          if diff ≤ 32 then e.kind.shiftLeft e.recvBits diff ||| (1#32 <<< (diff - 1)) else 0#32
        recvSeq := seq, ackDirty := true, recvNumber := number }, true)
  else
    let diff := (e.recvSeq - seq).toNat
    if 0 < diff ∧ diff ≤ 32 ∧ e.recvBits &&& (1#32 <<< (diff - 1)) = 0#32 then
      ({ e with recvBits := e.recvBits ||| (1#32 <<< (diff - 1)), ackDirty := true }, true)
    else ({ e with ackDirty := true }, false)

/-- `handleReliable` up to the release of the lock. -/
def handleReliable (seq : BitVec 16) (payload : Payload) (number : ℕ) : Endpoint :=
  let tracked := e.updateRecvTracking seq number
  if tracked.2 then
    { tracked.1 with
      delivered := number :: e.delivered
      inHand := if payload = [] then e.inHand else (number, payload) :: e.inHand }
  else tracked.1

/-- The rest of `handleReliable`: what is in hand goes to `routePayload`. -/
def route : Endpoint := { e with routed := e.inHand ++ e.routed, inHand := [] }

def markAcked (seq : BitVec 16) : Endpoint :=
  let idx := seq.toNat % reliableBufSize
  match e.sendBuf idx with
  | none => e
  | some entry =>
    if entry.seq = seq then
      { e with
        sendBuf := update e.sendBuf idx none
        freed := (entry.number, entry.payload) :: e.freed }
    else e

def ackedSeqs (ackSeq : BitVec 16) (ackBits : BitVec 32) : List (BitVec 16) :=
  ackSeq :: ((List.range 32).filter fun i => ackBits.getLsbD i).map fun i =>
    ackSeq - BitVec.ofNat 16 i - 1

def handleACK (ackSeq : BitVec 16) (ackBits : BitVec 32) : Endpoint :=
  (ackedSeqs ackSeq ackBits).foldl markAcked e

/-- What the reader does with a packet before it hands a payload on. -/
def recordPacket (packet : Packet) : Endpoint × List Packet :=
  if e.closed ∨ packet.counter = 0 ∨ e.win.check packet.counter = false then (e, [])
  else
    let opened := { e with win := e.win.commit packet.counter }
    let alive := { opened with lastRecv := max e.lastRecv now }
    match packet.body with
    | .unreliable _ => (alive, [])
    | .reliable seq payload number => (alive.handleReliable seq payload number, [])
    | .ack ackSeq ackBits _ => (alive.handleACK ackSeq ackBits, [])
    | .disconnect =>
      match e.kind with
      | .server => opened.close
      | .goClient | .csharpClient => (e, [])

def handlePacket (packet : Packet) : Endpoint × List Packet :=
  let recorded := e.recordPacket now packet
  (recorded.1.route, recorded.2)

end Endpoint

/-! ### Two ends and the network -/

inductive Side
  | a
  | b
deriving DecidableEq

def Side.peer : Side → Side
  | .a => .b
  | .b => .a

/-- What an end does. -/
inductive Act
  | sendReliable (now : Time) (ok : Bool) (data : Payload)
  | sendUnreliable (now : Time) (ok : Bool) (data : Payload)
  | maintain (now : Time) (ok : ℕ → Bool)
  | sendACK (now : Time) (ok : Bool)
  | keepalive (now : Time) (ok : Bool)
  /-- The `i`-th packet that the peer has sent arrives and is recorded. -/
  | receive (now : Time) (i : ℕ)
  /-- The reader hands on what it has in hand. -/
  | route
  | close

/-- Two ends and all packets between them. -/
structure Link where
  ends : Side → Endpoint
  net : Side → List Packet

namespace Link

def act (s : Link) (p : Side) : Act → Option (Endpoint × List Packet)
  | .sendReliable now ok data =>
    let r := (s.ends p).sendReliable now ok data
    some (r.1, r.2.2)
  | .sendUnreliable now ok data =>
    let r := (s.ends p).sendUnreliable now ok data
    some (r.1, r.2.2)
  | .maintain now ok => if (s.ends p).closed then none else some ((s.ends p).maintain now ok)
  | .sendACK now ok => if (s.ends p).mute then none else some ((s.ends p).sendACK now ok)
  | .keepalive now ok => if (s.ends p).mute then none else some ((s.ends p).keepalive now ok)
  | .receive now i =>
    if (s.ends p).inHand = [] then ((s.net p.peer)[i]?).map ((s.ends p).recordPacket now) else none
  | .route => some ((s.ends p).route, [])
  | .close => some (s.ends p).close

def step (s : Link) (a : Side × Act) : Option Link :=
  (s.act a.1 a.2).map fun r =>
    ⟨update s.ends a.1 r.1, update s.net a.1 (s.net a.1 ++ r.2)⟩

end Link

end Mmokit.UDP
