/-
The binary format of transfer frames (`pkg/universe/transfer.go`).

`MarshalTransferFrame` writes an entity, with the fields of its player if it has one, and its
components. `UnmarshalTransferFrame` reads it back; `PeekTransferPlayer` reads the player's fields
alone. Both check lengths before they read, and read unchecked up to the next check.

Floating-point numbers are their bit patterns, strings are their bytes.
-/
import Mmokit.Library.ByteReader
import Mmokit.Universe.BorderReplication

namespace Mmokit.TransferCodec

open ByteReader Covers Safe

/-! ### Frames -/

structure Collider where
  radius : UInt32
  width : UInt32
  height : UInt32
  depth : UInt32
  layer : UInt8
  shape : UInt8
deriving DecidableEq

abbrev UUID : Type := {bytes : List UInt8 // bytes.length = 16}

def UUID.nil : UUID := ⟨List.replicate 16 0, List.length_replicate⟩

structure ComponentSlice where
  id : UInt16
  data : List UInt8
deriving DecidableEq

structure TransferPlayer where
  connID : UInt32
  streamGeneration : UInt32
  gatewayID : List UInt8
  gatewayConnID : UInt32
  username : List UInt8
  userID : UUID
deriving DecidableEq

/-- An entity on its way to another cell. -/
structure TransferFrame extends TransferPlayer where
  networkID : UInt32
  epoch : UInt32
  entityType : UInt8
  pos : Vec3 UInt32
  vel : Vec3 UInt32
  rotation : Rotation UInt32
  collider : Collider
  cellX : Int32
  cellY : Int32
  debugFlags : UInt32
  components : List ComponentSlice
deriving DecidableEq

def shapeCount : UInt8 := 3

/-- A shape that is not implemented becomes a sphere. -/
def validShape (b : UInt8) : UInt8 := if b < shapeCount then b else 0

/-! ### Marshalling -/

inductive MarshalError
  | gatewayID (n : ℕ)
  | username (n : ℕ)
  | componentCount (n : ℕ)
  | componentData (i n : ℕ)
deriving DecidableEq

def putUint32 (v : UInt32) : List UInt8 := leBytes 4 v.toNat

def putVec3 (v : Vec3 UInt32) : List UInt8 := putUint32 v.x ++ (putUint32 v.y ++ putUint32 v.z)

def putRotation (r : Rotation UInt32) : List UInt8 :=
  putUint32 r.x ++ (putUint32 r.y ++ (putUint32 r.z ++ putUint32 r.w))

def putCollider (c : Collider) : List UInt8 :=
  putUint32 c.radius ++ (putUint32 c.width ++ (putUint32 c.height ++ (putUint32 c.depth ++
    ([c.layer] ++ [c.shape]))))

def putComponent (c : ComponentSlice) : List UInt8 :=
  leBytes 2 c.id.toNat ++ (leBytes 2 c.data.length ++ c.data)

def putHead (f : TransferFrame) : List UInt8 :=
  putUint32 f.networkID ++ (putUint32 f.epoch ++ (putUint32 f.streamGeneration ++
    ([f.entityType] ++ (putUint32 f.connID ++ [UInt8.ofNat f.gatewayID.length]))))

def putMiddle (f : TransferFrame) : List UInt8 :=
  putUint32 f.gatewayConnID ++ [UInt8.ofNat f.username.length]

def putTail (f : TransferFrame) : List UInt8 :=
  f.userID.1 ++ (putVec3 f.pos ++ (putVec3 f.vel ++ (putRotation f.rotation ++
    (putCollider f.collider ++ (putUint32 f.cellX.toUInt32 ++ (putUint32 f.cellY.toUInt32 ++
      (putUint32 f.debugFlags ++ leBytes 2 f.components.length)))))))

def marshalTransferFrame (f : TransferFrame) : Except MarshalError (List UInt8) :=
  if 255 < f.gatewayID.length then .error (.gatewayID f.gatewayID.length)
  else if 255 < f.username.length then .error (.username f.username.length)
  else if 65535 < f.components.length then .error (.componentCount f.components.length)
  else
    match f.components.findIdx? fun c => 65535 < c.data.length with
    | some i => .error (.componentData i ((f.components.map (·.data.length)).getD i 0))
    | none =>
      .ok (putHead f ++ (f.gatewayID ++ (putMiddle f ++ (f.username ++ (putTail f ++
        f.components.flatMap putComponent)))))

/-! ### Unmarshalling -/

/-- What stops a reader: a read past the end, where the source panics, or an error. -/
inductive ReadError
  | outOfBounds
  | short (got : ℕ)
  | gatewayID (n : ℕ)
  | username (n : ℕ)
  | componentCount (n : ℕ)
  | componentHeader (i : ℕ)
  | componentData (i : ℕ)
deriving DecidableEq

instance : Inhabited ReadError := ⟨.outOfBounds⟩

def headerSize : ℕ := 111

def postUsernameSize : ℕ := 88

abbrev TransferReader (α : Type) : Type := ByteReader ReadError α

def readVec3 : TransferReader (Vec3 UInt32) := do
  let x ← leUInt32
  let y ← leUInt32
  let z ← leUInt32
  return ⟨x, y, z⟩

def readRotation : TransferReader (Rotation UInt32) := do
  let x ← leUInt32
  let y ← leUInt32
  let z ← leUInt32
  let w ← leUInt32
  return ⟨x, y, z, w⟩

def readCollider : TransferReader Collider := do
  let radius ← leUInt32
  let width ← leUInt32
  let height ← leUInt32
  let depth ← leUInt32
  let layer ← byte
  let shape ← byte
  return ⟨radius, width, height, depth, layer, validShape shape⟩

def readUUID : TransferReader UUID := fun bs =>
  if h : 16 ≤ bs.length then .ok (⟨bs.take 16, by simpa using h⟩, bs.drop 16)
  else .error .outOfBounds

def readComponents : ℕ → ℕ → TransferReader (List ComponentSlice)
  | _, 0 => return []
  | i, n + 1 => do
    need 4 (.componentHeader i)
    let id ← leUInt16
    let dlen ← le 2
    need dlen (.componentData i)
    let data ← take dlen
    let components ← readComponents (i + 1) n
    return ⟨id, data⟩ :: components

def unmarshalTransferFrame : TransferReader TransferFrame := do
  let got ← remaining
  need headerSize (.short got)
  let networkID ← leUInt32
  let epoch ← leUInt32
  let streamGeneration ← leUInt32
  let entityType ← byte
  let connID ← leUInt32
  let gwIDLen ← byte
  need (gwIDLen.toNat + 4 + 1) (.gatewayID gwIDLen.toNat)
  let gatewayID ← take gwIDLen.toNat
  let gatewayConnID ← leUInt32
  let nameLen ← byte
  need (nameLen.toNat + postUsernameSize) (.username nameLen.toNat)
  let username ← take nameLen.toNat
  let userID ← readUUID
  let pos ← readVec3
  let vel ← readVec3
  let rotation ← readRotation
  let collider ← readCollider
  let cellX ← leUInt32
  let cellY ← leUInt32
  let debugFlags ← leUInt32
  let count ← le 2
  let left ← remaining
  ensure (count ≤ left / 4) (.componentCount count)
  let components ← readComponents 0 count
  return { connID, streamGeneration, gatewayID, gatewayConnID, username, userID, networkID, epoch,
           entityType, pos, vel, rotation, collider, cellX := cellX.toInt32, cellY := cellY.toInt32,
           debugFlags, components }

def TransferPlayer.zero : TransferPlayer := ⟨0, 0, [], 0, [], UUID.nil⟩

/-- `PeekTransferPlayer`, which returns what it has read so far where the bytes end too early. -/
def peekTransferPlayer : TransferReader TransferPlayer := do
  let got ← remaining
  if got < 4 + 4 + 4 + 1 + 4 + 1 + 4 + 1 then return .zero else
  let _ ← take (4 + 4)
  let streamGeneration ← leUInt32
  let _ ← take 1
  let srcConnID ← leUInt32
  if srcConnID = 0 then return .zero else
  let gwIDLen ← byte
  let left ← remaining
  if left < gwIDLen.toNat + 4 + 1 then
    return { TransferPlayer.zero with connID := srcConnID, streamGeneration } else
  let gatewayID ← take gwIDLen.toNat
  let gatewayConnID ← leUInt32
  let nameLen ← byte
  let left ← remaining
  if left < nameLen.toNat + 16 then
    return { TransferPlayer.zero with
             connID := srcConnID, streamGeneration, gatewayID, gatewayConnID } else
  let username ← take nameLen.toNat
  let userID ← readUUID
  return ⟨srcConnID, streamGeneration, gatewayID, gatewayConnID, username, userID⟩

/-! ### What was marshalled is read back -/

lemma reads_vec3 (v : Vec3 UInt32) : Reads readVec3 (putVec3 v) v :=
  (reads_leUInt32 _).bind ((reads_leUInt32 _).bind ((reads_leUInt32 _).map _))

lemma reads_rotation (r : Rotation UInt32) : Reads readRotation (putRotation r) r :=
  (reads_leUInt32 _).bind ((reads_leUInt32 _).bind ((reads_leUInt32 _).bind
    ((reads_leUInt32 _).map _)))

lemma reads_collider (c : Collider) :
    Reads readCollider (putCollider c) { c with shape := validShape c.shape } := by
  refine (reads_leUInt32 _).bind ((reads_leUInt32 _).bind ((reads_leUInt32 _).bind ?_))
  exact (reads_leUInt32 _).bind ((reads_byte _).bind ((reads_byte _).map _))

lemma reads_uuid (u : UUID) : Reads readUUID u.1 u := by
  intro rest
  have hlen : 16 ≤ (u.1 ++ rest).length := by simp [u.2]
  have htake : (u.1 ++ rest).take 16 = u.1 := List.take_left' u.2
  have hdrop : (u.1 ++ rest).drop 16 = rest := List.drop_left' u.2
  unfold readUUID
  rw [dif_pos hlen]
  simp only [htake, hdrop]

lemma length_putComponent (c : ComponentSlice) : 4 ≤ (putComponent c).length := by
  simp [putComponent]
  omega

lemma reads_components {cs : List ComponentSlice} (h : ∀ c ∈ cs, c.data.length ≤ 65535) (i : ℕ) :
    Reads (readComponents i cs.length) (cs.flatMap putComponent) cs := by
  induction cs generalizing i with
  | nil => exact reads_pure []
  | cons c cs ih =>
    have hdata : c.data.length < 256 ^ 2 := Nat.lt_succ_of_le (h c List.mem_cons_self)
    have htail := ih (fun c' hc' => h c' (List.mem_cons_of_mem _ hc')) (i + 1)
    have hbytes : (c :: cs).flatMap putComponent = leBytes 2 c.id.toNat ++
        (leBytes 2 c.data.length ++ (c.data ++ cs.flatMap putComponent)) := by
      simp [putComponent]
    rw [hbytes]
    refine Reads.need (by simp; omega) ?_
    refine (reads_leUInt16 _).bind ((reads_le hdata).bind (Reads.need (by simp) ?_))
    exact (reads_take _).bind (htail.map _)

/-- What the marshaller accepts. -/
structure Accepted (f : TransferFrame) : Prop where
  gatewayID : f.gatewayID.length ≤ 255
  username : f.username.length ≤ 255
  count : f.components.length ≤ 65535
  data : ∀ c ∈ f.components, c.data.length ≤ 65535

lemma marshalTransferFrame_eq_ok {f : TransferFrame} {bytes : List UInt8} :
    marshalTransferFrame f = .ok bytes ↔ Accepted f ∧
      bytes = putHead f ++ (f.gatewayID ++ (putMiddle f ++ (f.username ++ (putTail f ++
        f.components.flatMap putComponent)))) := by
  unfold marshalTransferFrame
  constructor
  · intro h
    split at h
    · cases h
    split at h
    · cases h
    split at h
    · cases h
    split at h
    · cases h
    rename_i hgateway husername hcount _ hdata
    refine ⟨⟨by omega, by omega, by omega, fun c hc => ?_⟩, (Except.ok.inj h).symm⟩
    have hsmall := List.findIdx?_eq_none_iff.mp hdata c hc
    simpa using hsmall
  · rintro ⟨⟨hgateway, husername, hcount, hdata⟩, rfl⟩
    have hnone : f.components.findIdx? (fun c => decide (65535 < c.data.length)) = none := by
      refine List.findIdx?_eq_none_iff.mpr fun c hc => ?_
      simpa using hdata c hc
    rw [if_neg (by omega), if_neg (by omega), if_neg (by omega), hnone]

def TransferFrame.clamped (f : TransferFrame) : TransferFrame :=
  { f with collider := { f.collider with shape := validShape f.collider.shape } }

lemma reads_frame {f : TransferFrame} (h : Accepted f) :
    Reads unmarshalTransferFrame (putHead f ++ (f.gatewayID ++ (putMiddle f ++ (f.username ++
      (putTail f ++ f.components.flatMap putComponent))))) f.clamped := by
  have hgateway : (UInt8.ofNat f.gatewayID.length).toNat = f.gatewayID.length := by
    have := h.gatewayID
    simp
    omega
  have husername : (UInt8.ofNat f.username.length).toNat = f.username.length := by
    have := h.username
    simp
    omega
  have hcount : f.components.length < 256 ^ 2 := Nat.lt_succ_of_le h.count
  have hsum : 4 * f.components.length ≤ (f.components.flatMap putComponent).length := by
    induction f.components with
    | nil => simp
    | cons c cs ih =>
      have := length_putComponent c
      simp only [List.length_cons, List.flatMap_cons, List.length_append]
      omega
  simp only [putHead, putMiddle, putTail, List.append_assoc]
  refine Reads.remaining fun got hgot => Reads.need ?_ ?_
  · simp [headerSize, putUint32, putVec3, putRotation, putCollider, f.userID.2]
    omega
  refine (reads_leUInt32 _).bind ((reads_leUInt32 _).bind ((reads_leUInt32 _).bind ?_))
  refine (reads_byte _).bind ((reads_leUInt32 _).bind ((reads_byte _).bind ?_))
  rw [hgateway]
  refine Reads.need ?_ ((reads_take _).bind ?_)
  · simp only [List.length_append, putUint32, length_leBytes, List.length_singleton]
    omega
  refine (reads_leUInt32 _).bind ((reads_byte _).bind ?_)
  rw [husername]
  refine Reads.need ?_ ((reads_take _).bind ?_)
  · simp [postUsernameSize, putUint32, putVec3, putRotation, putCollider, f.userID.2]
    omega
  refine (reads_uuid _).bind
    ((reads_vec3 _).bind ((reads_vec3 _).bind ((reads_rotation _).bind ?_)))
  refine (reads_collider _).bind ((reads_leUInt32 _).bind ((reads_leUInt32 _).bind ?_))
  refine (reads_leUInt32 _).bind ((reads_le hcount).bind (Reads.remaining fun left hleft => ?_))
  refine Reads.ensure (by simp; omega) ?_
  have hread := (reads_components h.data 0).map fun components =>
    { f.clamped with components := components }
  simpa [TransferFrame.clamped] using hread

/-! ### No read past the end -/

lemma covers_uuid : Covers 16 readUUID := fun s hs => ⟨⟨s.take 16, by simpa using hs⟩, dif_pos hs⟩

lemma covers_vec3 : Covers 12 readVec3 :=
  covers_leUInt32.bind fun _ => covers_leUInt32.bind fun _ => covers_leUInt32.bind fun _ =>
    covers_pure _

lemma covers_rotation : Covers 16 readRotation :=
  covers_leUInt32.bind fun _ => covers_leUInt32.bind fun _ => covers_leUInt32.bind fun _ =>
    covers_leUInt32.bind fun _ => covers_pure _

lemma covers_collider : Covers 18 readCollider :=
  covers_leUInt32.bind fun _ => covers_leUInt32.bind fun _ => covers_leUInt32.bind fun _ =>
    covers_leUInt32.bind fun _ => covers_byte.bind fun _ => covers_byte.bind fun _ => covers_pure _

lemma safe_components (i n : ℕ) : Safe 0 (readComponents i n) := by
  induction n generalizing i with
  | zero => exact (covers_pure _).safe
  | succ n ih =>
    refine need nofun ?_
    show Safe (2 + (2 + 0)) _
    refine bind_safe covers_leUInt16 fun id => ?_
    refine bind_safe (covers_le 2) fun dlen => ?_
    refine need nofun ?_
    refine (covers_take dlen).safe.bind fun data => ?_
    exact (ih (i + 1)).bind fun _ => (covers_pure _).safe

lemma safe_unmarshalTransferFrame : Safe 0 unmarshalTransferFrame := by
  refine remaining fun got _ => need nofun ?_
  refine mono ?_ (show 4 + (4 + (4 + (1 + (4 + (1 + 0))))) ≤ headerSize by decide)
  refine bind_safe covers_leUInt32 fun networkID => ?_
  refine bind_safe covers_leUInt32 fun epoch => ?_
  refine bind_safe covers_leUInt32 fun streamGeneration => ?_
  refine bind_safe covers_byte fun entityType => ?_
  refine bind_safe covers_leUInt32 fun connID => ?_
  refine bind_safe covers_byte fun gwIDLen => ?_
  -- the gateway's identifier, and the fixed part after it
  refine need nofun ?_
  show Safe (gwIDLen.toNat + (4 + (1 + 0))) _
  refine bind_safe (covers_take _) fun gatewayID => ?_
  refine bind_safe covers_leUInt32 fun gatewayConnID => ?_
  refine bind_safe covers_byte fun nameLen => ?_
  -- the name, and all of the fixed part
  refine need nofun ?_
  show Safe (nameLen.toNat + (16 + (12 + (12 + (16 + (18 + (4 + (4 + (4 + (2 + 0)))))))))) _
  refine bind_safe (covers_take _) fun username => ?_
  refine bind_safe covers_uuid fun userID => ?_
  refine bind_safe covers_vec3 fun pos => ?_
  refine bind_safe covers_vec3 fun vel => ?_
  refine bind_safe covers_rotation fun rotation => ?_
  refine bind_safe covers_collider fun collider => ?_
  refine bind_safe covers_leUInt32 fun cellX => ?_
  refine bind_safe covers_leUInt32 fun cellY => ?_
  refine bind_safe covers_leUInt32 fun debugFlags => ?_
  refine bind_safe (covers_le 2) fun count => ?_
  refine remaining fun left _ => ensure nofun ?_
  exact ((safe_components 0 count).bind fun _ => (covers_pure _).safe).mono (Nat.zero_le left)

lemma safe_peekTransferPlayer : Safe 0 peekTransferPlayer := by
  refine remaining fun got _ => ?_
  split
  · exact (covers_pure _).safe.mono (Nat.zero_le got)
  refine mono ?_ (show 8 + (4 + (1 + (4 + (1 + 0)))) ≤ got by omega)
  refine bind_safe (covers_take _) fun _ => ?_
  refine bind_safe covers_leUInt32 fun streamGeneration => ?_
  refine bind_safe (covers_take _) fun _ => ?_
  refine bind_safe covers_leUInt32 fun srcConnID => ?_
  split
  · exact (covers_pure _).safe.mono (Nat.zero_le _)
  refine bind_safe covers_byte fun gwIDLen => ?_
  refine remaining fun left _ => ?_
  split
  · exact (covers_pure _).safe.mono (Nat.zero_le left)
  refine mono ?_ (show gwIDLen.toNat + (4 + (1 + 0)) ≤ left by omega)
  refine bind_safe (covers_take _) fun gatewayID => ?_
  refine bind_safe covers_leUInt32 fun gatewayConnID => ?_
  refine bind_safe covers_byte fun nameLen => ?_
  refine remaining fun left _ => ?_
  split
  · exact (covers_pure _).safe.mono (Nat.zero_le left)
  refine mono ?_ (show nameLen.toNat + (16 + 0) ≤ left by omega)
  refine bind_safe (covers_take _) fun username => ?_
  exact bind_safe covers_uuid fun userID => (covers_pure _).safe

/-! ### Peeking and unmarshalling -/

/-- What `PeekTransferPlayer` is to report for a frame: nothing unless it is a player's. -/
def TransferFrame.peeked (f : TransferFrame) : TransferPlayer :=
  if f.connID = 0 then .zero else f.toTransferPlayer

lemma peek_of_unmarshal {data rest : List UInt8} {f : TransferFrame}
    (h : unmarshalTransferFrame data = .ok (f, rest)) :
    ∃ rest', peekTransferPlayer data = .ok (f.peeked, rest') := by
  obtain ⟨got, s, hs, h⟩ := bind_eq_ok.mp h
  obtain ⟨rfl, rfl⟩ := Prod.mk.inj (Except.ok.inj hs)
  obtain ⟨_, s, hs, h⟩ := bind_eq_ok.mp h
  obtain ⟨hlen, rfl⟩ := need_eq_ok.mp hs
  obtain ⟨networkID, s₁, hs₁, h⟩ := bind_eq_ok.mp h
  obtain ⟨epoch, s₂, hs₂, h⟩ := bind_eq_ok.mp h
  obtain ⟨streamGeneration, s₃, hs₃, h⟩ := bind_eq_ok.mp h
  obtain ⟨entityType, s₄, hs₄, h⟩ := bind_eq_ok.mp h
  obtain ⟨connID, s₅, hs₅, h⟩ := bind_eq_ok.mp h
  obtain ⟨gwIDLen, s₆, hs₆, h⟩ := bind_eq_ok.mp h
  obtain ⟨_, t, ht, h⟩ := bind_eq_ok.mp h
  obtain ⟨hgateway, rfl⟩ := need_eq_ok.mp ht
  obtain ⟨gatewayID, s₇, hs₇, h⟩ := bind_eq_ok.mp h
  obtain ⟨gatewayConnID, s₈, hs₈, h⟩ := bind_eq_ok.mp h
  obtain ⟨nameLen, s₉, hs₉, h⟩ := bind_eq_ok.mp h
  obtain ⟨_, t, ht, h⟩ := bind_eq_ok.mp h
  obtain ⟨hname, rfl⟩ := need_eq_ok.mp ht
  obtain ⟨username, s₁₀, hs₁₀, h⟩ := bind_eq_ok.mp h
  obtain ⟨userID, s₁₁, hs₁₁, h⟩ := bind_eq_ok.mp h
  -- the rest of the frame does not change the player's fields
  have hplayer : f.toTransferPlayer =
      ⟨connID, streamGeneration, gatewayID, gatewayConnID, username, userID⟩ := by
    refine (?_ : Returns _ fun f : TransferFrame => f.toTransferPlayer = _) s₁₁ f rest h
    refine returns_true.bind fun _ _ => returns_true.bind fun _ _ => returns_true.bind fun _ _ => ?_
    refine returns_true.bind fun _ _ => returns_true.bind fun _ _ => returns_true.bind fun _ _ => ?_
    refine returns_true.bind fun _ _ => returns_true.bind fun _ _ => returns_true.bind fun _ _ => ?_
    exact returns_true.bind fun _ _ => returns_true.bind fun _ _ => returns_pure rfl
  -- the bytes that `PeekTransferPlayer` jumps over
  have hskip : take (4 + 4) data = (.ok (data.take 8, s₂) : Except ReadError _) := by
    obtain ⟨-, rfl⟩ := takes_leUInt32 _ _ _ hs₁
    obtain ⟨hle, rfl⟩ := takes_leUInt32 _ _ _ hs₂
    rw [List.length_drop] at hle
    rw [List.drop_drop]
    exact if_pos (show 8 ≤ data.length by omega)
  have hskip' : take 1 s₃ = (.ok (s₃.take 1, s₄) : Except ReadError _) := by
    obtain ⟨hle, rfl⟩ := takes_byte _ _ _ hs₄
    exact if_pos hle
  unfold TransferFrame.peeked
  rw [hplayer]
  refine ⟨if connID = 0 then s₅ else s₁₁, bind_eq_ok.mpr ⟨_, data, rfl, ?_⟩⟩
  rw [if_neg (by rw [headerSize] at hlen; omega)]
  refine bind_eq_ok.mpr ⟨_, s₂, hskip, bind_eq_ok.mpr ⟨_, s₃, hs₃, ?_⟩⟩
  refine bind_eq_ok.mpr ⟨_, s₄, hskip', bind_eq_ok.mpr ⟨_, s₅, hs₅, ?_⟩⟩
  by_cases hzero : connID = 0
  -- an entity without a player: the peek ends here
  · simp only [if_pos hzero]
    rfl
  simp only [if_neg hzero]
  refine bind_eq_ok.mpr ⟨_, s₆, hs₆, bind_eq_ok.mpr ⟨_, s₆, rfl, ?_⟩⟩
  rw [if_neg (by omega)]
  refine bind_eq_ok.mpr ⟨_, s₇, hs₇, bind_eq_ok.mpr ⟨_, s₈, hs₈, ?_⟩⟩
  refine bind_eq_ok.mpr ⟨_, s₉, hs₉, bind_eq_ok.mpr ⟨_, s₉, rfl, ?_⟩⟩
  rw [if_neg (by rw [postUsernameSize] at hname; omega)]
  refine bind_eq_ok.mpr ⟨_, s₁₀, hs₁₀, bind_eq_ok.mpr ⟨_, s₁₁, hs₁₁, ?_⟩⟩
  rfl

/-- **The codec.** A frame that the marshaller accepts is read back with its shape clamped. Neither
reader reads past the end, and `PeekTransferPlayer` agrees with every frame that can be read. -/
theorem transferFrame_codec :
    (∀ f bytes, marshalTransferFrame f = .ok bytes →
      (unmarshalTransferFrame bytes = .ok (f.clamped, [])) ∧
        ∃ rest, peekTransferPlayer bytes = .ok (f.peeked, rest)) ∧
      ∀ data, unmarshalTransferFrame data ≠ .error .outOfBounds ∧
        peekTransferPlayer data ≠ .error .outOfBounds ∧
        ∀ f rest, unmarshalTransferFrame data = .ok (f, rest) →
          ∃ rest', peekTransferPlayer data = .ok (f.peeked, rest') := by
  refine ⟨fun f bytes hbytes => ?_, fun data => ⟨?_, ?_, ?_⟩⟩
  · obtain ⟨haccepted, rfl⟩ := marshalTransferFrame_eq_ok.mp hbytes
    have hread := reads_frame haccepted []
    rw [List.append_nil] at hread
    have hpeek := peek_of_unmarshal hread
    exact ⟨hread, hpeek⟩
  · exact safe_unmarshalTransferFrame data (Nat.zero_le _)
  · exact safe_peekTransferPlayer data (Nat.zero_le _)
  · exact fun f rest h => peek_of_unmarshal h

/-- An entity without a player that still has a stream generation, with a shape of a later build. -/
def strayFrame : TransferFrame where
  connID := 0
  streamGeneration := 5
  gatewayID := []
  gatewayConnID := 0
  username := []
  userID := UUID.nil
  networkID := 1
  epoch := 1
  entityType := 0
  pos := ⟨0, 0, 0⟩
  vel := ⟨0, 0, 0⟩
  rotation := ⟨0, 0, 0, 0⟩
  collider := ⟨0, 0, 0, 0, 0, 7⟩
  cellX := 0
  cellY := 0
  debugFlags := 0
  components := []

lemma accepted_strayFrame : Accepted strayFrame :=
  ⟨Nat.zero_le _, Nat.zero_le _, Nat.zero_le _, fun _ hc => absurd hc List.not_mem_nil⟩

/-- A player named `ann` behind gateway `gw`, with two components. -/
def playerFrame : TransferFrame :=
  { strayFrame with
    connID := 3
    gatewayID := [103, 119]
    gatewayConnID := 9
    username := [97, 110, 110]
    pos := ⟨0x3f800000, 0, 0xbf800000⟩
    collider := ⟨0x3f800000, 0, 0, 1, 2, 1⟩
    cellX := -1
    components := [⟨4, [1, 2, 3]⟩, ⟨5, []⟩] }

lemma accepted_playerFrame : Accepted playerFrame := by
  constructor <;> decide

theorem transferFrame_codec_player : ∃ bytes, marshalTransferFrame playerFrame = .ok bytes ∧
    unmarshalTransferFrame bytes = .ok (playerFrame, []) ∧
      ∃ rest, peekTransferPlayer bytes = .ok (playerFrame.toTransferPlayer, rest) := by
  have hbytes := marshalTransferFrame_eq_ok.mpr ⟨accepted_playerFrame, rfl⟩
  exact ⟨_, hbytes, transferFrame_codec.1 _ _ hbytes⟩

/-- **What does not come back**: the shape, and the stream generation by `PeekTransferPlayer`. -/
theorem strayFrame_differs : ∃ bytes, marshalTransferFrame strayFrame = .ok bytes ∧
    (¬ ∃ rest, unmarshalTransferFrame bytes = .ok (strayFrame, rest)) ∧
      ¬ ∃ rest, peekTransferPlayer bytes = .ok (strayFrame.toTransferPlayer, rest) := by
  have hread := reads_frame accepted_strayFrame []
  obtain ⟨rest, hpeek⟩ := peek_of_unmarshal hread
  refine ⟨_, marshalTransferFrame_eq_ok.mpr ⟨accepted_strayFrame, rfl⟩, ?_, ?_⟩
  · rintro ⟨rest', h⟩
    have heq := (Prod.mk.inj (Except.ok.inj (hread.symm.trans h))).1
    exact absurd heq (by decide)
  · rintro ⟨rest', h⟩
    have heq := (Prod.mk.inj (Except.ok.inj (hpeek.symm.trans h))).1
    exact absurd heq (by decide)

end Mmokit.TransferCodec
