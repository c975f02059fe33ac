/-
The binary format of world frames (`pkg/quantize/wireformat.go`).

A frame has a header with four 16-bit counts, the full entries, the delta entries, the removed and
the exited identifiers, and a trailer with the acknowledged input if the header says so. The
encoder writes the low 16 bits of each count and length and checks none of them.
-/
import Mmokit.Library.ByteReader

namespace Mmokit

open ByteReader

def frameFlagInputAck : UInt32 := 2

structure FullEntry where
  netID : UInt32
  epoch : UInt32
  entityType : UInt8
  producedAtMs : UInt64
  snapshot : List UInt8
  /-- Absent and empty initial data are the same. -/
  initialData : List UInt8
deriving DecidableEq

structure DeltaEntry where
  netID : UInt32
  epoch : UInt32
  entityType : UInt8
  producedAtMs : UInt64
  data : List UInt8
deriving DecidableEq

/-- A frame. -/
structure WorldFrame where
  tick : UInt32
  seq : UInt32
  flags : UInt32
  full : List FullEntry
  deltas : List DeltaEntry
  removed : List UInt32
  exited : List UInt32
  inputAck : Option UInt32
deriving DecidableEq

/-! ### Encoding -/

def appendUint16 (n : ℕ) : List UInt8 := beBytes 2 n

def appendUint32 (v : UInt32) : List UInt8 := beBytes 4 v.toNat

def appendUint64 (v : UInt64) : List UInt8 := beBytes 8 v.toNat

def appendPayload (bytes : List UInt8) : List UInt8 := appendUint16 bytes.length ++ bytes

def FullEntry.encode (f : FullEntry) : List UInt8 :=
  appendUint32 f.netID ++
    (appendUint32 f.epoch ++ ([f.entityType] ++ (appendUint64 f.producedAtMs ++
    (appendPayload f.snapshot ++ appendPayload f.initialData))))

def DeltaEntry.encode (d : DeltaEntry) : List UInt8 :=
  appendUint32 d.netID ++
    (appendUint32 d.epoch ++ ([d.entityType] ++ (appendUint64 d.producedAtMs ++
    appendPayload d.data)))

namespace WorldFrame

def sentFlags (f : WorldFrame) : UInt32 :=
  if f.inputAck.isSome then f.flags ||| frameFlagInputAck else f.flags &&& ~~~frameFlagInputAck

def encodeHeader (f : WorldFrame) : List UInt8 :=
  appendUint32 f.tick ++ (appendUint32 f.seq ++ (appendUint32 f.sentFlags ++
    (appendUint16 f.full.length ++ (appendUint16 f.deltas.length ++
      (appendUint16 f.removed.length ++ appendUint16 f.exited.length)))))

def encodeInputAck (f : WorldFrame) : List UInt8 := (f.inputAck.map appendUint32).getD []

def encode (f : WorldFrame) : List UInt8 :=
  f.encodeHeader ++ (f.full.flatMap FullEntry.encode ++ (f.deltas.flatMap DeltaEntry.encode ++
    (f.removed.flatMap appendUint32 ++ (f.exited.flatMap appendUint32 ++ f.encodeInputAck))))

end WorldFrame

/-! ### Decoding -/

structure FrameHeader where
  tick : UInt32
  seq : UInt32
  flags : UInt32
  fullCount : ℕ
  deltaCount : ℕ
  removedCount : ℕ
  exitedCount : ℕ
deriving DecidableEq

abbrev FrameReader (α : Type) : Type := ByteReader Unit α

namespace FrameDecoder

def readUint8 : FrameReader UInt8 := byte

def readUint16 : FrameReader ℕ := be 2

def readUint32 : FrameReader UInt32 := beUInt32

def readUint64 : FrameReader UInt64 := beUInt64

def readPayload : FrameReader (List UInt8) := do
  let n ← readUint16
  take n

def header : FrameReader FrameHeader := do
  let tick ← readUint32
  let seq ← readUint32
  let flags ← readUint32
  let fullCount ← readUint16
  let deltaCount ← readUint16
  let removedCount ← readUint16
  let exitedCount ← readUint16
  return ⟨tick, seq, flags, fullCount, deltaCount, removedCount, exitedCount⟩

def nextFull : FrameReader FullEntry := do
  let netID ← readUint32
  let epoch ← readUint32
  let entityType ← readUint8
  let producedAtMs ← readUint64
  let snapshot ← readPayload
  let initialData ← readPayload
  return ⟨netID, epoch, entityType, producedAtMs, snapshot, initialData⟩

def nextDelta : FrameReader DeltaEntry := do
  let netID ← readUint32
  let epoch ← readUint32
  let entityType ← readUint8
  let producedAtMs ← readUint64
  let data ← readPayload
  return ⟨netID, epoch, entityType, producedAtMs, data⟩

/-- The trailer is read if the flags announce it and there are enough bytes. -/
def nextInputAck (flags : UInt32) : FrameReader (Option UInt32) := fun bs =>
  if flags &&& frameFlagInputAck = 0 ∨ bs.length < 4 then .ok (none, bs)
  else (do return some (← readUint32) : FrameReader (Option UInt32)) bs

def decodeFrame : FrameReader WorldFrame := do
  let h ← header
  let full ← many nextFull h.fullCount
  let deltas ← many nextDelta h.deltaCount
  let removed ← many readUint32 h.removedCount
  let exited ← many readUint32 h.exitedCount
  let inputAck ← nextInputAck h.flags
  return ⟨h.tick, h.seq, h.flags, full, deltas, removed, exited, inputAck⟩

/-! ### Round trips -/

lemma reads_uint8 (v : UInt8) : Reads readUint8 [v] v := reads_byte v

lemma reads_uint16 {n : ℕ} (h : n < 65536) : Reads readUint16 (appendUint16 n) n := reads_be h

lemma reads_uint32 (v : UInt32) : Reads readUint32 (appendUint32 v) v := reads_beUInt32 v

lemma reads_uint64 (v : UInt64) : Reads readUint64 (appendUint64 v) v := reads_beUInt64 v

lemma reads_payload {bytes : List UInt8} (h : bytes.length < 65536) :
    Reads readPayload (appendPayload bytes) bytes :=
  (reads_uint16 h).bind (reads_take bytes)

end FrameDecoder

open FrameDecoder

def FullEntry.Fits (f : FullEntry) : Prop :=
  f.snapshot.length < 65536 ∧ f.initialData.length < 65536

def DeltaEntry.Fits (d : DeltaEntry) : Prop := d.data.length < 65536

/-- The counts fit their fields. -/
structure WorldFrame.Fits (f : WorldFrame) : Prop where
  fullCount : f.full.length < 65536
  deltaCount : f.deltas.length < 65536
  removedCount : f.removed.length < 65536
  exitedCount : f.exited.length < 65536
  full : ∀ e ∈ f.full, e.Fits
  deltas : ∀ e ∈ f.deltas, e.Fits

lemma reads_full {e : FullEntry} (h : e.Fits) : Reads nextFull e.encode e := by
  refine (reads_uint32 _).bind
    ((reads_uint32 _).bind ((reads_uint8 _).bind ((reads_uint64 _).bind ?_)))
  exact (reads_payload h.1).bind ((reads_payload h.2).map _)

lemma reads_delta {e : DeltaEntry} (h : e.Fits) : Reads nextDelta e.encode e := by
  refine (reads_uint32 _).bind
    ((reads_uint32 _).bind ((reads_uint8 _).bind ((reads_uint64 _).bind ?_)))
  exact (reads_payload h).map _

namespace WorldFrame

variable {f : WorldFrame}

lemma reads_header (h : f.Fits) : Reads header f.encodeHeader
    ⟨f.tick, f.seq, f.sentFlags, f.full.length, f.deltas.length, f.removed.length,
      f.exited.length⟩ := by
  refine (reads_uint32 _).bind ((reads_uint32 _).bind ((reads_uint32 _).bind ?_))
  refine (reads_uint16 h.fullCount).bind ((reads_uint16 h.deltaCount).bind ?_)
  exact (reads_uint16 h.removedCount).bind ((reads_uint16 h.exitedCount).map _)

/-! ### The bit that the encoder manages -/

lemma or_inputAck_and (flags : UInt32) :
    (flags ||| frameFlagInputAck) &&& frameFlagInputAck ≠ 0 := by
  intro h
  have hbit := congrArg (fun v => v.toBitVec.getLsbD 1) h
  simp [frameFlagInputAck] at hbit

lemma clear_inputAck_and (flags : UInt32) :
    (flags &&& ~~~frameFlagInputAck) &&& frameFlagInputAck = 0 := by
  rw [UInt32.and_assoc, UInt32.not_and_self, UInt32.and_zero]

lemma sentFlags_clear (f : WorldFrame) :
    f.sentFlags &&& ~~~frameFlagInputAck = f.flags &&& ~~~frameFlagInputAck := by
  unfold sentFlags
  split
  · refine UInt32.eq_of_toBitVec_eq (BitVec.eq_of_getLsbD_eq fun i hi => ?_)
    simp only [UInt32.toBitVec_and, UInt32.toBitVec_or, UInt32.toBitVec_not, BitVec.getLsbD_and,
      BitVec.getLsbD_or, BitVec.getLsbD_not]
    cases frameFlagInputAck.toBitVec.getLsbD i <;> simp
  · rw [UInt32.and_assoc, UInt32.and_self]

lemma reads_inputAck (f : WorldFrame) :
    Reads (nextInputAck f.sentFlags) f.encodeInputAck f.inputAck := by
  intro rest
  unfold nextInputAck encodeInputAck sentFlags
  cases hack : f.inputAck with
  | none => simp [clear_inputAck_and]
  | some ack =>
    have hread : Reads (do return some (← readUint32) : FrameReader (Option UInt32))
        (appendUint32 ack) (some ack) := (reads_uint32 ack).map some
    have hannounced : ¬ ((f.flags ||| frameFlagInputAck) &&& frameFlagInputAck = 0 ∨
        (appendUint32 ack ++ rest).length < 4) := by
      simp [or_inputAck_and, appendUint32]
    simp only [Option.isSome_some, if_true, Option.map_some, Option.getD_some]
    rw [if_neg hannounced]
    exact hread rest

/-! ### Frames -/

/-- The frame that comes back. -/
structure SameAs (f g : WorldFrame) : Prop where
  tick : g.tick = f.tick
  seq : g.seq = f.seq
  flags : g.flags &&& ~~~frameFlagInputAck = f.flags &&& ~~~frameFlagInputAck
  full : g.full = f.full
  deltas : g.deltas = f.deltas
  removed : g.removed = f.removed
  exited : g.exited = f.exited
  inputAck : g.inputAck = f.inputAck

lemma reads_encode (h : f.Fits) :
    Reads decodeFrame f.encode { f with flags := f.sentFlags } := by
  refine (reads_header h).bind ?_
  refine (reads_many fun e he => reads_full (h.full e he)).bind ?_
  refine (reads_many fun e he => reads_delta (h.deltas e he)).bind ?_
  refine (reads_many fun id _ => reads_uint32 id).bind ?_
  exact (reads_many fun id _ => reads_uint32 id).bind ((reads_inputAck f).map _)

lemma returns_payload : Returns readPayload fun bytes => bytes.length < 65536 := by
  refine (returns_be 2).bind fun n hn => ?_
  intro s bytes t heq
  rw [returns_take n s bytes t heq]
  exact hn

lemma returns_full : Returns nextFull FullEntry.Fits := by
  refine returns_true.bind fun _ _ => returns_true.bind fun _ _ => returns_true.bind fun _ _ => ?_
  refine returns_true.bind fun _ _ => returns_payload.bind fun _ hsnapshot => ?_
  exact returns_payload.bind fun _ hinitial => returns_pure ⟨hsnapshot, hinitial⟩

lemma returns_delta : Returns nextDelta DeltaEntry.Fits := by
  refine returns_true.bind fun _ _ => returns_true.bind fun _ _ => returns_true.bind fun _ _ => ?_
  exact returns_true.bind fun _ _ => returns_payload.bind fun _ hdata => returns_pure hdata

lemma returns_decodeFrame : Returns decodeFrame Fits := by
  have hheader : Returns header fun h => h.fullCount < 65536 ∧ h.deltaCount < 65536 ∧
      h.removedCount < 65536 ∧ h.exitedCount < 65536 := by
    refine returns_true.bind fun _ _ => returns_true.bind fun _ _ => returns_true.bind fun _ _ => ?_
    refine (returns_be 2).bind fun _ hfull => (returns_be 2).bind fun _ hdelta => ?_
    refine (returns_be 2).bind fun _ hremoved => (returns_be 2).bind fun _ hexited => ?_
    exact returns_pure ⟨hfull, hdelta, hremoved, hexited⟩
  refine hheader.bind fun h hh => ?_
  refine (returns_many returns_full _).bind fun full hfull => ?_
  refine (returns_many returns_delta _).bind fun deltas hdeltas => ?_
  refine (returns_many returns_true _).bind fun removed hremoved => ?_
  refine (returns_many returns_true _).bind fun exited hexited => ?_
  refine returns_true.bind fun ack _ => returns_pure ⟨?_, ?_, ?_, ?_, hfull.2, hdeltas.2⟩
  · exact hfull.1.trans_lt hh.1
  · exact hdeltas.1.trans_lt hh.2.1
  · exact hremoved.1.trans_lt hh.2.2.1
  · exact hexited.1.trans_lt hh.2.2.2

lemma Fits.of_sameAs {g : WorldFrame} (h : SameAs f g) (hg : g.Fits) : f.Fits where
  fullCount := h.full ▸ hg.fullCount
  deltaCount := h.deltas ▸ hg.deltaCount
  removedCount := h.removed ▸ hg.removedCount
  exitedCount := h.exited ▸ hg.exitedCount
  full := h.full ▸ hg.full
  deltas := h.deltas ▸ hg.deltas

/-- **Round trip.** The decoder gives a frame back exactly if its counts and lengths fit. -/
theorem decodeFrame_encode (f : WorldFrame) :
    (∃ g rest, decodeFrame f.encode = .ok (g, rest) ∧ SameAs f g) ↔ f.Fits := by
  constructor
  · rintro ⟨g, rest, hdecode, hsame⟩
    exact (returns_decodeFrame _ g rest hdecode).of_sameAs hsame
  intro h
  have hread := reads_encode h []
  rw [List.append_nil] at hread
  exact ⟨_, [], hread, ⟨rfl, rfl, f.sentFlags_clear, rfl, rfl, rfl, rfl, rfl⟩⟩

def ofRemoved (removed : List UInt32) : WorldFrame := ⟨0, 0, 0, [], [], removed, [], none⟩

/-- **Too many removed entities** come back as something else. -/
theorem decodeFrame_encode_removed :
    ¬ ∃ g rest, decodeFrame (ofRemoved (List.replicate 65536 1)).encode = .ok (g, rest) ∧
      SameAs (ofRemoved (List.replicate 65536 1)) g := by
  rintro ⟨g, rest, hdecode, hsame⟩
  have hfits := ((returns_decodeFrame _ g rest hdecode).of_sameAs hsame).removedCount
  rw [ofRemoved, List.length_replicate] at hfits
  exact absurd hfits (lt_irrefl _)

end WorldFrame

end Mmokit
