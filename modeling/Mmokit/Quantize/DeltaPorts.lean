/-
The three appliers of a delta: `Decode` in `pkg/quantize/delta.go`, `applyDelta` in
`pkg/quantize/ts/delta-decoder-core.ts` and `ApplyDelta` in `DeltaDecoderCore.cs`.

They differ in what happens outside of a buffer: Go panics, C# throws, and TypeScript reads
`undefined` and cuts subarrays short. They also differ in how the tail is put back: Go works in
place and grows its slice if it has to, the other two build a new array.
-/
import Mmokit.Quantize.DeltaEncoder

namespace Mmokit

open List Option UInt8

/-- `dst` with `src` written over it from `off` on. -/
def overwrite (dst : List UInt8) (off : ℕ) (src : List UInt8) : List UInt8 :=
  dst.take off ++ src ++ dst.drop (off + src.length)

lemma overwrite_append {a b src : List UInt8} {off : ℕ} (ha : a.length = off)
    (hb : b.length = src.length) (c : List UInt8) :
    overwrite (a ++ (b ++ c)) off src = a ++ (src ++ c) := by
  unfold overwrite
  rw [take_left' ha, ← drop_drop, drop_left' ha, drop_left' hb,
    append_assoc]

lemma overwrite_zero {b src : List UInt8} (hb : b.length = src.length) (c : List UInt8) :
    overwrite (b ++ c) 0 src = src ++ c := by
  simpa using overwrite_append (a := []) rfl hb c

/-- How a language reads a byte, tests a bit and copies bytes; `none` is a panic or an exception. -/
structure DeltaPort where
  byteAt : List UInt8 → ℕ → Option UInt8
  test : UInt8 → ℕ → Bool
  copy (src : List UInt8) (pos : ℕ) (dst : List UInt8) (off n : ℕ) : Option (List UInt8)

namespace DeltaPort

/-- Copying between checked ranges: both have to lie inside of their buffers. -/
def copyChecked (src : List UInt8) (pos : ℕ) (dst : List UInt8) (off n : ℕ) :
    Option (List UInt8) :=
  if off + n ≤ dst.length ∧ pos + n ≤ src.length then
    some (overwrite dst off ((src.drop pos).take n))
  else none

def testMask (b : UInt8) (j : ℕ) : Bool := b &&& (1 <<< ofNat j) ≠ 0

def testShift (b : UInt8) (j : ℕ) : Bool := b >>> ofNat j &&& 1 ≠ 0

def go : DeltaPort where
  byteAt data i := data[i]?
  test := testMask
  copy := copyChecked

def cSharp : DeltaPort where
  byteAt data i := data[i]?
  test := testShift
  copy := copyChecked

/-- A byte outside of an array is `undefined`, which is `0` for the bitwise operators; `subarray`
clamps its range, and `set` throws if the rest does not fit. -/
def typeScript : DeltaPort where
  byteAt data i := some (data.getD i 0)
  test := testShift
  copy src pos dst off n :=
    let sub := (src.drop pos).take n
    if off + sub.length ≤ dst.length then some (overwrite dst off sub) else none

variable (p : DeltaPort)

def bit (delta : List UInt8) (i : ℕ) : Option Bool :=
  (p.byteAt delta (i / 8)).map fun b => p.test b (i % 8)

def readUint16 (data : List UInt8) (offset : ℕ) : Option ℕ := do
  let hi ← p.byteAt data offset
  let lo ← p.byteAt data (offset + 1)
  some (hi.toNat <<< 8 ||| lo.toNat)

def applyFixed (delta : List UInt8) :
    List ℕ → ℕ → ℕ → ℕ → List UInt8 → Option (List UInt8 × ℕ)
  | [], _, _, pos, result => some (result, pos)
  | sz :: sizes, i, off, pos, result => do
    if ← p.bit delta i then
      let result ← p.copy delta pos result off sz
      applyFixed delta sizes (i + 1) (off + sz) (pos + sz) result
    else applyFixed delta sizes (i + 1) (off + sz) pos result

def rebuild (fixedSize : ℕ) (result delta : List UInt8) (dpos : ℕ) : Option (List UInt8) := do
  let newLen ← p.readUint16 delta dpos
  let rebuilt ← p.copy result 0 (replicate (fixedSize + 2 + newLen) 0) 0 fixedSize
  let rebuilt := rebuilt.set fixedSize (ofNat (newLen >>> 8))
  let rebuilt := rebuilt.set (fixedSize + 1) (ofNat newLen)
  p.copy delta (dpos + 2) rebuilt (fixedSize + 2) newLen

def applyDelta (fieldSizes : List ℕ) (hasVarTail : Bool) (baseline delta : List UInt8) :
    Option (List UInt8) := do
  let totalLogicalFields := fieldSizes.length + if hasVarTail then 1 else 0
  let bitmaskSize := (totalLogicalFields + 7) / 8
  let (result, dpos) ← p.applyFixed delta fieldSizes 0 0 bitmaskSize baseline
  if hasVarTail then
    if ← p.bit delta fieldSizes.length then p.rebuild fieldSizes.sum result delta dpos
    else some result
  else some result

end DeltaPort

/-- A byte slice of Go: what can be read of it, and the rest of the array behind it. -/
structure GoSlice where
  bytes : List UInt8
  spare : List UInt8
deriving DecidableEq

namespace GoSlice

def buf (s : GoSlice) : List UInt8 := s.bytes ++ s.spare

def ofBuf (buf : List UInt8) (n : ℕ) : GoSlice := ⟨buf.take n, buf.drop n⟩

end GoSlice

/-- The tail of `Decode`: `base` is resliced if the array behind it is long enough. -/
def DeltaEncoder.growTail (d : DeltaEncoder) (base : GoSlice) (delta : List UInt8) (pos : ℕ) :
    Option GoSlice := do
  let newLen ← DeltaPort.go.readUint16 delta pos
  let needed := d.fixedSize + 2 + newLen
  let base ←
    if needed ≤ base.buf.length then some (GoSlice.ofBuf base.buf needed)
    else do
      let grown ← DeltaPort.go.copy base.buf 0 (replicate needed 0) 0 d.fixedSize
      some ⟨grown, []⟩
  let bytes := overwrite base.bytes d.fixedSize (bigEndian16 newLen)
  let bytes ← DeltaPort.go.copy delta (pos + 2) bytes (d.fixedSize + 2) newLen
  some { base with bytes := bytes }

def DeltaEncoder.decodeInPlace (d : DeltaEncoder) (base : GoSlice) (delta : List UInt8) :
    Option GoSlice := do
  let (buf, pos) ← DeltaPort.go.applyFixed delta d.fieldSizes 0 0 d.bitmaskSize base.buf
  let base := GoSlice.ofBuf buf base.bytes.length
  if d.hasVarTail then
    if ← DeltaPort.go.bit delta d.fieldSizes.length then d.growTail base delta pos
    else some base
  else some base

namespace DeltaPort

open DeltaEncoder

/-! ### What the three runtimes have in common -/

/-- Inside of the buffers a runtime reads, tests and copies as the others do. -/
structure Lawful (p : DeltaPort) : Prop where
  byteAt_of_getElem? : ∀ {data : List UInt8} {i b}, data[i]? = some b → p.byteAt data i = some b
  test_eq : ∀ b {j}, j < 8 → p.test b j = testMask b j
  copy_of_le : ∀ {src dst : List UInt8} {pos off n}, off + n ≤ dst.length →
    pos + n ≤ src.length →
      p.copy src pos dst off n = some (overwrite dst off ((src.drop pos).take n))

lemma testShift_eq (b : UInt8) {j : ℕ} (hj : j < 8) : testShift b j = testMask b j := by
  have h : ∀ n : Fin 256, ∀ j : Fin 8,
      testShift (UInt8.ofNat n.val) j.val = testMask (UInt8.ofNat n.val) j.val := by
    decide +kernel
  have hb := h ⟨b.toNat, b.toNat_lt⟩ ⟨j, hj⟩
  rwa [UInt8.ofNat_toNat] at hb

lemma lawful_go : go.Lawful where
  byteAt_of_getElem? h := h
  test_eq _ _ _ := rfl
  copy_of_le hoff hpos := if_pos ⟨hoff, hpos⟩

lemma lawful_cSharp : cSharp.Lawful where
  byteAt_of_getElem? h := h
  test_eq b _ hj := testShift_eq b hj
  copy_of_le hoff hpos := if_pos ⟨hoff, hpos⟩

lemma lawful_typeScript : typeScript.Lawful where
  byteAt_of_getElem? h := by
    show some (getD _ _ _) = _
    rw [getD_eq_getElem?_getD, h]
    rfl
  test_eq b _ hj := testShift_eq b hj
  copy_of_le {src dst pos off n} hoff hpos := by
    refine if_pos ?_
    rw [length_take]
    omega

section Lawful

variable {p : DeltaPort} (hp : p.Lawful)
include hp

variable {delta : List UInt8}

lemma Lawful.bit_eq {i : ℕ} (hi : i / 8 < delta.length) :
    p.bit delta i = some (maskBit delta i) := by
  have hbyte : delta[i / 8]? = some (delta.getD (i / 8) 0) := by
    rw [getD_eq_getElem?_getD, getElem?_eq_getElem hi, getD_some]
  rw [bit, hp.byteAt_of_getElem? hbyte, map_some, hp.test_eq _ (Nat.mod_lt i (by decide))]
  rfl

lemma Lawful.readUint16_eq {rest : List UInt8} {pos n : ℕ} (hn : n < 65536)
    (h : delta.drop pos = bigEndian16 n ++ rest) : p.readUint16 delta pos = some n := by
  have hhi : delta[pos]? = some (ofNat (n / 256)) := by
    rw [← Nat.add_zero pos, ← getElem?_drop, h]
    rfl
  have hlo : delta[pos + 1]? = some (ofNat n) := by
    rw [← getElem?_drop, h]
    rfl
  simp only [readUint16, hp.byteAt_of_getElem? hhi, hp.byteAt_of_getElem? hlo, bind_eq_bind,
    bind_some, some.injEq, toNat_ofNat']
  rw [← Nat.shiftLeft_add_eq_or_of_lt (by omega : n % 2 ^ 8 < 2 ^ 8)]
  omega

/-- **The loop over the fixed fields.** If the mask has the bits of the comparison and the values
follow at `pos`, the fields of `curr` are put into their places and nothing else changes. -/
lemma Lawful.applyFixed_compareFields (sizes : List ℕ) (i pos : ℕ)
    (done prev curr rest : List UInt8) (hprev : sizes.sum ≤ prev.length)
    (hcurr : sizes.sum ≤ curr.length) (hpos : pos ≤ delta.length)
    (hvalues : delta.drop pos = (compareFields sizes prev curr).2 ++ rest)
    (hmask : ∀ j < sizes.length, (i + j) / 8 < delta.length ∧
      maskBit delta (i + j) = (compareFields sizes prev curr).1.getD j false) :
    ∃ pos' ≤ delta.length, delta.drop pos' = rest ∧
      p.applyFixed delta sizes i done.length pos (done ++ prev) =
        some (done ++ (curr.take sizes.sum ++ prev.drop sizes.sum), pos') := by
  induction sizes generalizing i pos done prev curr with
  | nil => exact ⟨pos, hpos, hvalues, by simp [applyFixed]⟩
  | cons sz sizes ih =>
    rw [sum_cons] at hprev hcurr ⊢
    obtain ⟨hbyte, hbit⟩ := hmask 0 (by simp)
    rw [Nat.add_zero] at hbyte hbit
    have hprev' : sizes.sum ≤ (prev.drop sz).length := by rw [length_drop]; omega
    have hcurr' : sizes.sum ≤ (curr.drop sz).length := by rw [length_drop]; omega
    have hlater : ∀ j < sizes.length, (i + 1 + j) / 8 < delta.length ∧
        maskBit delta (i + 1 + j) =
          (compareFields sizes (prev.drop sz) (curr.drop sz)).1.getD j false := by
      intro j hj
      have hj' := hmask (j + 1) (by simpa using hj)
      rw [getD_compareFields_succ] at hj'
      rwa [show i + 1 + j = i + (j + 1) by omega]
    have htake : (curr.take sz).length = sz := by rw [length_take]; omega
    have hfront : (done ++ curr.take sz).length = done.length + sz := by
      rw [length_append, htake]
    -- The field and what comes after it, as the rest of the loop leaves them.
    have hjoin : done ++ curr.take sz ++
        ((curr.drop sz).take sizes.sum ++ (prev.drop sz).drop sizes.sum) =
          done ++ (curr.take (sz + sizes.sum) ++ prev.drop (sz + sizes.sum)) := by
      rw [take_add, drop_drop, append_assoc, append_assoc]
    rw [applyFixed, hp.bit_eq hbyte, hbit]
    by_cases hsame : prev.take sz = curr.take sz
    · rw [compareFields_of_eq hsame] at hvalues ⊢
      obtain ⟨pos', hpos', hrest, hloop⟩ := ih (i + 1) pos (done ++ curr.take sz) (prev.drop sz)
        (curr.drop sz) hprev' hcurr' hpos hvalues hlater
      refine ⟨pos', hpos', hrest, ?_⟩
      rw [hfront, hjoin, append_assoc, ← hsame, take_append_drop] at hloop
      exact hloop
    · rw [compareFields_of_ne hsame] at hvalues ⊢
      rw [append_assoc] at hvalues
      have hroom : pos + sz ≤ delta.length := by
        have hlen := congrArg length hvalues
        rw [length_drop, length_append] at hlen
        omega
      have hvalues' : delta.drop (pos + sz) =
          (compareFields sizes (prev.drop sz) (curr.drop sz)).2 ++ rest := by
        rw [← drop_drop, hvalues, drop_left' htake]
      obtain ⟨pos', hpos', hrest, hloop⟩ := ih (i + 1) (pos + sz) (done ++ curr.take sz)
        (prev.drop sz) (curr.drop sz) hprev' hcurr' hroom hvalues' hlater
      refine ⟨pos', hpos', hrest, ?_⟩
      have hcopy : p.copy delta pos (done ++ prev) done.length sz =
          some (done ++ (curr.take sz ++ prev.drop sz)) := by
        rw [hp.copy_of_le (by rw [length_append]; omega) hroom, hvalues,
          take_left' htake]
        nth_rewrite 1 [← take_append_drop sz prev]
        rw [overwrite_append rfl (by rw [htake, length_take]; omega)]
      rw [hfront, hjoin, append_assoc] at hloop
      simp only [getD_cons_zero, bind_eq_bind, bind_some, if_true, hcopy]
      exact hloop

/-! ### Deltas of the encoder -/

variable {d : DeltaEncoder}

omit hp in
lemma byte_tail {prev curr : List UInt8} (h : d.encode prev curr = some delta)
    (hvar : d.hasVarTail = true) :
    d.fieldSizes.length / 8 < delta.length :=
  ((encode_eq_some h).1 _ (by simp [fieldCount, hvar])).1

lemma Lawful.applyFixed_encode {prev curr : List UInt8} (hprev : d.fixedSize ≤ prev.length)
    (hcurr : d.fixedSize ≤ curr.length) (h : d.encode prev curr = some delta) (spare : List UInt8) :
    ∃ pos ≤ delta.length, delta.drop pos = (d.compareTail prev curr).2 ∧
      p.applyFixed delta d.fieldSizes 0 0 d.bitmaskSize (prev ++ spare) =
        some (curr.take d.fixedSize ++ (prev ++ spare).drop d.fixedSize, pos) := by
  obtain ⟨hmask, hsize, hvalues⟩ := encode_eq_some h
  rw [← compareFields_append hprev spare] at hvalues
  refine hp.applyFixed_compareFields d.fieldSizes 0 d.bitmaskSize [] (prev ++ spare) curr _
    (by rw [length_append]; exact hprev.trans (Nat.le_add_right _ _)) hcurr hsize hvalues ?_
  intro j hj
  rw [Nat.zero_add, compareFields_append hprev, ← maskBit_field h hj]
  exact ⟨(hmask j (hj.trans_le (Nat.le_add_right _ _))).1, rfl⟩

variable {fixed : List UInt8} {fixedSize : ℕ}

lemma Lawful.copy_tail {tail dst : List UInt8} {pos : ℕ} (hpos : pos ≤ delta.length)
    (hdrop : delta.drop pos = bigEndian16 tail.length ++ tail) (hfixed : fixed.length = fixedSize)
    (hdst : dst.length = tail.length) :
    p.copy delta (pos + 2) (fixed ++ (bigEndian16 tail.length ++ dst)) (fixedSize + 2) tail.length =
      some (fixed ++ (bigEndian16 tail.length ++ tail)) := by
  have hlen := congrArg length hdrop
  simp only [length_drop, length_append, length_bigEndian16] at hlen
  have hfront : (fixed ++ bigEndian16 tail.length).length = fixedSize + 2 := by
    rw [length_append, hfixed, length_bigEndian16]
  have hover := overwrite_append hfront hdst []
  rw [append_nil, append_nil, append_assoc, append_assoc] at hover
  rw [hp.copy_of_le _ (by omega), ← drop_drop, hdrop,
    drop_left' (length_bigEndian16 _), take_length, hover]
  simp only [length_append, length_bigEndian16]
  omega

lemma Lawful.copy_fixed (hfixed : fixed.length = fixedSize) (old : List UInt8) (n : ℕ) :
    p.copy (fixed ++ old) 0 (replicate (fixedSize + 2 + n) 0) 0 fixedSize =
      some (fixed ++ (replicate 2 0 ++ replicate n 0)) := by
  rw [hp.copy_of_le (by rw [length_replicate]; omega)
    (by rw [length_append, hfixed]; omega), drop_zero, take_left' hfixed,
    replicate_add, replicate_add, append_assoc,
    overwrite_zero (by rw [hfixed, length_replicate])]

lemma Lawful.rebuild_eq {tail : List UInt8} {dpos : ℕ} (htail : tail.length < 65536)
    (hpos : dpos ≤ delta.length) (hdrop : delta.drop dpos = bigEndian16 tail.length ++ tail)
    (hfixed : fixed.length = fixedSize) (old : List UInt8) :
    p.rebuild fixedSize (fixed ++ old) delta dpos =
      some (fixed ++ (bigEndian16 tail.length ++ tail)) := by
  have hset : ((fixed ++ (replicate 2 0 ++ replicate tail.length 0)).set fixedSize
      (ofNat (tail.length >>> 8))).set (fixedSize + 1) (ofNat tail.length) =
        fixed ++ (bigEndian16 tail.length ++ replicate tail.length 0) := by
    rw [set_append_right _ _ hfixed.le, set_append_right _ _ (by omega), hfixed,
      Nat.sub_self, Nat.add_sub_cancel_left, Nat.shiftRight_eq_div_pow]
    rfl
  simp only [rebuild, hp.readUint16_eq htail hdrop, bind_eq_bind, bind_some,
    hp.copy_fixed hfixed, hset]
  exact hp.copy_tail hpos hdrop hfixed length_replicate

/-- **The ports.** A delta takes the snapshot that it was encoded against to the new one. -/
lemma Lawful.applyDelta_encode {prev curr : List UInt8} (hprev : d.WellFormed prev)
    (hcurr : d.WellFormed curr) (h : d.encode prev curr = some delta) :
    p.applyDelta d.fieldSizes d.hasVarTail prev delta = some curr := by
  obtain ⟨pos, hpos, hdrop, hloop⟩ :=
    hp.applyFixed_encode hprev.fixedSize_le hcurr.fixedSize_le h []
  rw [append_nil] at hloop
  have hloop' : p.applyFixed delta d.fieldSizes 0 0
      ((d.fieldSizes.length + (if d.hasVarTail then 1 else 0) + 7) / 8) prev = _ := hloop
  simp only [applyDelta, hloop', bind_eq_bind, bind_some]
  rcases tail_cases hprev hcurr h with ⟨hbit, hsame⟩ | ⟨hvar, hbit, tail, htail, hvalue, hnew⟩
  · by_cases hvar : d.hasVarTail = true
    · rw [if_pos hvar, hp.bit_eq (byte_tail h hvar), hbit hvar, hsame]
      rfl
    · rw [if_neg hvar, hsame]
  · rw [if_pos hvar, hp.bit_eq (byte_tail h hvar), hbit]
    have hlen : (curr.take d.fixedSize).length = d.fixedSize := by
      rw [length_take, min_eq_left hcurr.fixedSize_le]
    rw [hvalue] at hdrop
    exact (hp.rebuild_eq htail hpos hdrop hlen _).trans (congrArg some hnew)

end Lawful

end DeltaPort

namespace DeltaEncoder

variable {d : DeltaEncoder}

open DeltaPort

variable {base : GoSlice}

lemma growTail_eq {fixed old delta tail : List UInt8} {pos : ℕ} (hbase : base.buf = fixed ++ old)
    (hfixed : fixed.length = d.fixedSize) (htail : tail.length < 65536)
    (hpos : pos ≤ delta.length) (hdrop : delta.drop pos = bigEndian16 tail.length ++ tail) :
    ∃ out, d.growTail base delta pos = some out ∧
      out.bytes = fixed ++ (bigEndian16 tail.length ++ tail) := by
  -- either way there are two bytes for the length and then room for the tail
  have hput : ∀ lenBytes dst spare : List UInt8, lenBytes.length = 2 → dst.length = tail.length →
      (do
        let bytes ← go.copy delta (pos + 2) (overwrite (fixed ++ (lenBytes ++ dst)) d.fixedSize
          (bigEndian16 tail.length)) (d.fixedSize + 2) tail.length
        some (GoSlice.mk bytes spare)) =
          some ⟨fixed ++ (bigEndian16 tail.length ++ tail), spare⟩ := by
    intro lenBytes dst spare hlen hdst
    rw [overwrite_append hfixed hlen, lawful_go.copy_tail hpos hdrop hfixed hdst]
    rfl
  simp only [growTail, lawful_go.readUint16_eq htail hdrop, bind_eq_bind, bind_some,
    hbase]
  by_cases hroom : d.fixedSize + 2 + tail.length ≤ (fixed ++ old).length
  · rw [if_pos hroom]
    have htake : (fixed ++ old).take (d.fixedSize + 2 + tail.length) =
        fixed ++ (old.take 2 ++ (old.drop 2).take tail.length) := by
      rw [Nat.add_assoc, take_add, take_left' hfixed, drop_left' hfixed,
        take_add]
    rw [length_append] at hroom
    have hout := hput (old.take 2) ((old.drop 2).take tail.length)
      ((fixed ++ old).drop (d.fixedSize + 2 + tail.length))
      (by rw [length_take]; omega) (by rw [length_take, length_drop]; omega)
    rw [← htake] at hout
    exact ⟨_, hout, rfl⟩
  · rw [if_neg hroom, lawful_go.copy_fixed hfixed]
    exact ⟨_, hput _ _ [] length_replicate length_replicate, rfl⟩

lemma decodeInPlace_encode {curr delta : List UInt8} (hprev : d.WellFormed base.bytes)
    (hcurr : d.WellFormed curr) (h : d.encode base.bytes curr = some delta) :
    ∃ out, d.decodeInPlace base delta = some out ∧ out.bytes = curr := by
  obtain ⟨pos, hpos, hdrop, hloop⟩ :=
    lawful_go.applyFixed_encode hprev.fixedSize_le hcurr.fixedSize_le h base.spare
  have hfixed : (curr.take d.fixedSize).length = d.fixedSize := by
    rw [length_take, min_eq_left hcurr.fixedSize_le]
  have hsplit : curr.take d.fixedSize ++ (base.bytes ++ base.spare).drop d.fixedSize =
      curr.take d.fixedSize ++ base.bytes.drop d.fixedSize ++ base.spare := by
    rw [drop_append_of_le_length hprev.fixedSize_le, append_assoc]
  have hlen : (curr.take d.fixedSize ++ base.bytes.drop d.fixedSize).length =
      base.bytes.length := by
    rw [length_append, hfixed, length_drop]
    exact Nat.add_sub_cancel' hprev.fixedSize_le
  have hslice : GoSlice.ofBuf (curr.take d.fixedSize ++ base.bytes.drop d.fixedSize ++ base.spare)
      base.bytes.length =
        ⟨curr.take d.fixedSize ++ base.bytes.drop d.fixedSize, base.spare⟩ := by
    unfold GoSlice.ofBuf
    rw [take_left' hlen, drop_left' hlen]
  rw [hsplit] at hloop
  simp only [decodeInPlace, GoSlice.buf, hloop, bind_eq_bind, bind_some, hslice]
  rcases tail_cases hprev hcurr h with ⟨hbit, hsame⟩ | ⟨hvar, hbit, tail, htail, hvalue, hnew⟩
  · by_cases hvar : d.hasVarTail = true
    · rw [if_pos hvar, lawful_go.bit_eq (byte_tail h hvar), hbit hvar]
      exact ⟨_, rfl, hsame⟩
    · rw [if_neg hvar]
      exact ⟨_, rfl, hsame⟩
  · rw [if_pos hvar, lawful_go.bit_eq (byte_tail h hvar), hbit]
    rw [hvalue] at hdrop
    have hbuf : (GoSlice.mk (curr.take d.fixedSize ++ base.bytes.drop d.fixedSize)
        base.spare).buf = _ := append_assoc _ _ _
    obtain ⟨out, hout, hbytes⟩ := growTail_eq hbuf hfixed htail hpos hdrop
    exact ⟨out, hout, hbytes.trans hnew⟩

/-- **Agreement of the codecs.** There is no delta exactly if the snapshots are equal, and each of
the three appliers takes the old snapshot to the new one. -/
theorem codec_agreement {prev curr : List UInt8} (hprev : d.WellFormed prev)
    (hcurr : d.WellFormed curr) :
    (d.encode prev curr = none ↔ prev = curr) ∧
      ∀ delta, d.encode prev curr = some delta →
        (∀ spare, ∃ out, d.decodeInPlace ⟨prev, spare⟩ delta = some out ∧ out.bytes = curr) ∧
        typeScript.applyDelta d.fieldSizes d.hasVarTail prev delta = some curr ∧
        cSharp.applyDelta d.fieldSizes d.hasVarTail prev delta = some curr := by
  refine ⟨⟨eq_of_encode_eq_none hprev hcurr, ?_⟩, fun delta h => ⟨fun spare => ?_, ?_, ?_⟩⟩
  · rintro rfl
    exact encode_self prev
  · exact decodeInPlace_encode hprev hcurr h
  · exact lawful_typeScript.applyDelta_encode hprev hcurr h
  · exact lawful_cSharp.applyDelta_encode hprev hcurr h

theorem codec_agreement_longer :
    typeScript.applyDelta [2, 1] true [1, 2, 3, 0, 1, 9] [6, 4, 0, 2, 8, 8] =
      some [1, 2, 4, 0, 2, 8, 8] :=
  ((codec_agreement (d := ⟨[2, 1], true⟩) ⟨[1, 2, 3], [9], rfl, by decide, rfl⟩
    ⟨[1, 2, 4], [8, 8], rfl, by decide, rfl⟩).2 [6, 4, 0, 2, 8, 8] (by decide)).2.1

end DeltaEncoder

end Mmokit
