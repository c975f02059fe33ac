/-
The delta codec (`pkg/quantize/delta.go`).

A snapshot is a row of fields of fixed sizes, possibly followed by a tail of variable length that
starts with its length in two bytes. A delta against an earlier snapshot is a bitmask of the fields
that changed, followed by their values.
-/
import Mathlib.Data.List.Basic
import Mathlib.Tactic.IntervalCases

namespace Mmokit

open List

structure DeltaEncoder where
  fieldSizes : List ℕ
  hasVarTail : Bool
deriving DecidableEq

def bigEndian16 (n : ℕ) : List UInt8 := [UInt8.ofNat (n / 256), UInt8.ofNat n]

def readBigEndian16 (bs : List UInt8) : ℕ := (bs.getD 0 0).toNat * 256 + (bs.getD 1 0).toNat

def maskByte (bits : List Bool) (k : ℕ) : UInt8 :=
  (range 8).foldl
    (fun b j => if bits.getD (8 * k + j) false then b ||| (1 <<< UInt8.ofNat j) else b) 0

def maskBit (delta : List UInt8) (i : ℕ) : Bool :=
  delta.getD (i / 8) 0 &&& (1 <<< UInt8.ofNat (i % 8)) ≠ 0

namespace DeltaEncoder

variable (d : DeltaEncoder)

def fixedSize : ℕ := d.fieldSizes.sum

def fieldCount : ℕ := d.fieldSizes.length + if d.hasVarTail then 1 else 0

def bitmaskSize : ℕ := (d.fieldCount + 7) / 8

def readVarTail (snap : List UInt8) : List UInt8 :=
  if snap.length < d.fixedSize + 2 then []
  else (snap.drop (d.fixedSize + 2)).take (readBigEndian16 (snap.drop d.fixedSize))

def compareFields : List ℕ → List UInt8 → List UInt8 → List Bool × List UInt8
  | [], _, _ => ([], [])
  | sz :: sizes, prev, curr =>
    let r := compareFields sizes (prev.drop sz) (curr.drop sz)
    if prev.take sz = curr.take sz then (false :: r.1, r.2)
    else (true :: r.1, curr.take sz ++ r.2)

def compareTail (prev curr : List UInt8) : List Bool × List UInt8 :=
  if d.hasVarTail then
    let tail := d.readVarTail curr
    if d.readVarTail prev = tail then ([false], [])
    else ([true], bigEndian16 tail.length ++ tail)
  else ([], [])

def encode (prev curr : List UInt8) : Option (List UInt8) :=
  let fixed := compareFields d.fieldSizes prev curr
  let tail := d.compareTail prev curr
  let bits := fixed.1 ++ tail.1
  if bits.any id then some ((range d.bitmaskSize).map (maskByte bits) ++ fixed.2 ++ tail.2)
  else none

def applyFields (delta : List UInt8) :
    List ℕ → ℕ → List UInt8 → List UInt8 → List UInt8 × List UInt8
  | [], _, base, values => (base, values)
  | sz :: sizes, i, base, values =>
    if maskBit delta i then
      let r := applyFields delta sizes (i + 1) (base.drop sz) (values.drop sz)
      (values.take sz ++ r.1, r.2)
    else
      let r := applyFields delta sizes (i + 1) (base.drop sz) values
      (base.take sz ++ r.1, r.2)

/-- `Decode`, on deltas that are long enough; the source panics on others. -/
def decode (base delta : List UInt8) : List UInt8 :=
  let r := applyFields delta d.fieldSizes 0 base (delta.drop d.bitmaskSize)
  if d.hasVarTail && maskBit delta d.fieldSizes.length then
    let newLen := readBigEndian16 r.2
    r.1.take d.fixedSize ++ bigEndian16 newLen ++ (r.2.drop 2).take newLen
  else r.1

def WellFormed (snap : List UInt8) : Prop :=
  ∃ fixed tail : List UInt8, fixed.length = d.fixedSize ∧ tail.length < 65536 ∧
    snap = fixed ++ if d.hasVarTail then bigEndian16 tail.length ++ tail else []

end DeltaEncoder

@[simp] lemma length_bigEndian16 (n : ℕ) : (bigEndian16 n).length = 2 := rfl

lemma readBigEndian16_append {n : ℕ} (h : n < 65536) (bs : List UInt8) :
    readBigEndian16 (bigEndian16 n ++ bs) = n := by
  simp only [readBigEndian16, bigEndian16, cons_append, getD_cons_zero,
    getD_cons_succ, UInt8.toNat_ofNat']
  omega

lemma eight_bits : ∀ b₀ b₁ b₂ b₃ b₄ b₅ b₆ b₇ : Bool, ∀ j : Fin 8,
    (((range 8).foldl (fun (b : UInt8) k =>
      if [b₀, b₁, b₂, b₃, b₄, b₅, b₆, b₇].getD k false then b ||| (1 <<< UInt8.ofNat k) else b) 0)
        &&& (1 <<< UInt8.ofNat j.val) ≠ 0) ↔
      [b₀, b₁, b₂, b₃, b₄, b₅, b₆, b₇].getD j.val false = true := by
  decide +kernel

lemma maskByte_bit (bits : List Bool) (k : ℕ) {j : ℕ} (hj : j < 8) :
    maskByte bits k &&& (1 <<< UInt8.ofNat j) ≠ 0 ↔ bits.getD (8 * k + j) false = true := by
  have h := eight_bits (bits.getD (8 * k) false) (bits.getD (8 * k + 1) false)
    (bits.getD (8 * k + 2) false) (bits.getD (8 * k + 3) false) (bits.getD (8 * k + 4) false)
    (bits.getD (8 * k + 5) false) (bits.getD (8 * k + 6) false) (bits.getD (8 * k + 7) false)
    ⟨j, hj⟩
  interval_cases j <;> exact h

lemma maskBit_bitmask (bits : List Bool) {size i : ℕ} (hi : i < 8 * size) (values : List UInt8) :
    maskBit ((range size).map (maskByte bits) ++ values) i = bits.getD i false := by
  have hk : i / 8 < size := by omega
  have hbyte : ((range size).map (maskByte bits) ++ values).getD (i / 8) 0 =
      maskByte bits (i / 8) := by
    rw [getD_eq_getElem?_getD, getElem?_append_left (by simpa using hk)]
    simp [hk]
  have hbit := maskByte_bit bits (i / 8) (Nat.mod_lt i (by decide))
  rw [Nat.div_add_mod] at hbit
  rw [Bool.eq_iff_iff, maskBit, hbyte, decide_eq_true_iff]
  exact hbit

namespace DeltaEncoder

variable {d : DeltaEncoder}

section CompareFields

variable {sz : ℕ} {sizes : List ℕ} {prev curr : List UInt8}

lemma compareFields_of_eq (h : prev.take sz = curr.take sz) :
    compareFields (sz :: sizes) prev curr =
      (false :: (compareFields sizes (prev.drop sz) (curr.drop sz)).1,
        (compareFields sizes (prev.drop sz) (curr.drop sz)).2) :=
  if_pos h

lemma compareFields_of_ne (h : prev.take sz ≠ curr.take sz) :
    compareFields (sz :: sizes) prev curr =
      (true :: (compareFields sizes (prev.drop sz) (curr.drop sz)).1,
        curr.take sz ++ (compareFields sizes (prev.drop sz) (curr.drop sz)).2) :=
  if_neg h

lemma getD_compareFields_succ (j : ℕ) :
    (compareFields (sz :: sizes) prev curr).1.getD (j + 1) false =
      (compareFields sizes (prev.drop sz) (curr.drop sz)).1.getD j false := by
  by_cases h : prev.take sz = curr.take sz
  · rw [compareFields_of_eq h, getD_cons_succ]
  · rw [compareFields_of_ne h, getD_cons_succ]

end CompareFields

lemma length_compareFields (sizes : List ℕ) (prev curr : List UInt8) :
    (compareFields sizes prev curr).1.length = sizes.length := by
  induction sizes generalizing prev curr with
  | nil => rfl
  | cons sz sizes ih =>
    by_cases h : prev.take sz = curr.take sz
    · rw [compareFields_of_eq h, length_cons, ih, length_cons]
    · rw [compareFields_of_ne h, length_cons, ih, length_cons]

variable {sizes : List ℕ} {prev curr : List UInt8}

lemma compareFields_append (h : sizes.sum ≤ prev.length) (spare : List UInt8) :
    compareFields sizes (prev ++ spare) curr = compareFields sizes prev curr := by
  induction sizes generalizing prev curr with
  | nil => rfl
  | cons sz sizes ih =>
    rw [sum_cons] at h
    have hdrop : sizes.sum ≤ (prev.drop sz).length := by rw [length_drop]; omega
    rw [compareFields, compareFields, take_append_of_le_length (by omega),
      drop_append_of_le_length (by omega), ih hdrop]

lemma compareFields_self (sizes : List ℕ) (snap : List UInt8) :
    (compareFields sizes snap snap).1.any id = false := by
  induction sizes generalizing snap with
  | nil => rfl
  | cons sz sizes ih =>
    rw [compareFields_of_eq rfl]
    simpa using ih (snap.drop sz)

lemma take_eq_of_compareFields (h : (compareFields sizes prev curr).1.any id = false) :
    prev.take sizes.sum = curr.take sizes.sum := by
  induction sizes generalizing prev curr with
  | nil => simp
  | cons sz sizes ih =>
    by_cases hsame : prev.take sz = curr.take sz
    · rw [compareFields_of_eq hsame] at h
      have hrest := ih (by simpa using h)
      rw [sum_cons, take_add, take_add, hsame, hrest]
    · rw [compareFields_of_ne hsame] at h
      simp at h

variable {delta : List UInt8}

/-- **Decoding the fixed fields**, from field `i` on: if the mask has the bits of the comparison,
the changed values are put in their places, and the rest of `base` and of the values stays. -/
lemma applyFields_compareFields (sizes : List ℕ) (i : ℕ) (prev curr rest : List UInt8)
    (hcurr : sizes.sum ≤ curr.length)
    (hmask : ∀ j < sizes.length, maskBit delta (i + j) =
      (compareFields sizes prev curr).1.getD j false) :
    applyFields delta sizes i prev ((compareFields sizes prev curr).2 ++ rest) =
      (curr.take sizes.sum ++ prev.drop sizes.sum, rest) := by
  induction sizes generalizing i prev curr with
  | nil => simp [applyFields, compareFields]
  | cons sz sizes ih =>
    have hsum : sz + sizes.sum ≤ curr.length := by simpa using hcurr
    have hbit := hmask 0 (by simp)
    have hlater : ∀ j < sizes.length, maskBit delta (i + 1 + j) =
        (compareFields sizes (prev.drop sz) (curr.drop sz)).1.getD j false := by
      intro j hj
      have hj' := hmask (j + 1) (by simpa using hj)
      rw [getD_compareFields_succ] at hj'
      rw [show i + 1 + j = i + (j + 1) by omega, hj']
    have hih := ih (i + 1) (prev.drop sz) (curr.drop sz)
      (by rw [length_drop]; omega) hlater
    rw [applyFields]
    by_cases hsame : prev.take sz = curr.take sz
    · -- The field did not change: it is kept from `base`.
      rw [compareFields_of_eq hsame] at hbit ⊢
      rw [if_neg (by simpa using hbit), hih, hsame]
      simp [take_add, drop_drop]
    · have hlen : (curr.take sz).length = sz := by rw [length_take]; omega
      rw [compareFields_of_ne hsame] at hbit ⊢
      rw [if_pos (by simpa using hbit), append_assoc, drop_left' hlen,
        take_left' hlen, hih]
      simp [take_add, drop_drop]

lemma readVarTail_append {fixed tail : List UInt8} (hfixed : fixed.length = d.fixedSize)
    (htail : tail.length < 65536) :
    d.readVarTail (fixed ++ (bigEndian16 tail.length ++ tail)) = tail := by
  have hlen : ¬ (fixed ++ (bigEndian16 tail.length ++ tail)).length < d.fixedSize + 2 := by
    rw [length_append, length_append, length_bigEndian16]
    omega
  have hdrop : (fixed ++ (bigEndian16 tail.length ++ tail)).drop d.fixedSize =
      bigEndian16 tail.length ++ tail := drop_left' hfixed
  rw [readVarTail, if_neg hlen, ← drop_drop, hdrop, readBigEndian16_append htail,
    drop_left' (length_bigEndian16 _), take_length]

lemma encode_cases (prev curr : List UInt8) :
    (d.encode prev curr = none ∧ (compareFields d.fieldSizes prev curr).1.any id = false ∧
        (d.compareTail prev curr).1.any id = false) ∨
      d.encode prev curr = some ((range d.bitmaskSize).map
        (maskByte ((compareFields d.fieldSizes prev curr).1 ++ (d.compareTail prev curr).1)) ++
          ((compareFields d.fieldSizes prev curr).2 ++ (d.compareTail prev curr).2)) := by
  by_cases hbits : ((compareFields d.fieldSizes prev curr).1 ++
      (d.compareTail prev curr).1).any id = true
  · exact .inr ((if_pos hbits).trans (by rw [append_assoc]))
  · have hnone := hbits
    rw [any_append, Bool.or_eq_true, not_or, Bool.not_eq_true, Bool.not_eq_true] at hnone
    exact .inl ⟨if_neg hbits, hnone⟩

lemma eq_of_encode_eq_none (hprev : d.WellFormed prev) (hcurr : d.WellFormed curr)
    (h : d.encode prev curr = none) : prev = curr := by
  rcases encode_cases (d := d) prev curr with ⟨-, hfields, htail⟩ | hsome
  · obtain ⟨fp, tp, hfp, htp, rfl⟩ := hprev
    obtain ⟨fc, tc, hfc, htc, rfl⟩ := hcurr
    have hfixed := take_eq_of_compareFields hfields
    change take d.fixedSize _ = take d.fixedSize _ at hfixed
    rw [take_left' hfp, take_left' hfc] at hfixed
    by_cases hvar : d.hasVarTail = true
    · simp only [compareTail, hvar, if_true, readVarTail_append hfp htp,
        readVarTail_append hfc htc] at htail
      by_cases hsame : tp = tc
      · rw [hfixed, hsame]
      · simp [hsame] at htail
    · simp [hvar, hfixed]
  · rw [hsome] at h
    exact absurd h (by simp)

lemma encode_self (snap : List UInt8) : d.encode snap snap = none := by
  have htail : (d.compareTail snap snap).1.any id = false := by
    unfold compareTail
    split <;> simp
  refine if_neg ?_
  rw [any_append, compareFields_self, htail]
  decide

lemma encode_eq_some (h : d.encode prev curr = some delta) :
    (∀ i < d.fieldCount, i / 8 < delta.length ∧ maskBit delta i =
      ((compareFields d.fieldSizes prev curr).1 ++ (d.compareTail prev curr).1).getD i false) ∧
    d.bitmaskSize ≤ delta.length ∧ delta.drop d.bitmaskSize =
      (compareFields d.fieldSizes prev curr).2 ++ (d.compareTail prev curr).2 := by
  have hbound : d.fieldCount ≤ 8 * d.bitmaskSize := by unfold bitmaskSize; omega
  rcases encode_cases (d := d) prev curr with ⟨hnone, -⟩ | hsome
  · exact absurd (hnone.symm.trans h) (by simp)
  obtain rfl := Option.some.inj (hsome.symm.trans h)
  refine ⟨fun i hi => ⟨?_, maskBit_bitmask _ (by omega) _⟩, ?_, drop_left' (by simp)⟩
  · rw [length_append, length_map, length_range]
    omega
  · simp

lemma maskBit_field (h : d.encode prev curr = some delta) {j : ℕ} (hj : j < d.fieldSizes.length) :
    maskBit delta j = (compareFields d.fieldSizes prev curr).1.getD j false := by
  have hlen := length_compareFields d.fieldSizes prev curr
  rw [((encode_eq_some h).1 j (by unfold fieldCount; omega)).2, getD_eq_getElem?_getD,
    getElem?_append_left (by omega), getD_eq_getElem?_getD]

lemma maskBit_tail (h : d.encode prev curr = some delta) (hvar : d.hasVarTail = true) :
    maskBit delta d.fieldSizes.length = (d.compareTail prev curr).1.getD 0 false := by
  have hlen := length_compareFields d.fieldSizes prev curr
  rw [((encode_eq_some h).1 _ (by simp [fieldCount, hvar])).2, getD_eq_getElem?_getD,
    getElem?_append_right hlen.le, hlen, Nat.sub_self, getD_eq_getElem?_getD]

lemma compareTail_append {fp tp fc tc : List UInt8} (hvar : d.hasVarTail = true)
    (hfp : fp.length = d.fixedSize) (htp : tp.length < 65536) (hfc : fc.length = d.fixedSize)
    (htc : tc.length < 65536) :
    d.compareTail (fp ++ (bigEndian16 tp.length ++ tp)) (fc ++ (bigEndian16 tc.length ++ tc)) =
      if tp = tc then ([false], []) else ([true], bigEndian16 tc.length ++ tc) := by
  simp only [compareTail, hvar, if_true, readVarTail_append hfp htp, readVarTail_append hfc htc]

lemma WellFormed.fixedSize_le {snap : List UInt8} (h : d.WellFormed snap) :
    d.fixedSize ≤ snap.length := by
  obtain ⟨fixed, tail, hfixed, -, rfl⟩ := h
  rw [length_append, hfixed]
  exact Nat.le_add_right _ _

lemma tail_cases (hprev : d.WellFormed prev) (hcurr : d.WellFormed curr)
    (h : d.encode prev curr = some delta) :
    ((d.hasVarTail = true → maskBit delta d.fieldSizes.length = false) ∧
        curr.take d.fixedSize ++ prev.drop d.fixedSize = curr) ∨
      (d.hasVarTail = true ∧ maskBit delta d.fieldSizes.length = true ∧
        ∃ tail : List UInt8, tail.length < 65536 ∧
          (d.compareTail prev curr).2 = bigEndian16 tail.length ++ tail ∧
          curr.take d.fixedSize ++ (bigEndian16 tail.length ++ tail) = curr) := by
  obtain ⟨fp, tp, hfp, htp, hprev⟩ := hprev
  obtain ⟨fc, tc, hfc, htc, hcurr⟩ := hcurr
  have hfixed : curr.take d.fixedSize = fc := by rw [hcurr]; exact take_left' hfc
  have hold : prev.drop d.fixedSize = if d.hasVarTail then bigEndian16 tp.length ++ tp else [] := by
    rw [hprev]
    exact drop_left' hfp
  rw [hfixed, hold]
  by_cases hvar : d.hasVarTail = true
  · have hbit := maskBit_tail h hvar
    rw [if_pos hvar] at hprev hcurr ⊢
    have hcmp := compareTail_append hvar hfp htp hfc htc
    rw [← hprev, ← hcurr] at hcmp
    by_cases hsame : tp = tc
    · rw [hcmp, if_pos hsame] at hbit
      exact .inl ⟨fun _ => hbit, by rw [hsame, hcurr]⟩
    · rw [if_neg hsame] at hcmp
      rw [hcmp] at hbit
      exact .inr ⟨hvar, hbit, tc, htc, by rw [hcmp], hcurr.symm⟩
  · rw [if_neg hvar] at hcurr ⊢
    exact .inl ⟨fun hvar' => absurd hvar' hvar, hcurr.symm⟩

/-- **Round trip.** Applied to the snapshot that it was encoded against, a delta gives the new
snapshot. -/
theorem decode_encode (hprev : d.WellFormed prev) (hcurr : d.WellFormed curr)
    (h : d.encode prev curr = some delta) : d.decode prev delta = curr := by
  -- The fixed fields are those of `curr`, and the tail is still that of `prev`.
  have happly : applyFields delta d.fieldSizes 0 prev (delta.drop d.bitmaskSize) =
      (curr.take d.fixedSize ++ prev.drop d.fixedSize, (d.compareTail prev curr).2) := by
    rw [(encode_eq_some h).2.2]
    refine applyFields_compareFields _ _ _ _ _ hcurr.fixedSize_le ?_
    intro j hj
    rw [Nat.zero_add, maskBit_field h hj]
  unfold decode
  rw [happly]
  rcases tail_cases hprev hcurr h with ⟨hbit, hsame⟩ | ⟨hvar, hbit, tail, htail, hvalue, hnew⟩
  · rw [if_neg (by simpa using hbit), hsame]
  have hlen : (curr.take d.fixedSize).length = d.fixedSize := by
    rw [length_take, min_eq_left hcurr.fixedSize_le]
  rw [if_pos (by simp [hvar, hbit]), hvalue]
  dsimp only
  rw [readBigEndian16_append htail, take_left' hlen,
    drop_left' (length_bigEndian16 _), take_length, append_assoc, hnew]

example : (DeltaEncoder.mk [2, 1] true).encode [1, 2, 3, 0, 1, 9] [1, 2, 4, 0, 2, 8, 8] =
    some [6, 4, 0, 2, 8, 8] := by decide

end DeltaEncoder

end Mmokit
