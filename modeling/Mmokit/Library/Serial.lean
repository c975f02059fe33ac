/-
Serial-number arithmetic on 32-bit counters, in the sense of RFC 1982.

A counter that wraps has no global order. Within half of the number space above a fixed base,
however, "serially after" is the usual order of the offsets from that base, and this is the only
way the rest of the development reads it.
-/
import Mathlib.Tactic.Common

namespace Serial

/-- `a` is serially after `b`: it differs from `b` and lies less than half the space above it. -/
def After (a b : UInt32) : Prop := a - b ≠ 0 ∧ a - b < 0x80000000

instance (a b : UInt32) : Decidable (After a b) := inferInstanceAs (Decidable (_ ∧ _))

lemma after_add_one_iff {a b : UInt32} : After (a + 1) (b + 1) ↔ After a b := by
  have hsub : a + 1 - (b + 1) = a - b := by grind
  rw [After, hsub, After]

def offset (b x : UInt32) : ℕ := (x - b).toNat

def InWindow (b x : UInt32) : Prop := offset b x < 0x80000000

instance (b x : UInt32) : Decidable (InWindow b x) := inferInstanceAs (Decidable (_ < _))

@[simp] lemma offset_self (b : UInt32) : offset b b = 0 := by
  simp [offset]

lemma inWindow_self (b : UInt32) : InWindow b b := by
  simp [InWindow]

lemma offset_eq (b x : UInt32) : offset b x = (0x100000000 - b.toNat + x.toNat) % 0x100000000 := by
  simp [offset, UInt32.toNat_sub]

lemma offset_injective {b x y : UInt32} (h : offset b x = offset b y) : x = y := by
  have hx := x.toNat_lt
  have hy := y.toNat_lt
  have hb := b.toNat_lt
  rw [offset_eq, offset_eq] at h
  exact UInt32.toNat_inj.mp (by omega)

lemma offset_succ {b x : UInt32} (h : offset b x + 1 < 0x80000000) :
    offset b (x + 1) = offset b x + 1 := by
  have hx := x.toNat_lt
  have hb := b.toNat_lt
  rw [offset_eq] at h
  rw [offset_eq, offset_eq, UInt32.toNat_add]
  simp only [UInt32.toNat_one] at *
  omega

/-- **Inside a window, serially after is above.** -/
theorem after_iff {b x y : UInt32} (hx : InWindow b x) (hy : InWindow b y) :
    After x y ↔ offset b y < offset b x := by
  have hxl := x.toNat_lt
  have hyl := y.toNat_lt
  have hbl := b.toNat_lt
  have hne : x - y ≠ 0 ↔ (x - y).toNat ≠ 0 := by
    rw [not_iff_not, ← UInt32.toNat_inj]
    simp
  have hlt : x - y < 0x80000000 ↔ (x - y).toNat < 0x80000000 := by
    rw [UInt32.lt_iff_toNat_lt]
    rfl
  simp only [InWindow, offset_eq] at hx hy
  rw [After, hne, hlt, UInt32.toNat_sub, offset_eq, offset_eq]
  omega

lemma not_after_iff {b x y : UInt32} (hx : InWindow b x) (hy : InWindow b y) :
    ¬ After x y ↔ offset b x ≤ offset b y := by
  rw [after_iff hx hy]
  omega

end Serial
