/-
Reading and writing bytes.

A reader takes what it needs off the front of a list of bytes, or fails; the default error stands
for a read past the end.
-/
import Mathlib.Algebra.Order.Ring.Nat
import Mathlib.Data.List.Basic

/-! ### Numbers -/

/-- The lowest `w` bytes of a number, the least significant one first. -/
def leBytes : ℕ → ℕ → List UInt8
  | 0, _ => []
  | w + 1, n => UInt8.ofNat n :: leBytes w (n / 256)

def leNat : List UInt8 → ℕ
  | [] => 0
  | b :: bs => b.toNat + 256 * leNat bs

def beBytes (w n : ℕ) : List UInt8 := (leBytes w n).reverse

def beNat (bs : List UInt8) : ℕ := leNat bs.reverse

@[simp] lemma length_leBytes (w n : ℕ) : (leBytes w n).length = w := by
  induction w generalizing n with
  | zero => rfl
  | succ w ih => simp [leBytes, ih]

@[simp] lemma length_beBytes (w n : ℕ) : (beBytes w n).length = w := by
  simp [beBytes]

lemma leNat_leBytes (w n : ℕ) : leNat (leBytes w n) = n % 256 ^ w := by
  induction w generalizing n with
  | zero => simp [leBytes, leNat, Nat.mod_one]
  | succ w ih =>
    have hbyte : (UInt8.ofNat n).toNat = n % 256 := by simp
    rw [leBytes, leNat, ih, hbyte, pow_succ', Nat.mod_mul]

lemma beNat_beBytes (w n : ℕ) : beNat (beBytes w n) = n % 256 ^ w := by
  rw [beNat, beBytes, List.reverse_reverse, leNat_leBytes]

lemma leNat_lt (bs : List UInt8) : leNat bs < 256 ^ bs.length := by
  induction bs with
  | nil => simp [leNat]
  | cons b bs ih =>
    have hbyte := b.toNat_lt
    rw [leNat, List.length_cons]
    omega

lemma beNat_lt (bs : List UInt8) : beNat bs < 256 ^ bs.length := by
  simpa [beNat] using leNat_lt bs.reverse

/-! ### Readers -/

abbrev ByteReader (ε α : Type) : Type := StateT (List UInt8) (Except ε) α

namespace ByteReader

open ByteReader Except

variable {ε α β : Type}

section Fields

variable [Inhabited ε]

def take (n : ℕ) : ByteReader ε (List UInt8) := fun bs =>
  if n ≤ bs.length then .ok (bs.take n, bs.drop n) else .error default

def le (w : ℕ) : ByteReader ε ℕ := do return leNat (← take w)

def be (w : ℕ) : ByteReader ε ℕ := do return beNat (← take w)

def byte : ByteReader ε UInt8 := do return UInt8.ofNat (← le 1)

def leUInt16 : ByteReader ε UInt16 := do return UInt16.ofNat (← le 2)

def leUInt32 : ByteReader ε UInt32 := do return UInt32.ofNat (← le 4)

def beUInt32 : ByteReader ε UInt32 := do return UInt32.ofNat (← be 4)

def beUInt64 : ByteReader ε UInt64 := do return UInt64.ofNat (← be 8)

end Fields

def many (r : ByteReader ε α) : ℕ → ByteReader ε (List α)
  | 0 => return []
  | n + 1 => do
    let a ← r
    let as ← many r n
    return a :: as

def need (n : ℕ) (e : ε) : ByteReader ε Unit := fun bs =>
  if n ≤ bs.length then .ok ((), bs) else .error e

def ensure (c : Bool) (e : ε) : ByteReader ε Unit := fun bs =>
  if c then .ok ((), bs) else .error e

def remaining : ByteReader ε ℕ := fun bs => .ok (bs.length, bs)

/-- The reader reads these bytes as this value, whatever comes after them. -/
def Reads (r : ByteReader ε α) (bytes : List UInt8) (a : α) : Prop :=
  ∀ rest, r (bytes ++ rest) = .ok (a, rest)

def Returns (r : ByteReader ε α) (P : α → Prop) : Prop :=
  ∀ bytes a rest, r bytes = .ok (a, rest) → P a

variable {r : ByteReader ε α} {f : α → ByteReader ε β} {bytes bytes' : List UInt8} {a : α} {b : β}

lemma bind_eq_ok {s t : List UInt8} :
    (r >>= f) s = .ok (b, t) ↔ ∃ a s', r s = .ok (a, s') ∧ f a s' = .ok (b, t) := by
  show (r s).bind (fun p => f p.1 p.2) = .ok (b, t) ↔ _
  cases r s with
  | error e => simp [Except.bind]
  | ok p =>
    constructor
    · exact fun h => ⟨p.1, p.2, rfl, h⟩
    · rintro ⟨a, s', hp, hf⟩
      obtain rfl := ok.inj hp
      exact hf

lemma need_eq_ok {n : ℕ} {e : ε} {s t : List UInt8} {u : Unit} :
    need n e s = .ok (u, t) ↔ n ≤ s.length ∧ s = t := by
  unfold need
  split
  · rename_i hn
    simp [hn]
  · rename_i hn
    simp [hn]

/-! ### What is read from what was written -/

lemma reads_pure (a : α) : Reads (pure a : ByteReader ε α) [] a := fun _ => rfl

lemma Reads.bind (h : Reads r bytes a) (h' : Reads (f a) bytes' b) :
    Reads (r >>= f) (bytes ++ bytes') b := by
  intro rest
  rw [List.append_assoc, bind_eq_ok]
  exact ⟨a, bytes' ++ rest, h _, h' rest⟩

lemma Reads.map (h : Reads r bytes a) (g : α → β) : Reads (do return g (← r)) bytes (g a) := by
  intro rest
  exact bind_eq_ok.mpr ⟨a, rest, h rest, rfl⟩

lemma Reads.need {n : ℕ} {e : ε} {f : Unit → ByteReader ε β} (hn : n ≤ bytes.length)
    (h : Reads (f ()) bytes b) : Reads (need n e >>= f) bytes b := by
  intro rest
  have henough : n ≤ (bytes ++ rest).length := by simp; omega
  exact bind_eq_ok.mpr ⟨(), bytes ++ rest, if_pos henough, h rest⟩

lemma Reads.ensure {c : Bool} {e : ε} {f : Unit → ByteReader ε β} (hc : c = true)
    (h : Reads (f ()) bytes b) : Reads (ensure c e >>= f) bytes b := by
  intro rest
  exact bind_eq_ok.mpr ⟨(), bytes ++ rest, if_pos hc, h rest⟩

lemma Reads.remaining {f : ℕ → ByteReader ε β}
    (h : ∀ n, bytes.length ≤ n → Reads (f n) bytes b) :
    Reads (remaining >>= f) bytes b := by
  intro rest
  have hle : bytes.length ≤ (bytes ++ rest).length := by simp
  exact bind_eq_ok.mpr ⟨_, bytes ++ rest, rfl, h _ hle rest⟩

lemma reads_many {encode : α → List UInt8} {as : List α} (h : ∀ a ∈ as, Reads r (encode a) a) :
    Reads (many r as.length) (as.flatMap encode) as := by
  induction as with
  | nil => exact reads_pure []
  | cons a as ih =>
    have htail := ih fun a' ha' => h a' (List.mem_cons_of_mem _ ha')
    exact (h a List.mem_cons_self).bind (htail.map (a :: ·))

section Fields

variable [Inhabited ε]

lemma reads_take (bytes : List UInt8) :
    Reads (take bytes.length : ByteReader ε (List UInt8)) bytes bytes := by
  intro rest
  simp [take]

lemma reads_take_of_length {n : ℕ} (h : bytes.length = n) :
    Reads (take n : ByteReader ε (List UInt8)) bytes bytes :=
  h ▸ reads_take bytes

lemma reads_le {w n : ℕ} (h : n < 256 ^ w) : Reads (le w : ByteReader ε ℕ) (leBytes w n) n := by
  have htake : Reads (take w : ByteReader ε (List UInt8)) (leBytes w n) (leBytes w n) :=
    reads_take_of_length (length_leBytes w n)
  have hread := htake.map leNat
  rwa [leNat_leBytes, Nat.mod_eq_of_lt h] at hread

lemma reads_be {w n : ℕ} (h : n < 256 ^ w) : Reads (be w : ByteReader ε ℕ) (beBytes w n) n := by
  have htake : Reads (take w : ByteReader ε (List UInt8)) (beBytes w n) (beBytes w n) :=
    reads_take_of_length (length_beBytes w n)
  have hread := htake.map beNat
  rwa [beNat_beBytes, Nat.mod_eq_of_lt h] at hread

lemma reads_byte (v : UInt8) : Reads (byte : ByteReader ε UInt8) [v] v := by
  have hread : Reads (le 1 : ByteReader ε ℕ) (leBytes 1 v.toNat) v.toNat := reads_le v.toNat_lt
  have hbytes : leBytes 1 v.toNat = [v] := by simp [leBytes]
  have h := hread.map UInt8.ofNat
  rwa [hbytes, UInt8.ofNat_toNat] at h

lemma reads_leUInt16 (v : UInt16) :
    Reads (leUInt16 : ByteReader ε UInt16) (leBytes 2 v.toNat) v := by
  have hread : Reads (le 2 : ByteReader ε ℕ) (leBytes 2 v.toNat) v.toNat := reads_le v.toNat_lt
  have h := hread.map UInt16.ofNat
  rwa [UInt16.ofNat_toNat] at h

lemma reads_leUInt32 (v : UInt32) :
    Reads (leUInt32 : ByteReader ε UInt32) (leBytes 4 v.toNat) v := by
  have hread : Reads (le 4 : ByteReader ε ℕ) (leBytes 4 v.toNat) v.toNat := reads_le v.toNat_lt
  have h := hread.map UInt32.ofNat
  rwa [UInt32.ofNat_toNat] at h

lemma reads_beUInt32 (v : UInt32) :
    Reads (beUInt32 : ByteReader ε UInt32) (beBytes 4 v.toNat) v := by
  have hread : Reads (be 4 : ByteReader ε ℕ) (beBytes 4 v.toNat) v.toNat := reads_be v.toNat_lt
  have h := hread.map UInt32.ofNat
  rwa [UInt32.ofNat_toNat] at h

lemma reads_beUInt64 (v : UInt64) :
    Reads (beUInt64 : ByteReader ε UInt64) (beBytes 8 v.toNat) v := by
  have hread : Reads (be 8 : ByteReader ε ℕ) (beBytes 8 v.toNat) v.toNat := reads_be v.toNat_lt
  have h := hread.map UInt64.ofNat
  rwa [UInt64.ofNat_toNat] at h

end Fields

/-! ### What can be read at all -/

lemma returns_true : Returns r fun _ => True := fun _ _ _ _ => trivial

lemma returns_pure {P : α → Prop} (h : P a) : Returns (pure a : ByteReader ε α) P := by
  intro s a' rest heq
  obtain ⟨rfl, -⟩ := Prod.mk.inj (ok.inj heq)
  exact h

lemma Returns.bind {P : α → Prop} {Q : β → Prop} (h : Returns r P)
    (h' : ∀ a, P a → Returns (f a) Q) : Returns (r >>= f) Q := by
  intro s b t heq
  obtain ⟨a, s', hr, hf⟩ := bind_eq_ok.mp heq
  exact h' a (h s a s' hr) s' b t hf

lemma returns_many {P : α → Prop} (h : Returns r P) (n : ℕ) :
    Returns (many r n) fun as => as.length = n ∧ ∀ a ∈ as, P a := by
  induction n with
  | zero => exact returns_pure ⟨rfl, by simp⟩
  | succ n ih =>
    refine h.bind fun a ha => ih.bind fun as has => returns_pure ⟨?_, ?_⟩
    · simp [has.1]
    · simpa using ⟨ha, has.2⟩

section Fields

variable [Inhabited ε]

lemma returns_take (n : ℕ) :
    Returns (take n : ByteReader ε (List UInt8)) fun bs => bs.length = n := by
  intro s bs t heq
  unfold take at heq
  split at heq
  · obtain ⟨rfl, -⟩ := Prod.mk.inj (ok.inj heq)
    simpa using ‹n ≤ s.length›
  · cases heq

lemma returns_be (w : ℕ) : Returns (be w : ByteReader ε ℕ) fun n => n < 256 ^ w :=
  (returns_take w).bind fun bs hbs => returns_pure (hbs ▸ beNat_lt bs)

end Fields

/-! ### Reading past the end -/

/-- With `n` bytes or more the reader takes just `n`. -/
def Covers (n : ℕ) (r : ByteReader ε α) : Prop :=
  ∀ s, n ≤ s.length → ∃ a, r s = .ok (a, s.drop n)

lemma covers_pure (a : α) : Covers 0 (pure a : ByteReader ε α) := fun _ _ => ⟨a, rfl⟩

lemma Covers.bind {n m : ℕ} (h : Covers n r) (h' : ∀ a, Covers m (f a)) :
    Covers (n + m) (r >>= f) := by
  intro s hs
  obtain ⟨a, hr⟩ := h s (by omega)
  obtain ⟨b, hf⟩ := h' a (s.drop n) (by rw [List.length_drop]; omega)
  rw [List.drop_drop] at hf
  exact ⟨b, bind_eq_ok.mpr ⟨a, s.drop n, hr, hf⟩⟩

def Takes (n : ℕ) (r : ByteReader ε α) : Prop :=
  ∀ s a t, r s = .ok (a, t) → n ≤ s.length ∧ t = s.drop n

lemma Takes.map {n : ℕ} (h : Takes n r) (g : α → β) : Takes n (do return g (← r)) := by
  intro s b t heq
  obtain ⟨a, s', hr, hpure⟩ := bind_eq_ok.mp heq
  obtain ⟨-, rfl⟩ := Prod.mk.inj (ok.inj hpure)
  exact h s a s' hr

section Fields

variable [Inhabited ε]

lemma takes_take (n : ℕ) : Takes n (take n : ByteReader ε (List UInt8)) := by
  intro s a t heq
  unfold take at heq
  split at heq
  · obtain ⟨-, rfl⟩ := Prod.mk.inj (ok.inj heq)
    exact ⟨‹_›, rfl⟩
  · cases heq

lemma takes_byte : Takes 1 (byte : ByteReader ε UInt8) := ((takes_take 1).map leNat).map UInt8.ofNat

lemma takes_leUInt32 : Takes 4 (leUInt32 : ByteReader ε UInt32) :=
  ((takes_take 4).map leNat).map UInt32.ofNat

/-- With `n` bytes or more the reader does not read past the end. -/
def Safe (n : ℕ) (r : ByteReader ε α) : Prop := ∀ s, n ≤ s.length → r s ≠ .error default

lemma covers_take (n : ℕ) : Covers n (take n : ByteReader ε (List UInt8)) :=
  fun s hs => ⟨s.take n, if_pos hs⟩

lemma covers_le (w : ℕ) : Covers w (le w : ByteReader ε ℕ) :=
  (covers_take w).bind fun _ => covers_pure _

lemma covers_byte : Covers 1 (byte : ByteReader ε UInt8) :=
  (covers_le 1).bind fun _ => covers_pure _

lemma covers_leUInt16 : Covers 2 (leUInt16 : ByteReader ε UInt16) :=
  (covers_le 2).bind fun _ => covers_pure _

lemma covers_leUInt32 : Covers 4 (leUInt32 : ByteReader ε UInt32) :=
  (covers_le 4).bind fun _ => covers_pure _

lemma Covers.safe {n : ℕ} (h : Covers n r) : Safe n r := by
  intro s hs
  obtain ⟨a, hr⟩ := h s hs
  rw [hr]
  exact nofun

lemma Covers.bind_safe {n m : ℕ} (h : Covers n r) (h' : ∀ a, Safe m (f a)) :
    Safe (n + m) (r >>= f) := by
  intro s hs
  obtain ⟨a, hr⟩ := h s (by omega)
  have hbind : (r >>= f) s = f a (s.drop n) := by
    show (r s).bind (fun p => f p.1 p.2) = _
    rw [hr]
    rfl
  rw [hbind]
  exact h' a (s.drop n) (by rw [List.length_drop]; omega)

lemma Safe.bind {n : ℕ} (h : Safe n r) (h' : ∀ a, Safe 0 (f a)) : Safe n (r >>= f) := by
  intro s hs
  show (r s).bind (fun p => f p.1 p.2) ≠ _
  cases hr : r s with
  | error e =>
    intro heq
    have he : e = default := error.inj heq
    exact h s hs (he ▸ hr)
  | ok p => exact h' p.1 p.2 (Nat.zero_le _)

lemma Safe.mono {n m : ℕ} (h : Safe n r) (hle : n ≤ m) : Safe m r :=
  fun s hs => h s (hle.trans hs)

lemma Safe.need {n m : ℕ} {e : ε} {f : Unit → ByteReader ε β} (he : e ≠ default)
    (h : Safe n (f ())) : Safe m (need n e >>= f) := by
  intro s _
  show (ByteReader.need n e s).bind (fun p => f p.1 p.2) ≠ _
  unfold ByteReader.need
  split
  · rename_i hn
    exact h s hn
  · exact fun heq => he (error.inj heq)

lemma Safe.ensure {n : ℕ} {c : Bool} {e : ε} {f : Unit → ByteReader ε β} (he : e ≠ default)
    (h : Safe n (f ())) : Safe n (ensure c e >>= f) := by
  intro s hs
  unfold ByteReader.ensure
  split
  · exact h s hs
  · exact fun heq => he (error.inj heq)

lemma Safe.remaining {n : ℕ} {f : ℕ → ByteReader ε β} (h : ∀ m, n ≤ m → Safe m (f m)) :
    Safe n (remaining >>= f) := fun s hs => h s.length hs s le_rfl

end Fields

end ByteReader
