/-
The texts of cell identifiers (`MeshID`, `String` and `ParseCellID` in `pkg/universe/cell_id.go`).

A mesh identifier is `cell_X_Y` at depth zero and `cell_dN_X_Y` below; the display form has no
`cell_`. `parseCellID` tries the four formats one after the other, each with `Sscanf`: the literal
characters of a format must be there, and `%d` reads an optional sign, where the variable is signed,
and as many decimal digits as there are, provided that the number fits the variable. What is left
over is ignored.
-/
import Mmokit.Universe.CellID
import Mathlib.Data.Nat.Digits.Defs

namespace Mmokit

open List

def formatInt (z : ℤ) : List Char :=
  if z < 0 then '-' :: Nat.toDigits 10 z.natAbs else Nat.toDigits 10 z.natAbs

/-! ### Scanning -/

def scanLiteral : List Char → List Char → Option (List Char)
  | [], cs => some cs
  | _ :: _, [] => none
  | p :: ps, c :: cs => if p = c then scanLiteral ps cs else none

def scanUint (bits : ℕ) (cs : List Char) : Option (ℕ × List Char) :=
  let digits := cs.takeWhile Char.isDigit
  let n := Nat.ofDigitChars 10 digits 0
  if digits ≠ [] ∧ n < 2 ^ bits then some (n, cs.dropWhile Char.isDigit) else none

def scanSign : List Char → Bool × List Char
  | '-' :: cs => (true, cs)
  | '+' :: cs => (false, cs)
  | cs => (false, cs)

def scanInt (bits : ℕ) (cs : List Char) : Option (ℤ × List Char) :=
  let sign := scanSign cs
  let digits := sign.2.takeWhile Char.isDigit
  let n := Nat.ofDigitChars 10 digits 0
  let z : ℤ := if sign.1 then -n else n
  if digits ≠ [] ∧ -2 ^ (bits - 1) ≤ z ∧ z < 2 ^ (bits - 1) then
    some (z, sign.2.dropWhile Char.isDigit)
  else none

def scanCoords (depth : ℕ) (cs : List Char) : Option CellID := do
  let (x, cs) ← scanInt 32 cs
  let cs ← scanLiteral ['_'] cs
  let (y, _) ← scanInt 32 cs
  some ⟨x, y, depth⟩

def scanDepthCoords (cs : List Char) : Option CellID := do
  let (depth, cs) ← scanUint 8 cs
  let cs ← scanLiteral ['_'] cs
  scanCoords depth cs

def scanCellID (cs : List Char) : Option CellID :=
  ((scanLiteral ['c', 'e', 'l', 'l', '_', 'd'] cs).bind scanDepthCoords) <|>
    ((scanLiteral ['c', 'e', 'l', 'l', '_'] cs).bind (scanCoords 0)) <|>
    ((scanLiteral ['d'] cs).bind scanDepthCoords) <|> scanCoords 0 cs

def parseCellID (s : String) : Option CellID := scanCellID s.toList

namespace CellID

def coordsText (c : CellID) : List Char := formatInt c.x ++ '_' :: formatInt c.y

def displayText (c : CellID) : List Char :=
  if c.depth = 0 then c.coordsText else 'd' :: (Nat.toDigits 10 c.depth ++ '_' :: c.coordsText)

def meshID (c : CellID) : String := String.ofList (['c', 'e', 'l', 'l', '_'] ++ c.displayText)

/-- The fields of a cell fit the types that the source gives them. -/
structure InRange (c : CellID) : Prop where
  x : -2 ^ 31 ≤ c.x ∧ c.x < 2 ^ 31
  y : -2 ^ 31 ≤ c.y ∧ c.y < 2 ^ 31
  depth : c.depth < 2 ^ 8

end CellID

/-! ### What is written can be scanned -/

def DigitFree (cs : List Char) : Prop := cs.takeWhile Char.isDigit = []

lemma takeWhile_toDigits (n : ℕ) {rest : List Char} (hrest : DigitFree rest) :
    (Nat.toDigits 10 n ++ rest).takeWhile Char.isDigit = Nat.toDigits 10 n := by
  have hall : ∀ c ∈ Nat.toDigits 10 n, c.isDigit = true :=
    fun c hc => Nat.isDigit_of_mem_toDigits (by omega) (by omega) hc
  rw [takeWhile_append_of_pos hall, hrest, append_nil]

lemma dropWhile_toDigits (n : ℕ) {rest : List Char} (hrest : DigitFree rest) :
    (Nat.toDigits 10 n ++ rest).dropWhile Char.isDigit = rest := by
  have h := takeWhile_append_dropWhile (p := Char.isDigit) (l := Nat.toDigits 10 n ++ rest)
  rw [takeWhile_toDigits n hrest] at h
  exact append_cancel_left h

lemma scanUint_toDigits {bits n : ℕ} (hn : n < 2 ^ bits) {rest : List Char}
    (hrest : DigitFree rest) : scanUint bits (Nat.toDigits 10 n ++ rest) = some (n, rest) := by
  unfold scanUint
  simp only [takeWhile_toDigits n hrest, dropWhile_toDigits n hrest, Nat.ofDigitChars_ten_toDigits]
  exact if_pos ⟨Nat.toDigits_ne_nil, hn⟩

lemma scanSign_toDigits (n : ℕ) (rest : List Char) :
    scanSign (Nat.toDigits 10 n ++ rest) = (false, Nat.toDigits 10 n ++ rest) := by
  obtain ⟨c, cs, hcs⟩ := exists_cons_of_ne_nil (Nat.toDigits_ne_nil (b := 10) (n := n))
  have hdigit : c.isDigit = true :=
    Nat.isDigit_of_mem_toDigits (b := 10) (n := n) (by omega) (by omega) (hcs ▸ mem_cons_self)
  rw [hcs]
  unfold scanSign
  split
  · rename_i heq
    obtain ⟨rfl, -⟩ := cons.inj heq
    exact absurd hdigit (by decide)
  · rename_i heq
    obtain ⟨rfl, -⟩ := cons.inj heq
    exact absurd hdigit (by decide)
  · rfl

lemma scanInt_formatInt {z : ℤ} (hz : -2 ^ 31 ≤ z ∧ z < 2 ^ 31) {rest : List Char}
    (hrest : DigitFree rest) : scanInt 32 (formatInt z ++ rest) = some (z, rest) := by
  by_cases hneg : z < 0
  · have hsign : scanSign (formatInt z ++ rest) = (true, Nat.toDigits 10 z.natAbs ++ rest) := by
      rw [formatInt, if_pos hneg]
      rfl
    have habs : -((z.natAbs : ℕ) : ℤ) = z := by omega
    simp only [scanInt, hsign, takeWhile_toDigits _ hrest, dropWhile_toDigits _ hrest,
      Nat.ofDigitChars_ten_toDigits, if_true, habs]
    exact if_pos ⟨Nat.toDigits_ne_nil, hz⟩
  · have hsign : scanSign (formatInt z ++ rest) = (false, Nat.toDigits 10 z.natAbs ++ rest) := by
      rw [formatInt, if_neg hneg]
      exact scanSign_toDigits _ _
    have habs : ((z.natAbs : ℕ) : ℤ) = z := by omega
    simp only [scanInt, hsign, takeWhile_toDigits _ hrest, dropWhile_toDigits _ hrest,
      Nat.ofDigitChars_ten_toDigits, Bool.false_eq_true, if_false, habs]
    exact if_pos ⟨Nat.toDigits_ne_nil, hz⟩

lemma scanLiteral_append (l rest : List Char) : scanLiteral l (l ++ rest) = some rest := by
  induction l with
  | nil => rfl
  | cons c l ih => rw [cons_append, scanLiteral, if_pos rfl, ih]

namespace CellID

variable {c : CellID}

lemma scanCoords_coordsText (hc : c.InRange) : scanCoords c.depth c.coordsText = some c := by
  have hx : scanInt 32 c.coordsText = some (c.x, '_' :: formatInt c.y) :=
    scanInt_formatInt hc.x rfl
  have hy : scanInt 32 (formatInt c.y) = some (c.y, []) := by
    have h := scanInt_formatInt hc.y (show DigitFree [] from rfl)
    rwa [append_nil] at h
  simp [scanCoords, hx, scanLiteral, hy]

lemma scanDepthCoords_text (hc : c.InRange) :
    scanDepthCoords (Nat.toDigits 10 c.depth ++ '_' :: c.coordsText) = some c := by
  have hd := scanUint_toDigits hc.depth (show DigitFree ('_' :: c.coordsText) from rfl)
  simp [scanDepthCoords, hd, scanLiteral, scanCoords_coordsText hc]

lemma head_coordsText : c.coordsText.head? ≠ some 'd' := by
  intro h
  rw [coordsText, formatInt] at h
  split at h
  · simp at h
  obtain ⟨a, l, hl⟩ := exists_cons_of_ne_nil (Nat.toDigits_ne_nil (b := 10) (n := c.x.natAbs))
  have hdigit : a.isDigit = true :=
    Nat.isDigit_of_mem_toDigits (b := 10) (n := c.x.natAbs) (by omega) (by omega)
      (hl ▸ mem_cons_self)
  obtain rfl : a = 'd' := by simpa [hl] using h
  exact absurd hdigit (by decide)

theorem parseCellID_meshID (hc : c.InRange) : parseCellID c.meshID = some c := by
  unfold parseCellID meshID scanCellID
  rw [String.toList_ofList]
  by_cases hd : c.depth = 0
  · -- `cell_X_Y`: the first format fails at its `d`
    have htext : c.displayText = c.coordsText := if_pos hd
    have hfirst : scanLiteral ['c', 'e', 'l', 'l', '_', 'd']
        (['c', 'e', 'l', 'l', '_'] ++ c.coordsText) = none := by
      have hhead := head_coordsText (c := c)
      cases hcs : c.coordsText with
      | nil => rfl
      | cons a l =>
        rw [hcs] at hhead
        have ha : 'd' ≠ a := by
          rintro rfl
          exact hhead rfl
        simp [scanLiteral, ha]
    have hcoords := scanCoords_coordsText hc
    rw [hd] at hcoords
    rw [htext, hfirst, scanLiteral_append]
    simp [hcoords]
  · have htext : ['c', 'e', 'l', 'l', '_'] ++ c.displayText = ['c', 'e', 'l', 'l', '_', 'd'] ++
        (Nat.toDigits 10 c.depth ++ '_' :: c.coordsText) := by
      rw [displayText, if_neg hd]
      rfl
    rw [htext, scanLiteral_append]
    simp [scanDepthCoords_text hc]

theorem meshID_inj {d : CellID} (hc : c.InRange) (hd : d.InRange) (h : c.meshID = d.meshID) :
    c = d := by
  have hparse := parseCellID_meshID hc
  rw [h, parseCellID_meshID hd] at hparse
  exact (Option.some.inj hparse).symm

end CellID

end Mmokit
