/-
What the matching loop does.

Whatever the rule that says how much of a resting order is taken, as long as it takes something and
not more than there is or than is wanted, the loop moves exactly what it reports: the fills and what
is still wanted add up to the quantity asked for, and any total that is proportional to quantities
is split between the fills and the orders left in the book.
-/
import Mathlib.Algebra.Order.BigOperators.Group.List
import Mathlib.Tactic.Linarith
import Mathlib.Tactic.Ring
import Mmokit.Orderbook.Service

namespace Mmokit.Orderbook

open List

variable {P σ : Type*}

def Order.withQuantity (o : Order P) (q : Int32) : Order P := { o with quantity := q }

def Order.value (o : Order P) : ℤ := o.price.toInt * o.quantity.toInt

def Fill.value (f : Fill P) : ℤ := f.order.price.toInt * f.quantity.toInt

lemma toInt_sub_of_le {a b : Int32} (hb : 0 ≤ b.toInt) (hab : b.toInt ≤ a.toInt) :
    (a - b).toInt = a.toInt - b.toInt := by
  have ha := a.toInt_lt
  rw [Int32.toInt_sub]
  exact Int.bmod_eq_of_le (by omega) (by omega)

lemma upTo_toInt (remaining : Int32) (o : Order P) :
    (upTo remaining o).toInt = min o.quantity.toInt remaining.toInt := by
  unfold upTo
  split
  · next h =>
    rw [Int32.lt_iff_toInt_lt] at h
    omega
  · next h =>
    rw [Int32.lt_iff_toInt_lt] at h
    omega

/-! ### The loop -/

/-- A rule is fair where `J` holds: what it takes is positive and neither more than wanted nor more
than there is, and `J` holds again for the rest of the side. -/
def Fair (trade : σ → Int32 → Order P → Option (Int32 × σ))
    (J : σ → List (Order P) → Prop) : Prop :=
  ∀ ⦃acc : σ⦄ ⦃remaining : Int32⦄ ⦃o : Order P⦄ ⦃os : List (Order P)⦄ ⦃t : Int32⦄ ⦃acc' : σ⦄,
    J acc (o :: os) → 0 < remaining.toInt → trade acc remaining o = some (t, acc') →
      0 < t.toInt ∧ t.toInt ≤ remaining.toInt ∧ t.toInt ≤ o.quantity.toInt ∧ J acc' os

/-- What a fair loop leaves and reports. -/
structure Filled.Spec (os : List (Order P)) (qty : Int32) (r : Filled P) : Prop where
  quantity : (r.fills.map fun f => f.quantity.toInt).sum + r.remaining.toInt = qty.toInt
  remaining : 0 ≤ r.remaining.toInt
  fills : ∀ f ∈ r.fills, f.order ∈ os ∧ 0 < f.quantity.toInt
  left : ∀ o ∈ r.left, o ∈ os ∨ ∃ o' ∈ os, ∃ q : Int32, 0 < q.toInt ∧ o = o'.withQuantity q
  ids : (r.left.map (·.id)).Sublist (os.map (·.id))
  split : ∀ c : Order P → ℤ, (∀ o q, c (o.withQuantity q) = c o) →
    (r.left.map fun o => c o * o.quantity.toInt).sum +
      (r.fills.map fun f => c f.order * f.quantity.toInt).sum =
    (os.map fun o => c o * o.quantity.toInt).sum

variable {os : List (Order P)} {qty : Int32}

lemma Filled.spec_stop (h : 0 ≤ qty.toInt) :
    Filled.Spec os qty ⟨[], qty, os⟩ where
  quantity := by simp
  remaining := h
  fills _ hf := absurd hf (by simp)
  left o ho := .inl ho
  ids := List.Sublist.refl _
  split c _ := by simp

variable {o : Order P}

lemma Filled.Spec.cons {t : Int32} {r : Filled P} (ht : 0 < t.toInt) (htq : t.toInt ≤ qty.toInt)
    (hto : t.toInt ≤ o.quantity.toInt) (h : Filled.Spec os (qty - t) r) :
    Filled.Spec (o :: os) qty
      ⟨⟨o, t⟩ :: r.fills, r.remaining,
        if o.quantity - t ≤ 0 then r.left else o.withQuantity (o.quantity - t) :: r.left⟩ := by
  have hleft : (o.quantity - t).toInt = o.quantity.toInt - t.toInt := toInt_sub_of_le ht.le hto
  have hqty : (qty - t).toInt = qty.toInt - t.toInt := toInt_sub_of_le ht.le htq
  refine ⟨?_, h.remaining, ?_, ?_, ?_, ?_⟩
  · have hquantity := h.quantity
    simp only [map_cons, sum_cons]
    omega
  · intro f hf
    rcases mem_cons.mp hf with rfl | hf
    · exact ⟨mem_cons_self, ht⟩
    · exact ⟨mem_cons_of_mem _ (h.fills f hf).1, (h.fills f hf).2⟩
  · intro x hx
    have hrest (hx : x ∈ r.left) :
        x ∈ o :: os ∨ ∃ o' ∈ o :: os, ∃ q : Int32, 0 < q.toInt ∧ x = o'.withQuantity q := by
      rcases h.left x hx with hmem | ⟨o', ho', q, hq, rfl⟩
      · exact .inl (mem_cons_of_mem _ hmem)
      · exact .inr ⟨o', mem_cons_of_mem _ ho', q, hq, rfl⟩
    split at hx
    · exact hrest hx
    next hpos =>
    rw [Int32.le_iff_toInt_le, not_le] at hpos
    rcases mem_cons.mp hx with rfl | hx
    · exact .inr ⟨o, mem_cons_self, _, hpos, rfl⟩
    · exact hrest hx
  · split
    · exact h.ids.cons _
    · exact h.ids.cons_cons _
  · intro c hc
    have hsplit := h.split c hc
    -- a used up order counts as the empty one it is
    have hhead : ((if o.quantity - t ≤ 0 then r.left
          else o.withQuantity (o.quantity - t) :: r.left).map fun o => c o * o.quantity.toInt).sum =
        c o * (o.quantity.toInt - t.toInt) + (r.left.map fun o => c o * o.quantity.toInt).sum := by
      split
      · next hle =>
        rw [Int32.le_iff_toInt_le, Int32.toInt_zero] at hle
        have hzero : o.quantity.toInt - t.toInt = 0 := by omega
        rw [hzero, mul_zero, zero_add]
      · rw [map_cons, hc, ← hleft]
        rfl
    rw [hhead]
    simp only [map_cons, sum_cons]
    rw [← hsplit]
    ring

/-- **The matching loop** moves exactly what it reports. -/
theorem fillLoop_spec {trade : σ → Int32 → Order P → Option (Int32 × σ)}
    {J : σ → List (Order P) → Prop} (hfair : Fair trade J) (acc : σ) (hJ : J acc os)
    (hqty : 0 ≤ qty.toInt) : Filled.Spec os qty (fillLoop trade acc qty os) := by
  induction os generalizing acc qty with
  | nil => exact Filled.spec_stop hqty
  | cons o os ih =>
    rw [fillLoop]
    split
    · next hpos =>
      rw [Int32.lt_iff_toInt_lt] at hpos
      split
      · exact Filled.spec_stop hqty
      next t acc' htrade =>
      obtain ⟨ht, htq, hto, hJ'⟩ := hfair hJ hpos htrade
      refine (ih acc' hJ' ?_).cons ht htq hto
      rw [toInt_sub_of_le ht.le htq]
      omega
    · exact Filled.spec_stop hqty

/-! ### The rules -/

def Stocked (os : List (Order P)) : Prop := ∀ o ∈ os, 0 < o.quantity.toInt

lemma Stocked.upTo {remaining : Int32} (h : Stocked (o :: os)) (hpos : 0 < remaining.toInt) :
    0 < (upTo remaining o).toInt ∧ (Orderbook.upTo remaining o).toInt ≤ remaining.toInt ∧
      (Orderbook.upTo remaining o).toInt ≤ o.quantity.toInt := by
  have ho := h o mem_cons_self
  rw [upTo_toInt]
  omega

lemma Stocked.tail (h : Stocked (o :: os)) :
    Stocked os := fun x hx => h x (mem_cons_of_mem _ hx)

lemma fair_atMarket : Fair (@atMarket P) fun _ os => Stocked os := by
  intro acc remaining o os t acc' hJ hpos htrade
  cases htrade
  obtain ⟨ht, hrem, hto⟩ := hJ.upTo hpos
  exact ⟨ht, hrem, hto, hJ.tail⟩

lemma fair_of_limit {trade : Unit → Int32 → Order P → Option (Int32 × Unit)}
    (h : ∀ acc remaining o, trade acc remaining o = none ∨
      trade acc remaining o = atMarket acc remaining o) : Fair trade fun _ os => Stocked os := by
  intro acc remaining o os t acc' hJ hpos htrade
  rcases h acc remaining o with hnone | hmarket
  · rw [hnone] at htrade
    cases htrade
  · exact fair_atMarket hJ hpos (hmarket ▸ htrade)

lemma fair_sellLimit (price : Int64) :
    Fair (@sellLimit P price) fun _ os => Stocked os := by
  refine fair_of_limit fun acc remaining o => ?_
  unfold sellLimit
  split
  · exact .inl rfl
  · exact .inr rfl

lemma fair_buyLimit (price : Int64) :
    Fair (@buyLimit P price) fun _ os => Stocked os := by
  refine fair_of_limit fun acc remaining o => ?_
  unfold buyLimit
  split
  · exact .inl rfl
  · exact .inr rfl

lemma cost_toInt {price : Int64} {q : Int32} (hprice : 0 ≤ price.toInt) (hq : 0 ≤ q.toInt)
    (hfits : price.toInt * q.toInt < 2 ^ 63) :
    (price * q.toInt64).toInt = price.toInt * q.toInt := by
  have hnonneg := mul_nonneg hprice hq
  rw [Int64.toInt_mul, Int32.toInt_toInt64]
  exact Int.bmod_eq_of_le (by omega) (by omega)

/-- The running cost of an instant purchase and what is still for sale fit together. -/
structure Affords (totalCost : Int64) (os : List (Order P)) : Prop where
  stocked : Stocked os
  price : ∀ o ∈ os, 0 ≤ o.price.toInt
  nonneg : 0 ≤ totalCost.toInt
  fits : totalCost.toInt + (os.map Order.value).sum < 2 ^ 63

lemma value_sum_nonneg (hstocked : Stocked os) (hprice : ∀ o ∈ os, 0 ≤ o.price.toInt) :
    0 ≤ (os.map Order.value).sum := by
  refine sum_nonneg fun x hx => ?_
  obtain ⟨o, ho, rfl⟩ := mem_map.mp hx
  exact mul_nonneg (hprice o ho) (hstocked o ho).le

/-- What the budget rule takes: at most what is wanted and there is; with a positive budget the
running cost grows by exactly the cost of the trade and does not pass the budget, and no other unit
could be paid where it takes less. -/
lemma withinBudget_spec (maxCost : Int64) {totalCost : Int64} {remaining : Int32}
    (hup : 0 < (upTo remaining o).toInt) (hprice : 0 ≤ o.price.toInt)
    (hnonneg : 0 ≤ totalCost.toInt)
    (hfits : totalCost.toInt + o.price.toInt * (upTo remaining o).toInt < 2 ^ 63) :
    (withinBudget maxCost totalCost remaining o = none →
      maxCost.toInt < totalCost.toInt + o.price.toInt) ∧
    ∀ {t : Int32} {totalCost' : Int64},
      withinBudget maxCost totalCost remaining o = some (t, totalCost') →
      0 < t.toInt ∧ t.toInt ≤ (upTo remaining o).toInt ∧
      (maxCost.toInt ≤ 0 → totalCost' = totalCost) ∧
      (0 < maxCost.toInt → totalCost'.toInt = totalCost.toInt + o.price.toInt * t.toInt ∧
        (totalCost.toInt ≤ maxCost.toInt → totalCost'.toInt ≤ maxCost.toInt) ∧
        (t.toInt < (upTo remaining o).toInt →
          maxCost.toInt < totalCost'.toInt + o.price.toInt)) := by
  -- the cost of any part of the order fits next to the running cost
  have hcost {q : Int32} (hq : 0 ≤ q.toInt) (hle : q.toInt ≤ (upTo remaining o).toInt) :
      (totalCost + o.price * q.toInt64).toInt = totalCost.toInt + o.price.toInt * q.toInt := by
    have hmul := mul_le_mul_of_nonneg_left hle hprice
    have hq' := mul_nonneg hprice hq
    have hprod := cost_toInt hprice hq (by omega)
    rw [Int64.toInt_add, hprod]
    exact Int.bmod_eq_of_le (by omega) (by omega)
  unfold withinBudget
  simp only [Int64.lt_iff_toInt_lt, Int64.le_iff_toInt_le, Int32.le_iff_toInt_le, Int64.toInt_zero,
    Int32.toInt_zero, hcost hup.le le_rfl]
  split
  swap
  · next hnone =>
    refine ⟨nofun, fun htrade => ?_⟩
    cases htrade
    exact ⟨hup, le_rfl, fun _ => rfl, fun h => absurd h hnone⟩
  next hbudget =>
  split
  swap
  · next hunder =>
    refine ⟨nofun, fun htrade => ?_⟩
    cases htrade
    rw [hcost hup.le le_rfl]
    exact ⟨hup, le_rfl, fun h => absurd h (by omega), fun _ =>
      ⟨rfl, fun _ => by omega, fun h => absurd h (lt_irrefl _)⟩⟩
  next hover =>
  -- the order is too dear as a whole: what is left of the budget buys a part of it
  have hafford : (maxCost - totalCost).toInt = maxCost.toInt - totalCost.toInt := by
    have := totalCost.toInt_lt
    rw [Int64.toInt_sub]
    exact Int.bmod_eq_of_le (by omega) (by omega)
  rcases hprice.eq_or_lt with hzero | hpricepos
  · rw [← hzero] at hover
    rw [if_pos (by omega)]
    exact ⟨fun _ => by omega, nofun⟩
  split
  · exact ⟨fun _ => by omega, nofun⟩
  next hsome =>
  have hge := Int.ediv_nonneg (a := maxCost.toInt - totalCost.toInt) (by omega) hprice
  have hlt : (maxCost.toInt - totalCost.toInt) / o.price.toInt < (upTo remaining o).toInt := by
    rw [Int.ediv_lt_iff_lt_mul hpricepos]
    rw [mul_comm] at hover
    omega
  have hquot : ((maxCost - totalCost) / o.price).toInt =
      (maxCost.toInt - totalCost.toInt) / o.price.toInt := by
    have := (upTo remaining o).toInt_lt
    rw [Int64.toInt_div, hafford, Int.tdiv_eq_ediv_of_nonneg (by omega)]
    exact Int.bmod_eq_of_le (by omega) (by omega)
  have hpart : (((maxCost - totalCost) / o.price).toInt32).toInt =
      (maxCost.toInt - totalCost.toInt) / o.price.toInt := by
    have := (upTo remaining o).toInt_lt
    rw [Int64.toInt_toInt32, hquot]
    exact Int.bmod_eq_of_le (by omega) (by omega)
  have hnext := Int.lt_mul_ediv_self_add (x := maxCost.toInt - totalCost.toInt) hpricepos
  split
  · next hnone =>
    rw [show (maxCost.toInt - totalCost.toInt) / o.price.toInt = 0 by omega] at hnext
    exact ⟨fun _ => by omega, nofun⟩
  next hpartpos =>
  refine ⟨nofun, fun htrade => ?_⟩
  cases htrade
  rw [hcost (by omega) (by omega), hpart]
  refine ⟨by omega, by omega, fun h => absurd h (by omega), fun _ =>
    ⟨rfl, fun _ => ?_, fun _ => by omega⟩⟩
  have := Int.mul_ediv_self_le (x := maxCost.toInt - totalCost.toInt) hpricepos.ne'
  omega

lemma Affords.upTo {totalCost : Int64} {remaining : Int32} (hJ : Affords totalCost (o :: os))
    (hpos : 0 < remaining.toInt) :
    totalCost.toInt + o.price.toInt * (Orderbook.upTo remaining o).toInt < 2 ^ 63 := by
  obtain ⟨-, -, hqty⟩ := hJ.stocked.upTo hpos
  have hrest := value_sum_nonneg hJ.stocked.tail fun x hx => hJ.price x (mem_cons_of_mem _ hx)
  have hmul := mul_le_mul_of_nonneg_left hqty (hJ.price o mem_cons_self)
  have hfits := hJ.fits
  rw [map_cons, sum_cons, Order.value] at hfits
  omega

lemma fair_withinBudget (maxCost : Int64) : Fair (@withinBudget P maxCost) Affords := by
  intro totalCost remaining o os t totalCost' hJ hpos htrade
  obtain ⟨hup, hrem, hqty⟩ := hJ.stocked.upTo hpos
  obtain ⟨ht, hle, hnone, hbudget⟩ :=
    (withinBudget_spec maxCost hup (hJ.price o mem_cons_self) hJ.nonneg (hJ.upTo hpos)).2 htrade
  have hprice := hJ.price o mem_cons_self
  have hfits := hJ.fits
  rw [map_cons, sum_cons, Order.value] at hfits
  have hnonneg := hJ.nonneg
  have hcost := mul_nonneg hprice ht.le
  have hmul : o.price.toInt * t.toInt ≤ o.price.toInt * o.quantity.toInt :=
    mul_le_mul_of_nonneg_left (by omega) hprice
  refine ⟨ht, by omega, by omega, hJ.stocked.tail, fun x hx => hJ.price x (mem_cons_of_mem _ hx),
    ?_, ?_⟩
  · rcases le_or_gt maxCost.toInt 0 with h | h
    · rw [hnone h]
      exact hnonneg
    · omega
  · rcases le_or_gt maxCost.toInt 0 with h | h
    · rw [hnone h]
      omega
    · rw [(hbudget h).1]
      omega

/-- **A positive budget is kept**: what an instant purchase costs is within it. -/
theorem cost_withinBudget {maxCost totalCost : Int64} (qty : Int32) (hbudget : 0 < maxCost.toInt)
    (hJ : Affords totalCost os) (hle : totalCost.toInt ≤ maxCost.toInt) :
    totalCost.toInt +
      ((fillLoop (withinBudget maxCost) totalCost qty os).fills.map Fill.value).sum ≤
      maxCost.toInt := by
  induction os generalizing totalCost qty with
  | nil => simpa [fillLoop] using hle
  | cons o os ih =>
    rw [fillLoop]
    split
    · next hpos =>
      rw [Int32.lt_iff_toInt_lt] at hpos
      split
      · simpa using hle
      next t totalCost' htrade =>
      obtain ⟨-, -, -, hspent⟩ :=
        (withinBudget_spec maxCost (hJ.stocked.upTo hpos).1 (hJ.price o mem_cons_self)
        hJ.nonneg (hJ.upTo hpos)).2 htrade
      obtain ⟨-, -, -, hJ'⟩ := fair_withinBudget maxCost hJ hpos htrade
      obtain ⟨heq, hbound, -⟩ := hspent hbudget
      rw [map_cons, sum_cons, Fill.value, ← add_assoc, ← heq]
      exact ih _ hJ' (hbound hle)
    · simpa using hle

end Mmokit.Orderbook
