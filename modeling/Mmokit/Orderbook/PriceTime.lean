/-
Price-time priority and the budget of an instant purchase.

A limit order takes the orders of the other side from the front, in the order of the book, and only
the last one in part.
-/
import Mmokit.Orderbook.RestingOrders

namespace Mmokit.Orderbook

open List Service Int32 OrderBook

variable {P : Type*} {os : List (Order P)} {qty : Int32} {o : Order P} {resting : Option (Order P)}

/-- What a fill leaves of its order in the book. -/
def Fill.residue (f : Fill P) : Option (Order P) :=
  if f.order.quantity - f.quantity ≤ 0 then none
  else some (f.order.withQuantity (f.order.quantity - f.quantity))

/-- How a limit order was matched against a side: the fills are the front of the side, all of them
within the limit, each but the last one used up; and if something is left to fill, nothing crosses
any more. -/
structure Filled.InOrder (crosses : Order P → Prop) (os : List (Order P))
    (r : Filled P) : Prop where
  taken : ∃ rest, os = r.fills.map (·.order) ++ rest ∧
    r.left = r.fills.filterMap Fill.residue ++ rest
  whole : ∀ f ∈ r.fills.dropLast, f.quantity = f.order.quantity
  limit : ∀ f ∈ r.fills, crosses f.order
  stop : 0 < r.remaining.toInt → ∀ o ∈ r.left, ¬ crosses o

lemma fillLoop_nonpos {σ : Type*} {trade : σ → Int32 → Order P → Option (Int32 × σ)} {acc : σ}
    (h : qty.toInt ≤ 0) : fillLoop trade acc qty os = ⟨[], qty, os⟩ := by
  cases os with
  | nil => rfl
  | cons o os =>
    rw [fillLoop, if_neg]
    rw [lt_iff_toInt_lt, toInt_zero]
    omega

lemma Filled.InOrder.sublist {crosses : Order P → Prop} {r : Filled P} (h : r.InOrder crosses os)
    {β : Type*} (key : Order P → β) (hkey : ∀ o q, key (o.withQuantity q) = key o) :
    (r.left.map key).Sublist (os.map key) := by
  have hfills (fills : List (Fill P)) : ((fills.filterMap Fill.residue).map key).Sublist
      ((fills.map (·.order)).map key) := by
    induction fills with
    | nil => exact .slnil
    | cons f fills ih =>
      rw [filterMap_cons, Fill.residue]
      split
      · exact ih.cons _
      · next o ho =>
        split at ho
        · cases ho
        · rw [← Option.some.inj ho, map_cons, hkey]
          exact ih.cons_cons _
  obtain ⟨rest, hos, hleft⟩ := h.taken
  rw [hos, hleft, map_append, map_append]
  exact (hfills r.fills).append (.refl _)

/-- `a` comes before `b` on its side: at a better price, or at the same one and not later. -/
abbrev Ahead (better : Int64 → Int64 → Prop) (a b : Order P) : Prop :=
  better a.price b.price ∨ a.price = b.price ∧ a.createdAt ≤ b.createdAt

/-- A book in price-time order, without used up orders. -/
structure OrderBook.Sorted (ob : OrderBook P) : Prop where
  sells : ob.sells.Pairwise (Ahead (· < ·))
  buys : ob.buys.Pairwise (Ahead (· > ·))
  sellsStocked : Stocked ob.sells
  buysStocked : Stocked ob.buys

/-- What a limit order does to its own side: the part that rests is added, and nothing else
changes. -/
structure Rests (own own' : List (Order P)) (resting : Option (Order P)) : Prop where
  perm : own'.Perm (resting.toList ++ own)
  kept : own.Sublist own'

lemma Rests.none (own : List (Order P)) : Rests own own none := ⟨.refl _, .refl _⟩

lemma Rests.stocked {own own' : List (Order P)} (h : Rests own own' resting) (hown : Stocked own)
    (hresting : ∀ o ∈ resting, 0 < o.quantity.toInt) : Stocked own' := by
  intro o ho
  rcases mem_append.mp (h.perm.mem_iff.mp ho) with hnew | hold
  · exact hresting o (Option.mem_toList.mp hnew)
  · exact hown o hold

variable {s s' : Service P} {cfg : Config} {player : P} {k : BookKey} {price now : Int64}
  {events : List (MatchEvent P)}

/-- The exact cost of some fills. -/
def cost (fills : List (Fill P)) : ℤ := (fills.map Fill.value).sum

/-- **The sums of an instant purchase fit**, at every order that it reaches: `spent` and the cost of
what is wanted of the order. All in exact integers; the purchase goes on while it can pay a unit. -/
def SumsFit (maxCost : ℤ) : (spent wanted : ℤ) → List (Order P) → Prop
  | _, _, [] => True
  | spent, wanted, o :: os => 0 < wanted →
    spent + o.price.toInt * min o.quantity.toInt wanted < 2 ^ 63 ∧
      let bought := min (min o.quantity.toInt wanted) ((maxCost - spent) / o.price.toInt)
      (0 < bought → SumsFit maxCost (spent + o.price.toInt * bought) (wanted - bought) os)

lemma eq_min_of_budget {price t most budget : ℤ} (hprice : 0 < price) (ht : t ≤ most)
    (hle : price * t ≤ budget) (hpart : t < most → budget < price * t + price) :
    t = min most (budget / price) := by
  have hdiv : t ≤ budget / price := by rwa [Int.le_ediv_iff_mul_le hprice, mul_comm]
  rcases ht.lt_or_eq with hlt | hall
  · have : budget / price < t + 1 := by
      rw [Int.ediv_lt_iff_lt_mul hprice, add_mul, mul_comm t, Int.one_mul]
      exact hpart hlt
    omega
  · omega

/-- **The budget is used up**: an instant purchase costs at most `maxCost`, and where more is
wanted, no order left in the book is cheap enough for another unit. -/
theorem fillLoop_budget {maxCost totalCost : Int64} (hstocked : Stocked os)
    (hprice : ∀ o ∈ os, 0 < o.price.toInt)
    (hsorted : os.Pairwise fun a b => a.price.toInt ≤ b.price.toInt)
    (hfits : SumsFit maxCost.toInt totalCost.toInt qty.toInt os) (hnonneg : 0 ≤ totalCost.toInt)
    (hle : totalCost.toInt ≤ maxCost.toInt) (hbudget : 0 < maxCost.toInt) :
    let r := fillLoop (withinBudget maxCost) totalCost qty os
    (r.fills.map fun f => f.quantity.toInt).sum + r.remaining.toInt = qty.toInt ∧ 0 ≤ cost r.fills ∧
      totalCost.toInt + cost r.fills ≤ maxCost.toInt ∧ (0 < r.remaining.toInt →
        ∀ o ∈ r.left, maxCost.toInt < totalCost.toInt + cost r.fills + o.price.toInt) := by
  induction os generalizing qty totalCost with
  | nil => exact ⟨by simp [fillLoop], le_rfl, by simpa [fillLoop, cost] using hle,
    by simp [fillLoop]⟩
  | cons o os ih =>
    by_cases hpos : 0 < qty.toInt
    swap
    · rw [fillLoop_nonpos (by omega)]
      exact ⟨by simp, le_rfl, by simpa [cost] using hle, fun h => absurd h hpos⟩
    have hpos' : 0 < qty := by rwa [lt_iff_toInt_lt, toInt_zero]
    obtain ⟨hhead, hsorted⟩ := pairwise_cons.mp hsorted
    obtain ⟨hup, hrem, hquantity⟩ := hstocked.upTo hpos
    obtain ⟨hfit, hfits⟩ := hfits hpos
    rw [← upTo_toInt] at hfit hfits
    have hprice' := hprice o mem_cons_self
    obtain ⟨hnone, hsome⟩ := withinBudget_spec maxCost hup hprice'.le hnonneg hfit
    rw [fillLoop, if_pos hpos']
    cases htrade : withinBudget maxCost totalCost qty o with
    | none =>
      refine ⟨by simp, le_rfl, by simpa [cost] using hle, fun _ x hx => ?_⟩
      have hx' : o.price.toInt ≤ x.price.toInt := by
        rcases mem_cons.mp hx with rfl | hx
        · exact le_rfl
        · exact hhead x hx
      have := hnone htrade
      simp only [cost, map_nil, sum_nil]
      omega
    | some taken =>
      obtain ⟨t, totalCost'⟩ := taken
      obtain ⟨ht, htup, -, hspent⟩ := hsome htrade
      obtain ⟨heq, hbound, hpart⟩ := hspent hbudget
      have hpaid := mul_nonneg hprice'.le ht.le
      have hwant := toInt_sub_of_le ht.le (htup.trans hrem)
      -- the loop buys what the exact purchase buys
      have hbought : t.toInt = min (upTo qty o).toInt
          ((maxCost.toInt - totalCost.toInt) / o.price.toInt) := by
        refine eq_min_of_budget hprice' htup (by omega) fun hlt => ?_
        have hnext := hpart hlt
        omega
      have hfits' := hfits (by omega)
      rw [← hbought, ← heq, ← hwant] at hfits'
      obtain ⟨hsum, hcost, hwithin, hstop⟩ := ih hstocked.tail
        (fun x hx => hprice x (mem_cons_of_mem _ hx)) hsorted hfits' (by omega) (hbound hle)
      have hcons (fs : List (Fill P)) :
          cost (⟨o, t⟩ :: fs) = o.price.toInt * t.toInt + cost fs := by
        simp [cost, Fill.value]
      simp only [hcons, map_cons, sum_cons]
      refine ⟨by omega, by omega, by omega, fun hrest x hx => ?_⟩
      have hstop' : x ∈ (fillLoop (withinBudget maxCost) totalCost' (qty - t) os).left →
          maxCost.toInt < totalCost.toInt + (o.price.toInt * t.toInt +
            cost (fillLoop (withinBudget maxCost) totalCost' (qty - t) os).fills) +
              x.price.toInt := by
        intro hx
        have := hstop hrest x hx
        omega
      split at hx
      · exact hstop' hx
      next hstays =>
      rcases mem_cons.mp hx with rfl | hx
      swap
      · exact hstop' hx
      -- what stays of the order was beyond the budget, for more is wanted
      have hless : t.toInt < (upTo qty o).toInt := by
        refine lt_of_le_of_ne htup fun hall => ?_
        have hmin := upTo_toInt qty o
        rw [le_iff_toInt_le, toInt_zero, toInt_sub_of_le ht.le (by omega)] at hstays
        rw [fillLoop_nonpos (by omega)] at hrest
        dsimp only at hrest
        omega
      dsimp only
      omega

/-- **An instant purchase keeps to its budget and uses it up**, where its sums fit into an `int64`
at every order that it reaches. -/
theorem instantBuy_budget {maxCost : Int64} (hbook : (s.book k).Sorted)
    (hprice : ∀ o ∈ (s.book k).sells, 0 < o.price.toInt) (hbudget : 0 < maxCost.toInt)
    (hfits : SumsFit maxCost.toInt 0 qty.toInt (s.book k).sells)
    (hok : s.instantBuy player k qty maxCost = .ok (s', events)) :
    let paid := (events.map fun m => m.price.toInt * m.quantity.toInt).sum
    paid ≤ maxCost.toInt ∧ ((events.map fun m => m.quantity.toInt).sum < qty.toInt →
      ∀ o ∈ (s'.book k).sells, maxCost.toInt < paid + o.price.toInt) := by
  unfold instantBuy at hok
  split at hok
  · cases hok
  next hqty =>
  cases hok
  have hsorted : (s.book k).sells.Pairwise fun a b => a.price.toInt ≤ b.price.toInt := by
    refine hbook.sells.imp fun h => ?_
    rcases h with h | ⟨h, -⟩
    · exact (Int64.lt_iff_toInt_lt.mp h).le
    · exact (congrArg Int64.toInt h).le
  obtain ⟨hsum, -, hwithin, hstop⟩ := fillLoop_budget hbook.sellsStocked hprice hsorted hfits
    (by decide : 0 ≤ (0 : Int64).toInt) hbudget.le hbudget
  have hpaid (fills : List (Fill P)) : ((fills.map (buyMatch player k)).map fun m =>
      m.price.toInt * m.quantity.toInt).sum = cost fills := by
    rw [map_map]
    rfl
  have hbought (fills : List (Fill P)) : ((fills.map (buyMatch player k)).map fun m =>
      m.quantity.toInt).sum = (fills.map fun f => f.quantity.toInt).sum := by
    rw [map_map]
    rfl
  simp only [hpaid, hbought]
  rw [Int64.toInt_zero, zero_add] at hwithin
  refine ⟨hwithin, fun hless o ho => ?_⟩
  rw [show (setBook ..).book k = _ from Function.update_self ..] at ho
  have := hstop (by omega) o ho
  rwa [Int64.toInt_zero, zero_add] at this

/-- One ask for four units at the price `2 ^ 62`: they cost 0 in 64 bits. -/
def dear : Service Unit :=
  new.setBook ⟨1, 1⟩ { sells := [⟨1, .sell, (), 1, 1, 4611686018427387904, 4, 4, 5, 0⟩] }

theorem instantBuy_beyond_budget : ∃ s' events, dear.instantBuy () ⟨1, 1⟩ 4 10 = .ok (s', events) ∧
    (dear.book ⟨1, 1⟩).Sorted ∧
      10 < (events.map fun m => m.price.toInt * m.quantity.toInt).sum := by
  refine ⟨_, _, rfl, ⟨?_, ?_, ?_, ?_⟩, by decide⟩
  · decide
  · decide
  · exact show ∀ o ∈ _, _ by decide
  · exact show ∀ o ∈ _, _ by decide

/-- Three units are bought at 7; the second ask, at `2 ^ 62`, is not reached. -/
theorem instantBuy_budget_two :
    let s : Service Unit := new.setBook ⟨1, 1⟩
      { sells := [⟨1, .sell, (), 1, 1, 7, 3, 3, 5, 0⟩,
          ⟨2, .sell, (), 1, 1, 4611686018427387904, 4, 4, 6, 0⟩] }
    ∃ s' events, (s.instantBuy () ⟨1, 1⟩ 3 100 = .ok (s', events) ∧ events.map (·.quantity) = [3]) ∧
      (events.map fun m => m.price.toInt * m.quantity.toInt).sum ≤ (100 : Int64).toInt := by
  intro s
  have hok : s.instantBuy () ⟨1, 1⟩ 3 100 = .ok (_, _) := rfl
  refine ⟨_, _, ⟨hok, by decide⟩, (instantBuy_budget ⟨?_, ?_, ?_, ?_⟩ ?_ (by decide) ?_ hok).1⟩
  · decide
  · decide
  · exact show ∀ o ∈ _, _ by decide
  · exact show ∀ o ∈ _, _ by decide
  · exact show ∀ o ∈ _, _ by decide
  · exact fun _ => ⟨by decide, fun _ hmore => absurd hmore (by decide)⟩

end Mmokit.Orderbook
