/-
The postings of trades.

What is booked for the trades of a call is a list of postings to balances and a list of postings to
bank entries, as long as the accounts have room for them.
-/
import Mathlib.Data.Rat.Floor
import Mathlib.Tactic.Positivity
import Mmokit.Marketplace.Settlement
import Mmokit.Orderbook.Trades

namespace Mmokit.Marketplace

open Orderbook Accounts List MatchEvent Int32

variable {P : Type*}

/-! ### What a trade is worth -/

def paid (cfg : MarketConfig) (m : MatchEvent P) : ℤ :=
  truncate (m.quantity.toInt * m.price.toInt * (1 - cfg.taxPct))

def withheld (cfg : MarketConfig) (m : MatchEvent P) : ℤ :=
  m.value - paid cfg m

def MarketConfig.TaxRate (cfg : MarketConfig) : Prop := 0 ≤ cfg.taxPct ∧ cfg.taxPct ≤ 1

/-- The value of the trade does not overflow. -/
structure Fits (m : MatchEvent P) : Prop where
  price : 0 ≤ m.price.toInt
  quantity : 0 ≤ m.quantity.toInt
  value : m.value < 2 ^ 63

lemma truncate_nonneg_le {v : ℤ} {t : ℚ} (hv : 0 ≤ v) (ht0 : 0 ≤ t) (ht1 : t ≤ 1) :
    0 ≤ truncate (v * (1 - t)) ∧ truncate (v * (1 - t)) ≤ v := by
  have hcast : (0 : ℚ) ≤ v := by exact_mod_cast hv
  have hnonneg : 0 ≤ (v : ℚ) * (1 - t) := mul_nonneg hcast (by linarith)
  have hle : (v : ℚ) * (1 - t) ≤ v := mul_le_of_le_one_right hcast (by linarith)
  generalize (v : ℚ) * (1 - t) = r at hnonneg hle
  have hnum : 0 ≤ r.num := Rat.num_nonneg.mpr hnonneg
  unfold truncate
  rw [Int.tdiv_eq_ediv_of_nonneg hnum]
  refine ⟨Int.ediv_nonneg hnum (by positivity), ?_⟩
  rw [← Rat.floor_def]
  exact_mod_cast (Int.floor_le r).trans hle

variable {cfg : MarketConfig} {m : MatchEvent P}

lemma paid_le (hcfg : cfg.TaxRate) (hm : Fits m) : 0 ≤ paid cfg m ∧ paid cfg m ≤ m.value := by
  have hvalue := mul_nonneg hm.price hm.quantity
  have hle := truncate_nonneg_le hvalue hcfg.1 hcfg.2
  have hcomm : ((m.price.toInt * m.quantity.toInt : ℤ) : ℚ) = m.quantity.toInt * m.price.toInt := by
    push_cast
    ring
  rwa [hcomm] at hle

lemma withheld_nonneg (hcfg : cfg.TaxRate) (hm : Fits m) :
    0 ≤ withheld cfg m := sub_nonneg.mpr (paid_le hcfg hm).2

lemma payout_toInt (hcfg : cfg.TaxRate) (hm : Fits m) : (payout cfg m).toInt = paid cfg m := by
  obtain ⟨hl, hu⟩ := paid_le hcfg hm
  have hvalue := hm.value
  unfold payout
  rw [← paid]
  exact Int64.toInt_ofInt_of_le (by omega) (by omega)

lemma neg_toInt {x : Int64} (h : 0 ≤ x.toInt) : (-x).toInt = -x.toInt := by
  have hlt := x.toInt_lt
  rw [Int64.toInt_neg]
  exact Int.bmod_eq_of_le (by omega) (by omega)

lemma neg_tradeCost_toInt (hm : Fits m) : (-tradeCost m).toInt = -m.value := by
  have hcost : (tradeCost m).toInt = m.value :=
    cost_toInt hm.price hm.quantity hm.value
  rw [neg_toInt (by rw [hcost]; exact mul_nonneg hm.price hm.quantity), hcost]

lemma foldl_quantity_toInt {trades : List (MatchEvent P)} {q : Int32} (hq : 0 ≤ q.toInt)
    (hpos : ∀ m ∈ trades, 0 < m.quantity.toInt)
    (hfits : q.toInt + (trades.map fun m => m.quantity.toInt).sum < 2 ^ 31) :
    (trades.foldl (fun q m => q + m.quantity) q).toInt =
      q.toInt + (trades.map fun m => m.quantity.toInt).sum := by
  induction trades generalizing q with
  | nil => simp
  | cons m trades ih =>
    have hm := hpos m mem_cons_self
    have hrest : 0 ≤ (trades.map fun m => m.quantity.toInt).sum := by
      refine sum_nonneg fun x hx => ?_
      obtain ⟨m', hm', rfl⟩ := mem_map.mp hx
      exact (hpos m' (mem_cons_of_mem _ hm')).le
    rw [map_cons, sum_cons] at hfits
    have hadd := fixedWidth_int32.add (a := q) (b := m.quantity) (by omega) (by omega)
    rw [foldl_cons, ih (by omega) (fun m' hm' => hpos m' (mem_cons_of_mem _ hm')) (by omega),
      hadd, map_cons, sum_cons, add_assoc]

lemma filledQty_placeResult (amount : MatchEvent P → Int64) (trades : List (MatchEvent P))
    (resting : Option (Order P)) : (placeResult amount trades resting).filledQty =
      trades.foldl (fun q m => q + m.quantity) 0 := by
  simp only [placeResult]
  split
  · rfl
  · rfl

/-! ### The postings of trades -/

def saleCredits (cfg : MarketConfig) (seller : P) (trades : List (MatchEvent P)) :
    List (P × Int64) := trades.map fun m => (seller, payout cfg m)

def saleDeliveries (itemID : UInt32) (trades : List (MatchEvent P)) :
    List ((P × UInt32) × Int32) := trades.map fun m => ((m.buyerID, itemID), m.quantity)

def purchasePayments (cfg : MarketConfig) (buyer : P) (trades : List (MatchEvent P)) :
    List (P × Int64) :=
  trades.flatMap fun m => [(buyer, -tradeCost m), (m.sellerID, payout cfg m)]

def purchaseDeliveries (buyer : P) (itemID : UInt32) (trades : List (MatchEvent P)) :
    List ((P × UInt32) × Int32) := trades.map fun m => ((buyer, itemID), m.quantity)

def withdrawals (player : P) (itemID : UInt32) (qs : List Int32) :
    List ((P × UInt32) × Int32) := qs.map fun q => ((player, itemID), -q)

def unitsOf (bs : List ((P × UInt32) × Int32)) (i : UInt32) : ℤ :=
  (bs.map fun e => ofItem e.1.2 e.2.toInt i).sum

lemma unitsOf_append (bs bs' : List ((P × UInt32) × Int32)) (i : UInt32) :
    unitsOf (bs ++ bs') i = unitsOf bs i + unitsOf bs' i := by
  simp [unitsOf]

variable {bs : List ((P × UInt32) × Int32)}

lemma credits_le_unitsOf [DecidableEq P] (hpos : ∀ e ∈ bs, 0 ≤ e.2.toInt) (p : P) (i : UInt32) :
    credits toInt bs (p, i) ≤ unitsOf bs i := by
  refine sum_le_sum fun e he => ?_
  have hnonneg := hpos e he
  unfold ofItem
  split
  · next heq =>
    rw [if_pos (congrArg Prod.snd heq)]
    omega
  · split <;> omega

lemma sum_posted_item [DecidableEq P] {players : Finset P} (hmem : ∀ e ∈ bs, e.1.1 ∈ players)
    {i : UInt32} : ∑ p ∈ players, posted toInt bs (p, i) = unitsOf bs i := by
  induction bs with
  | nil => simp [unitsOf]
  | cons e bs ih =>
    have hrest := ih fun e' he' => hmem e' (mem_cons_of_mem _ he')
    have hone : ∑ p ∈ players,
      (if e.1 = (p, i) then e.2.toInt else 0) = ofItem e.1.2 e.2.toInt i := by
      unfold ofItem
      split
      · next hi =>
        have hiff (p : P) : e.1 = (p, i) ↔ e.1.1 = p := by
          rw [← hi, Prod.ext_iff]
          simp
        simp only [hiff]
        rw [Finset.sum_ite_eq players e.1.1 fun _ => e.2.toInt, if_pos (hmem e mem_cons_self)]
      · next hi =>
        refine Finset.sum_eq_zero fun p _ => if_neg fun heq => hi ?_
        rw [heq]
    simp only [posted_cons, Finset.sum_add_distrib, hrest, hone]
    simp [unitsOf]

lemma neg_toInt_int32 {x : Int32} (h : 0 ≤ x.toInt) : (-x).toInt = -x.toInt := by
  have hlt := x.toInt_lt
  rw [toInt_neg]
  exact Int.bmod_eq_of_le (by omega) (by omega)

section Withdrawals

variable {qs : List Int32} (player : P) (itemID : UInt32)

lemma unitsOf_withdrawals (hqs : ∀ q ∈ qs, 0 ≤ q.toInt) (i : UInt32) :
    unitsOf (withdrawals player itemID qs) i = -ofItem itemID (qs.map toInt).sum i := by
  induction qs with
  | nil => simp [withdrawals, unitsOf, ofItem]
  | cons q qs ih =>
    have hrest := ih fun q' hq' => hqs q' (mem_cons_of_mem _ hq')
    unfold withdrawals unitsOf at hrest ⊢
    rw [map_cons, map_cons, sum_cons, hrest, map_cons, sum_cons,
      neg_toInt_int32 (hqs q mem_cons_self)]
    simp only [ofItem]
    split <;> omega

lemma withdrawals_room [DecidableEq P] (hqs : ∀ q ∈ qs, 0 ≤ q.toInt) (p : P) (i : UInt32) :
    credits toInt (withdrawals player itemID qs) (p, i) = 0 ∧
      debits toInt (withdrawals player itemID qs) (p, i) =
        if (player, itemID) = (p, i) then (qs.map toInt).sum else 0 := by
  induction qs with
  | nil => simp [withdrawals]
  | cons q qs ih =>
    have hq := hqs q mem_cons_self
    obtain ⟨hcredits, hdebits⟩ := ih fun q' hq' => hqs q' (mem_cons_of_mem _ hq')
    unfold withdrawals at hcredits hdebits ⊢
    simp only [map_cons, credits_cons, debits_cons, neg_toInt_int32 hq, hcredits, hdebits,
      sum_cons]
    split <;> omega

end Withdrawals

def reservation (buyer : P) (price : Int64) : Option (Order P) → List (P × Int64)
  | some resting => [(buyer, -(price * resting.quantity.toInt64))]
  | none => []

section Reservation

variable {price : Int64} {resting : Option (Order P)} (buyer : P)

lemma sum_reservation (hprice : 0 ≤ price.toInt) (hrest : 0 ≤ restQty resting)
    (hfits : price.toInt * restQty resting < 2 ^ 63) :
    ((reservation buyer price resting).map fun e => e.2.toInt).sum =
      -(price.toInt * restQty resting) := by
  cases resting with
  | none => simp [reservation, restQty]
  | some o =>
    have hcost : (price * o.quantity.toInt64).toInt = price.toInt * o.quantity.toInt :=
      cost_toInt hprice hrest hfits
    have hneg := neg_toInt (hcost ▸ mul_nonneg hprice hrest)
    simp only [reservation, map_cons, map_nil, sum_cons, sum_nil, add_zero, hneg,
      hcost]
    rfl

lemma reservation_room [DecidableEq P] (hprice : 0 ≤ price.toInt) (hrest : 0 ≤ restQty resting)
    (hfits : price.toInt * restQty resting < 2 ^ 63) (p : P) :
    credits Int64.toInt (reservation buyer price resting) p = 0 ∧
      debits Int64.toInt (reservation buyer price resting) p =
        if buyer = p then price.toInt * restQty resting else 0 := by
  have hsum := sum_reservation buyer hprice hrest hfits
  have hnonneg := mul_nonneg hprice hrest
  cases resting with
  | none => simp [reservation, restQty]
  | some o =>
    simp only [reservation, map_cons, map_nil, sum_cons, sum_nil, add_zero] at hsum
    simp only [reservation, credits_cons, credits_nil, debits_cons, debits_nil, hsum]
    split <;> omega

end Reservation

def refundCurrency (o : Order P) : List (P × Int64) :=
  match o.side with
  | .sell => []
  | .buy => [(o.owner, o.price * o.quantity.toInt64)]

def refundItems (o : Order P) : List ((P × UInt32) × Int32) :=
  match o.side with
  | .sell => [((o.owner, o.itemID), o.quantity)]
  | .buy => []

section Refunds

variable {os : List (Order P)}

lemma sum_refundCurrency {players : Finset P} (hos : ∀ o ∈ os, o.Standing players o.key o.side)
    (hfits : (os.map Order.escrow).sum < 2 ^ 63) :
    (∀ e ∈ os.flatMap refundCurrency, 0 ≤ e.2.toInt ∧ e.1 ∈ players) ∧
      ((os.flatMap refundCurrency).map fun e => e.2.toInt).sum = (os.map Order.escrow).sum := by
  have hescrow : ∀ x ∈ os.map Order.escrow, 0 ≤ x := by
    intro x hx
    obtain ⟨o, ho, rfl⟩ := mem_map.mp hx
    have hvalue := mul_nonneg (hos o ho).price (hos o ho).quantity.le
    unfold Order.escrow Order.value
    split
    · exact hvalue
    · exact le_rfl
  induction os with
  | nil => simp
  | cons o os ih =>
    have ho := hos o mem_cons_self
    rw [map_cons, sum_cons] at hfits
    have hhead := hescrow _ mem_cons_self
    have htail := sum_nonneg fun x hx => hescrow x (mem_cons_of_mem _ hx)
    obtain ⟨hmem, hsum⟩ := ih (fun o' ho' => hos o' (mem_cons_of_mem _ ho')) (by omega)
      fun x hx => hescrow x (mem_cons_of_mem _ hx)
    rw [flatMap_cons, map_append, sum_append, hsum, map_cons]
    cases hside : o.side with
    | sell =>
      have hnone : refundCurrency o = [] := by simp only [refundCurrency, hside]
      have hzero : o.escrow = 0 := by simp [Order.escrow, hside]
      rw [hnone, hzero]
      exact ⟨hmem, by simp⟩
    | buy =>
      have hone : refundCurrency o = [(o.owner, o.price * o.quantity.toInt64)] := by
        simp only [refundCurrency, hside]
      have hvalue : o.escrow = o.price.toInt * o.quantity.toInt := by
        simp [Order.escrow, hside, Order.value]
      have hcost := cost_toInt ho.price ho.quantity.le (by omega)
      rw [hone]
      refine ⟨?_, ?_⟩
      · intro e he
        rcases mem_cons.mp he with rfl | he
        · exact ⟨by rw [hcost]; omega, ho.owner⟩
        · exact hmem e he
      · simp only [map_cons, map_nil, sum_cons, sum_nil, hcost, hvalue, add_zero]

lemma unitsOf_refundItems (os : List (Order P)) (i : UInt32) :
    unitsOf (os.flatMap refundItems) i = (os.map (Order.stock i)).sum := by
  induction os with
  | nil => rfl
  | cons o os ih =>
    rw [flatMap_cons, unitsOf_append, ih]
    cases hside : o.side <;> simp [refundItems, hside, unitsOf, Order.stock, ofItem]

end Refunds

section Trades

variable {cfg : MarketConfig} {trades : List (MatchEvent P)}

lemma sum_saleCredits (hcfg : cfg.TaxRate) (hfits : ∀ m ∈ trades, Fits m) (seller : P) :
    ((saleCredits cfg seller trades).map fun e => e.2.toInt).sum = (trades.map (paid cfg)).sum := by
  rw [saleCredits, map_map]
  exact sum_map_congr fun m hm => payout_toInt hcfg (hfits m hm)

lemma sum_purchasePayments (hcfg : cfg.TaxRate) (hfits : ∀ m ∈ trades, Fits m) (buyer : P) :
    ((purchasePayments cfg buyer trades).map fun e => e.2.toInt).sum =
      (trades.map (paid cfg)).sum - (trades.map value).sum := by
  induction trades with
  | nil => rfl
  | cons m trades ih =>
    have hm := hfits m mem_cons_self
    have hrest := ih fun m' hm' => hfits m' (mem_cons_of_mem _ hm')
    unfold purchasePayments at hrest ⊢
    rw [flatMap_cons, map_append, sum_append, hrest]
    simp only [map_cons, map_nil, sum_cons, sum_nil, neg_tradeCost_toInt hm,
      payout_toInt hcfg hm]
    ring

lemma sum_withheld (cfg : MarketConfig) (trades : List (MatchEvent P)) :
    (trades.map (withheld cfg)).sum =
      (trades.map value).sum - (trades.map (paid cfg)).sum := by
  induction trades with
  | nil => rfl
  | cons m trades ih =>
    simp only [map_cons, sum_cons, ih, withheld]
    ring

lemma sum_paid_le (hcfg : cfg.TaxRate) (hfits : ∀ m ∈ trades, Fits m) :
    (trades.map (paid cfg)).sum ≤ (trades.map value).sum :=
  sum_le_sum fun m hm => (paid_le hcfg (hfits m hm)).2

lemma sum_saleDeliveries (trades : List (MatchEvent P)) (itemID : UInt32) :
    ((saleDeliveries itemID trades).map fun e => e.2.toInt).sum =
      (trades.map fun m => m.quantity.toInt).sum := by
  rw [saleDeliveries, map_map]
  rfl

lemma unitsOf_saleDeliveries (itemID i : UInt32) :
    unitsOf (saleDeliveries itemID trades) i =
      ofItem itemID (trades.map fun m => m.quantity.toInt).sum i := by
  rw [← sum_ofItem, unitsOf, saleDeliveries, map_map]
  rfl

lemma unitsOf_purchaseDeliveries (buyer : P) (itemID i : UInt32) :
    unitsOf (purchaseDeliveries buyer itemID trades) i =
      ofItem itemID (trades.map fun m => m.quantity.toInt).sum i := by
  rw [← sum_ofItem, unitsOf, purchaseDeliveries, map_map]
  rfl

variable [DecidableEq P]

lemma saleCredits_room (hcfg : cfg.TaxRate) (hfits : ∀ m ∈ trades, Fits m) (seller p : P) :
    credits Int64.toInt (saleCredits cfg seller trades) p ≤ (trades.map value).sum ∧
      debits Int64.toInt (saleCredits cfg seller trades) p = 0 := by
  have hpos : ∀ e ∈ saleCredits cfg seller trades, 0 ≤ e.2.toInt := by
    intro e he
    obtain ⟨m, hm, rfl⟩ := mem_map.mp he
    simp only [payout_toInt hcfg (hfits m hm)]
    exact (paid_le hcfg (hfits m hm)).1
  refine ⟨?_, debits_eq_zero hpos p⟩
  calc credits Int64.toInt (saleCredits cfg seller trades) p
      ≤ ((saleCredits cfg seller trades).map fun e => e.2.toInt).sum := credits_le hpos p
    _ = (trades.map (paid cfg)).sum := sum_saleCredits hcfg hfits seller
    _ ≤ (trades.map value).sum := sum_paid_le hcfg hfits

lemma purchasePayments_room (hcfg : cfg.TaxRate) (hfits : ∀ m ∈ trades, Fits m) (buyer p : P) :
    credits Int64.toInt (purchasePayments cfg buyer trades) p ≤ (trades.map value).sum ∧
      debits Int64.toInt (purchasePayments cfg buyer trades) p ≤
        if buyer = p then (trades.map value).sum else 0 := by
  induction trades with
  | nil => simp [purchasePayments]
  | cons m trades ih =>
    have hm := hfits m mem_cons_self
    obtain ⟨hcredits, hdebits⟩ := ih fun m' hm' => hfits m' (mem_cons_of_mem _ hm')
    obtain ⟨hpaid, hle⟩ := paid_le hcfg hm
    unfold purchasePayments at hcredits hdebits ⊢
    simp only [flatMap_cons, cons_append, nil_append, credits_cons, debits_cons,
      neg_tradeCost_toInt hm, payout_toInt hcfg hm, map_cons, sum_cons]
    refine ⟨?_, ?_⟩
    · split <;> split <;> omega
    by_cases hbuyer : buyer = p
    · simp only [if_pos hbuyer] at hdebits ⊢
      split <;> omega
    · simp only [if_neg hbuyer] at hdebits ⊢
      split <;> omega

end Trades

namespace Market

variable [DecidableEq P]

def book (s : Market P) (cs : List (P × Int64)) (bs : List ((P × UInt32) × Int32)) :
    Market P :=
  { s with currency := cs.foldl post s.currency, bank := bs.foldl post s.bank }

@[simp] lemma book_service (s : Market P) (cs : List (P × Int64))
    (bs : List ((P × UInt32) × Int32)) : (s.book cs bs).service = s.service := rfl

lemma book_book (s : Market P) (cs cs' : List (P × Int64)) (bs bs' : List ((P × UInt32) × Int32)) :
    (s.book cs bs).book cs' bs' = s.book (cs ++ cs') (bs ++ bs') := by
  simp only [book, foldl_append]

variable {s : Market P} {p : P}

lemma modifyCurrency_eq (hp : p ∈ s.players) (delta : Int64) :
    s.modifyCurrency p delta = s.book [(p, delta)] [] := if_pos hp

lemma deposit_eq (hp : p ∈ s.players) (itemID : UInt32) (q : Int32) :
    s.deposit p itemID q = s.book [] [((p, itemID), q)] := if_pos hp

variable {itemID : UInt32}

lemma withdraw_eq (hp : p ∈ s.players) {q : Int32} (hq : 0 ≤ q.toInt)
    (hle : q.toInt ≤ (s.bank (p, itemID)).toInt) :
    s.withdraw p itemID q = s.book [] [((p, itemID), -q)] := by
  have hsub := toInt_sub_of_le hq hle
  have hleft : (if s.bank (p, itemID) - q ≤ 0 then 0 else s.bank (p, itemID) - q) =
      s.bank (p, itemID) + -q := by
    rw [← Int32.sub_eq_add_neg]
    split
    · next h =>
      rw [le_iff_toInt_le, toInt_zero] at h
      exact toInt_inj.mp (by rw [toInt_zero]; omega)
    · rfl
  unfold withdraw
  rw [if_pos hp]
  simp only [hleft]
  rfl

lemma escrowCurrency_eq (hp : p ∈ s.players) (price : Int64) (resting : Option (Order P)) :
    s.escrowCurrency p price resting = s.book (reservation p price resting) [] := by
  cases resting with
  | none => rfl
  | some o => exact modifyCurrency_eq hp _

variable {cfg : MarketConfig} {seller : P} {trades : List (MatchEvent P)}

lemma foldl_settleSell (hseller : seller ∈ s.players)
    (hbuyers : ∀ m ∈ trades, m.buyerID ∈ s.players) :
    trades.foldl (settleSell cfg seller itemID) s =
      s.book (saleCredits cfg seller trades) (saleDeliveries itemID trades) := by
  induction trades generalizing s with
  | nil => rfl
  | cons m trades ih =>
    have hbuyer := hbuyers m mem_cons_self
    have hone : settleSell cfg seller itemID s m =
        s.book [(seller, payout cfg m)] [((m.buyerID, itemID), m.quantity)] := by
      unfold settleSell
      rw [modifyCurrency_eq hseller, deposit_eq (s := s.book _ _) hbuyer]
      rfl
    rw [foldl_cons, hone,
      ih (s := s.book _ _) hseller fun m' hm' => hbuyers m' (mem_cons_of_mem _ hm')]
    rfl

lemma foldl_settleBuy {buyer : P} (hbuyer : buyer ∈ s.players)
    (hsellers : ∀ m ∈ trades, m.sellerID ∈ s.players) :
    trades.foldl (settleBuy cfg buyer itemID) s =
      s.book (purchasePayments cfg buyer trades) (purchaseDeliveries buyer itemID trades) := by
  induction trades generalizing s with
  | nil => rfl
  | cons m trades ih =>
    have hseller := hsellers m mem_cons_self
    have hone : settleBuy cfg buyer itemID s m =
        s.book [(buyer, -tradeCost m), (m.sellerID, payout cfg m)]
          [((buyer, itemID), m.quantity)] := by
      unfold settleBuy
      rw [deposit_eq hbuyer, modifyCurrency_eq (s := s.book _ _) hbuyer, book_book,
        modifyCurrency_eq (s := s.book _ _) hseller]
      rfl
    rw [foldl_cons, hone,
      ih (s := s.book _ _) hbuyer fun m' hm' => hsellers m' (mem_cons_of_mem _ hm')]
    rfl

variable {os : List (Order P)}

lemma foldl_refund (howners : ∀ o ∈ os, o.owner ∈ s.players) :
    os.foldl refund s = s.book (os.flatMap refundCurrency) (os.flatMap refundItems) := by
  induction os generalizing s with
  | nil => rfl
  | cons o os ih =>
    have ho := howners o mem_cons_self
    have hone : s.refund o = s.book (refundCurrency o) (refundItems o) := by
      unfold refund refundCurrency refundItems
      cases o.side with
      | sell => exact deposit_eq ho _ _
      | buy => exact modifyCurrency_eq ho _
    rw [foldl_cons, hone, ih (s := s.book _ _)
      fun o' ho' => howners o' (mem_cons_of_mem _ ho'), book_book]
    rfl

lemma settleSale_eq (cfg : MarketConfig) {qty : Int32} {resting : Option (Order P)}
    (hseller : seller ∈ s.players) (htaken : Taken s.players (·.buyerID) os qty trades resting)
    (hroom : (s.bank (seller, itemID)).toInt + qty.toInt < 2 ^ 31)
    (hcover : qty.toInt ≤ (s.bank (seller, itemID)).toInt) :
    ∃ qs : List Int32, (∀ q ∈ qs, 0 ≤ q.toInt) ∧
      (qs.map toInt).sum = (trades.map fun m => m.quantity.toInt).sum ∧
      s.settleSale cfg seller itemID trades = s.book (saleCredits cfg seller trades)
        (saleDeliveries itemID trades ++ withdrawals seller itemID qs) ∧
      restQty resting ≤ ((s.settleSale cfg seller itemID trades).bank (seller, itemID)).toInt := by
  have hquantity := htaken.quantity
  have hrest := htaken.rest
  have hpos : ∀ e ∈ saleDeliveries itemID trades, 0 ≤ e.2.toInt := by
    intro e he
    obtain ⟨m, hm, rfl⟩ := mem_map.mp he
    exact (htaken.positive m hm).le
  have hsum := sum_saleDeliveries trades itemID
  have hsold := foldl_quantity_toInt (q := 0) le_rfl htaken.positive (by
    rw [toInt_zero]
    omega)
  rw [toInt_zero] at hsold
  -- the seller may buy from themselves: the deliveries can only add to the entry
  have hcredits := credits_le hpos (seller, itemID)
  have hdebits := debits_eq_zero hpos (seller, itemID)
  have hafter : ((saleDeliveries itemID trades).foldl post s.bank (seller, itemID)).toInt =
      (s.bank (seller, itemID)).toInt +
        credits toInt (saleDeliveries itemID trades) (seller, itemID) := by
    have hle := (s.bank (seller, itemID)).le_toInt
    have hinRange : InRange (2 ^ 31) (s.bank (seller, itemID)).toInt
        (credits toInt (saleDeliveries itemID trades) (seller, itemID))
        (debits toInt (saleDeliveries itemID trades) (seller, itemID)) :=
      ⟨by omega, by omega⟩
    rw [foldl_post fixedWidth_int32 hinRange, posted_eq, hdebits, sub_zero]
  have hnonneg : 0 ≤ credits toInt (saleDeliveries itemID trades) (seller, itemID) :=
    credits_nonneg _ _
  generalize hsoldQty : trades.foldl (fun q m => q + m.quantity) 0 = sold at hsold
  unfold settleSale
  rw [foldl_settleSell hseller htaken.owner, filledQty_placeResult, hsoldQty]
  simp only
  split
  · next hpos' =>
    rw [lt_iff_toInt_lt] at hpos'
    have hle : sold.toInt ≤
        ((saleDeliveries itemID trades).foldl post s.bank (seller, itemID)).toInt := by omega
    have hbook := withdraw_eq
      (s := s.book (saleCredits cfg seller trades) (saleDeliveries itemID trades))
        hseller hpos'.le hle
    rw [hbook, book_book, append_nil]
    refine ⟨[sold], by simpa using hpos'.le, by simpa using hsold, rfl, ?_⟩
    have hsub := toInt_sub_of_le hpos'.le hle
    simp only [book, foldl_append, foldl_cons, foldl_nil, post, Function.update_self,
      ← Int32.sub_eq_add_neg]
    omega
  · next hnone =>
    rw [lt_iff_toInt_lt, toInt_zero] at hnone
    refine ⟨[], by simp, ?_, by rw [withdrawals, map_nil, append_nil], ?_⟩
    · rw [map_nil, sum_nil]
      omega
    · simp only [book]
      omega

end Market

end Mmokit.Marketplace
