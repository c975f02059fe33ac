/-
The calls of the settlement as postings.
-/
import Mathlib.Algebra.BigOperators.Ring.List
import Mmokit.Marketplace.Postings

namespace Mmokit.Marketplace

open Orderbook Accounts List MatchEvent Market Int32

variable {P : Type*}

/-! ### What a call can move -/

def cancelled (s : Market P) (orderID : ℕ) : List (Order P) :=
  (s.service.orders.find? (·.id = orderID)).toList

def Call.stake (s : Market P) : Call P → ℤ
  | placeSellOrder _ loc item _ _ _ | instantSell _ loc item _ =>
    ((s.service.book ⟨loc, item⟩).buys.map Order.value).sum
  | placeBuyOrder _ _ _ price qty _ => price.toInt * qty.toInt
  | instantBuy _ loc item _ => ((s.service.book ⟨loc, item⟩).sells.map Order.value).sum
  | cancelOrder _ orderID => ((cancelled s orderID).map Order.escrow).sum
  | expireOrders now => ((s.service.expired now).map Order.escrow).sum

def Call.items (s : Market P) : Call P → List UInt32
  | placeSellOrder _ _ item _ _ _ | placeBuyOrder _ _ item _ _ _ | instantSell _ _ item _
  | instantBuy _ _ item _ => [item]
  | cancelOrder _ orderID => (cancelled s orderID).map (·.itemID)
  | expireOrders now => (s.service.expired now).map (·.itemID)

def Call.units (s : Market P) (i : UInt32) : Call P → ℤ
  | placeSellOrder _ _ item _ qty _ | placeBuyOrder _ _ item _ qty _ | instantSell _ _ item qty
  | instantBuy _ _ item qty => ofItem item qty.toInt i
  | cancelOrder _ orderID => ((cancelled s orderID).map (Order.stock i)).sum
  | expireOrders now => ((s.service.expired now).map (Order.stock i)).sum

def Call.price : Call P → Option Int64
  | placeSellOrder _ _ _ price _ _ | placeBuyOrder _ _ _ price _ _ => some price
  | instantSell _ _ _ _ | instantBuy _ _ _ _ | cancelOrder _ _ | expireOrders _ => none

/-- A price that is high enough is not negative; a positive minimum sees to that. -/
def Call.Priced (cfg : MarketConfig) (c : Call P) : Prop :=
  ∀ price ∈ c.price, cfg.minPrice.toInt ≤ price.toInt → 0 ≤ price.toInt

/-- There is room for a call: no balance and no bank entry can leave its width by what the call can
move. -/
structure Call.Room (s : Market P) (c : Call P) : Prop where
  currency : ∀ p ∈ s.players, InRange (2 ^ 63) (s.currency p).toInt (c.stake s) (c.stake s)
  bank : ∀ p ∈ s.players, ∀ i ∈ c.items s,
    InRange (2 ^ 31) (s.bank (p, i)).toInt (c.units s i) (c.units s i)

instance (cfg : MarketConfig) (c : Call P) : Decidable (c.Priced cfg) :=
  Option.decidableForallMem c.price

instance (s : Market P) (c : Call P) : Decidable (c.Room s) :=
  have : Decidable (∀ p ∈ s.players,
      InRange (2 ^ 63) (s.currency p).toInt (c.stake s) (c.stake s)) :=
    Finset.decidableDforallFinset
  have : Decidable (∀ p ∈ s.players, ∀ i ∈ c.items s,
      InRange (2 ^ 31) (s.bank (p, i)).toInt (c.units s i) (c.units s i)) :=
    @Finset.decidableDforallFinset _ s.players _ fun _ _ => decidableBAll _ _
  decidable_of_iff _ ⟨fun h => ⟨h.1, h.2⟩, fun h => And.intro h.currency h.bank⟩

/-- An instant purchase is made with a balance, or there is nothing to buy. -/
def Call.Funded (s : Market P) : Call P → Prop
  | instantBuy p loc item _ => 0 < (s.currency p).toInt ∨ (s.service.book ⟨loc, item⟩).sells = []
  | placeSellOrder _ _ _ _ _ _ | placeBuyOrder _ _ _ _ _ _ | instantSell _ _ _ _ | cancelOrder _ _
  | expireOrders _ => True

instance (s : Market P) : (c : Call P) → Decidable (c.Funded s)
  | .instantBuy _ loc item _ =>
    have : Decidable ((s.service.book ⟨loc, item⟩).sells = []) :=
      decidable_of_iff _ isEmpty_iff
    inferInstanceAs (Decidable (_ ∨ _))
  | .placeSellOrder _ _ _ _ _ _ | .placeBuyOrder _ _ _ _ _ _ | .instantSell _ _ _ _
  | .cancelOrder _ _ | .expireOrders _ => .isTrue trivial

/-- The result of a call is its postings, and they balance with the book. What they take from an
account that is not overdrawn, it holds; for balances this is so if the call is `Funded`. -/
structure Booked [DecidableEq P] (cfg : MarketConfig) (s : Market P) (c : Call P)
    (out : Outcome P) (cs : List (P × Int64)) (bs : List ((P × UInt32) × Int32)) :
    Prop where
  market : out.market = ({ s with service := out.market.service } : Market P).book cs bs
  wf : out.market.service.WF s.players
  payee : ∀ e ∈ cs, e.1 ∈ s.players
  holder : ∀ e ∈ bs, e.1.1 ∈ s.players ∧ e.1.2 ∈ c.items s
  escrow : out.market.service.total Order.escrow + (cs.map fun e => e.2.toInt).sum +
    (out.trades.map (withheld cfg)).sum = s.service.total Order.escrow
  stock : ∀ i, out.market.service.total (Order.stock i) + unitsOf bs i =
    s.service.total (Order.stock i)
  withheld : ∀ m ∈ out.trades, 0 ≤ withheld cfg m
  currency : ∀ p, credits Int64.toInt cs p ≤ c.stake s ∧ debits Int64.toInt cs p ≤ c.stake s
  bank : ∀ p i, credits toInt bs (p, i) ≤ c.units s i ∧
    debits toInt bs (p, i) ≤ c.units s i
  covered : ∀ p ∈ s.players, ∀ i, 0 ≤ (s.bank (p, i)).toInt →
    debits toInt bs (p, i) ≤ (s.bank (p, i)).toInt
  funded : c.Funded s → ∀ p ∈ s.players, 0 ≤ (s.currency p).toInt →
    debits Int64.toInt cs p ≤ (s.currency p).toInt

section Calls

variable {cfg : MarketConfig} {s : Market P} {c : Call P}

variable {owner : MatchEvent P → P} {os : List (Order P)} {qty : Int32}
  {trades : List (MatchEvent P)} {resting : Option (Order P)}

lemma Call.Room.fits (hroom : c.Room s) {p : P} (hp : p ∈ s.players)
    (htaken : Taken s.players owner os qty trades resting)
    (hstake : (trades.map value).sum ≤ c.stake s) : ∀ m ∈ trades, Fits m := by
  intro m hm
  have hle := single_le_sum htaken.value_nonneg _ (mem_map_of_mem hm)
  obtain ⟨hl, hu⟩ := hroom.currency p hp
  exact ⟨htaken.price m hm, (htaken.positive m hm).le, by omega⟩

variable {players : Finset P}

lemma cost_le_limit (htaken : Taken players owner os qty trades resting) {limit : ℤ}
    (hlimit : 0 ≤ limit) (hle : ∀ m ∈ trades, m.price.toInt ≤ limit) :
    (trades.map value).sum + limit * restQty resting ≤ limit * qty.toInt := by
  have hvalues : (trades.map value).sum ≤
      (trades.map fun m => limit * m.quantity.toInt).sum :=
    sum_le_sum fun m hm =>
      mul_le_mul_of_nonneg_right (hle m hm) (htaken.positive m hm).le
  have hquantity := mul_le_mul_of_nonneg_left htaken.quantity hlimit
  rw [sum_map_mul_left] at hvalues
  linarith

variable [DecidableEq P]

lemma saleEntries_room (htaken : Taken players owner os qty trades resting) {qs : List Int32}
    (hqs : ∀ q ∈ qs, 0 ≤ q.toInt)
    (hsum : (qs.map toInt).sum = (trades.map fun m => m.quantity.toInt).sum + restQty resting)
    (seller : P) (itemID : UInt32) (p : P) (i : UInt32) :
    credits toInt (saleDeliveries itemID trades ++ withdrawals seller itemID qs) (p, i) ≤
        ofItem itemID qty.toInt i ∧
      debits toInt (saleDeliveries itemID trades ++ withdrawals seller itemID qs) (p, i) ≤
        if (seller, itemID) = (p, i) then qty.toInt else 0 := by
  have hquantity := htaken.quantity
  have hrest := htaken.rest
  have hpos : ∀ e ∈ saleDeliveries itemID trades, 0 ≤ e.2.toInt := by
    intro e he
    obtain ⟨m, hm, rfl⟩ := mem_map.mp he
    exact (htaken.positive m hm).le
  have hcredits := credits_le_unitsOf hpos p i
  obtain ⟨hcredits', hdebits'⟩ := withdrawals_room seller itemID hqs p i
  rw [unitsOf_saleDeliveries] at hcredits
  refine ⟨?_, ?_⟩
  · rw [credits_append, hcredits', add_zero]
    exact hcredits.trans (ofItem_le (by omega) i)
  rw [debits_append, debits_eq_zero hpos, hdebits', zero_add, hsum]
  split
  · exact hquantity
  · exact le_rfl

variable {k : BookKey} {service : Service P} {s' : Market P}

lemma booked_sale (hcfg : cfg.TaxRate) (hroom : c.Room s) {seller : P}
    (hseller : seller ∈ s.players) (hqty : 0 < qty.toInt)
    (hsold : Sold s.players k qty s.service service trades resting)
    (hstake : c.stake s = ((s.service.book k).buys.map Order.value).sum)
    (hitems : c.items s = [k.itemID]) (hunits : ∀ i, c.units s i = ofItem k.itemID qty.toInt i)
    (hcover : qty.toInt ≤ (s.bank (seller, k.itemID)).toInt)
    (hs' : s' = (settleSale cfg { s with service := service } seller k.itemID
      trades).escrowItems seller k.itemID resting) (result : Option PlaceResult) :
    ∃ cs bs, Booked cfg s c ⟨s', result, trades⟩ cs bs := by
  have hfits := hroom.fits hseller hsold.toTaken (hstake ▸ hsold.stake)
  have hseller_room := hroom.bank seller hseller k.itemID (hitems ▸ mem_singleton_self _)
  rw [hunits, ofItem, if_pos rfl] at hseller_room
  obtain ⟨qs, hqs, hsum, hsettle, hrest⟩ := settleSale_eq cfg
    (s := { s with service := service }) hseller hsold.toTaken hseller_room.2 hcover
  -- what rests is one more withdrawal
  have hbook : ∃ qs' : List Int32, (∀ q ∈ qs', 0 ≤ q.toInt) ∧
      (qs'.map toInt).sum = (trades.map fun m => m.quantity.toInt).sum + restQty resting ∧
      s' = book { s with service := service } (saleCredits cfg seller trades)
        (saleDeliveries k.itemID trades ++ withdrawals seller k.itemID qs') := by
    cases resting with
    | none => exact ⟨qs, hqs, by simpa [restQty] using hsum, hs'.trans hsettle⟩
    | some o =>
      have hwithdraw := withdraw_eq
        (s := settleSale cfg { s with service := service } seller k.itemID trades)
        (by rw [hsettle]; exact hseller) hsold.rest hrest
      refine ⟨qs ++ [o.quantity], ?_, ?_, ?_⟩
      · intro q hq
        rcases mem_append.mp hq with h | h
        · exact hqs q h
        · rw [mem_singleton.mp h]
          exact hsold.rest
      · rw [map_append, sum_append, hsum]
        simp [restQty]
      · rw [hs', escrowItems, hwithdraw, hsettle, book_book, append_nil, withdrawals, withdrawals,
          map_append, append_assoc]
        rfl
  obtain ⟨qs', hqs', hsum', rfl⟩ := hbook
  have hentries (p : P) (i : UInt32) :=
    saleEntries_room hsold.toTaken hqs' hsum' seller k.itemID p i
  have hsale (p : P) := saleCredits_room hcfg hfits seller p
  refine ⟨_, _, rfl, hsold.wf, ?_, ?_, ?_, ?_, ?_, ?_, ?_, ?_, ?_⟩
  · intro e he
    obtain ⟨m, -, rfl⟩ := mem_map.mp he
    exact hseller
  · intro e he
    rw [hitems, mem_singleton]
    rcases mem_append.mp he with h | h
    · obtain ⟨m, hm, rfl⟩ := mem_map.mp h
      exact ⟨hsold.owner m hm, rfl⟩
    · obtain ⟨q, -, rfl⟩ := mem_map.mp h
      exact ⟨hseller, rfl⟩
  · have hescrow := hsold.escrow
    rw [sum_saleCredits hcfg hfits, sum_withheld]
    simp only [book_service]
    linarith
  · intro i
    rw [book_service, hsold.stock i, unitsOf_append, unitsOf_saleDeliveries,
      unitsOf_withdrawals _ _ hqs', hsum', ofItem_add]
    ring
  · exact fun m hm => withheld_nonneg hcfg (hfits m hm)
  · intro p
    have hnonneg : 0 ≤ credits Int64.toInt (saleCredits cfg seller trades) p := credits_nonneg _ _
    have hle : credits Int64.toInt (saleCredits cfg seller trades) p ≤ c.stake s :=
      (hsale p).1.trans (hstake ▸ hsold.stake)
    exact ⟨hle, (hsale p).2 ▸ hnonneg.trans hle⟩
  · intro p i
    rw [hunits]
    refine ⟨(hentries p i).1, (hentries p i).2.trans ?_⟩
    unfold ofItem
    split
    · next heq =>
      rw [if_pos (congrArg Prod.snd heq)]
    · split
      · exact hqty.le
      · exact le_rfl
  · intro p _ i hnonneg
    refine (hentries p i).2.trans ?_
    split
    · next heq =>
      rw [← heq]
      exact hcover
    · exact hnonneg
  · intro _ p _ hnonneg
    rw [(hsale p).2]
    exact hnonneg

lemma booked_purchase (hcfg : cfg.TaxRate) (hroom : c.Room s) {buyer : P}
    (hbuyer : buyer ∈ s.players) {price : Int64} (hprice : 0 ≤ price.toInt)
    (hbought : Bought s.players k qty price.toInt s.service service trades resting)
    (hstake : (trades.map value).sum + price.toInt * restQty resting ≤ c.stake s)
    (hitems : c.items s = [k.itemID]) (hunits : ∀ i, c.units s i = ofItem k.itemID qty.toInt i)
    (hfunds : c.Funded s → 0 ≤ (s.currency buyer).toInt →
      (trades.map value).sum + price.toInt * restQty resting ≤ (s.currency buyer).toInt)
    (hs' : s' = (trades.foldl (settleBuy cfg buyer k.itemID)
      { s with service := service }).escrowCurrency buyer price resting)
    (result : Option PlaceResult) : ∃ cs bs, Booked cfg s c ⟨s', result, trades⟩ cs bs := by
  have hrest := hbought.rest
  have hquantity := hbought.quantity
  have hset := mul_nonneg hprice hrest
  have hfits := hroom.fits hbuyer hbought.toTaken (by omega)
  have hreserve_fits : price.toInt * restQty resting < 2 ^ 63 := by
    obtain ⟨hl, hu⟩ := hroom.currency buyer hbuyer
    have hnonneg := sum_nonneg hbought.value_nonneg
    omega
  have hbook : s' = book { s with service := service }
      (purchasePayments cfg buyer trades ++ reservation buyer price resting)
      (purchaseDeliveries buyer k.itemID trades) := by
    rw [hs', foldl_settleBuy (s := { s with service := service }) hbuyer hbought.owner,
      escrowCurrency_eq (s := book { s with service := service } _ _) hbuyer, book_book, append_nil]
  subst hbook
  have hpos : ∀ e ∈ purchaseDeliveries buyer k.itemID trades, 0 ≤ e.2.toInt := by
    intro e he
    obtain ⟨m, hm, rfl⟩ := mem_map.mp he
    exact (hbought.positive m hm).le
  have hreserve (p : P) := reservation_room buyer hprice hrest hreserve_fits p
  have hdebits (p : P) : debits Int64.toInt
      (purchasePayments cfg buyer trades ++ reservation buyer price resting) p ≤
        if buyer = p then (trades.map value).sum + price.toInt * restQty resting else 0 := by
    have hpay := (purchasePayments_room hcfg hfits buyer p).2
    rw [debits_append, (hreserve p).2]
    split
    · next heq =>
      rw [if_pos heq] at hpay
      omega
    · next hne =>
      rw [if_neg hne] at hpay
      omega
  refine ⟨_, _, rfl, hbought.wf, ?_, ?_, ?_, ?_, ?_, ?_, ?_, ?_, ?_⟩
  · intro e he
    rcases mem_append.mp he with h | h
    · obtain ⟨m, hm, hmem⟩ := mem_flatMap.mp h
      simp only [mem_cons, not_mem_nil, or_false] at hmem
      rcases hmem with rfl | rfl
      · exact hbuyer
      · exact hbought.owner m hm
    · cases resting with
      | none => cases h
      | some o =>
        rw [mem_singleton.mp h]
        exact hbuyer
  · intro e he
    rw [hitems, mem_singleton]
    obtain ⟨m, -, rfl⟩ := mem_map.mp he
    exact ⟨hbuyer, rfl⟩
  · rw [map_append, sum_append, sum_purchasePayments hcfg hfits,
      sum_reservation buyer hprice hrest hreserve_fits, sum_withheld, book_service,
      hbought.escrow]
    ring
  · intro i
    rw [unitsOf_purchaseDeliveries]
    exact hbought.stock i
  · exact fun m hm => withheld_nonneg hcfg (hfits m hm)
  · intro p
    refine ⟨?_, (hdebits p).trans ?_⟩
    · rw [credits_append, (hreserve p).1]
      have hcredits := (purchasePayments_room hcfg hfits buyer p).1
      omega
    · have hnonneg := sum_nonneg hbought.value_nonneg
      split <;> omega
  · intro p i
    have hle := credits_le_unitsOf hpos p i
    rw [unitsOf_purchaseDeliveries] at hle
    have hle' := hle.trans (ofItem_le (b := qty.toInt) (by omega) i)
    have hnonneg : 0 ≤ credits toInt (purchaseDeliveries buyer k.itemID trades) (p, i) :=
      credits_nonneg _ _
    rw [hunits, debits_eq_zero hpos]
    exact ⟨hle', hnonneg.trans hle'⟩
  · intro p _ i hnonneg
    rw [debits_eq_zero hpos]
    exact hnonneg
  · intro hfunded p _ hnonneg
    refine (hdebits p).trans ?_
    split
    · next heq =>
      subst heq
      exact hfunds hfunded hnonneg
    · exact hnonneg

lemma booked_refunds (hroom : c.Room s) (hwf : s.service.WF s.players)
    (hservice : service.WF s.players) (hperm : s.service.orders.Perm (os ++ service.orders))
    (hstake : c.stake s = (os.map Order.escrow).sum) (hitems : c.items s = os.map (·.itemID))
    (hunits : ∀ i, c.units s i = (os.map (Order.stock i)).sum) :
    ∃ cs bs, Booked cfg s c { market := os.foldl refund { s with service := service } } cs bs := by
  have hos : ∀ o ∈ os, o.Standing s.players o.key o.side := fun o ho =>
    (hwf.standing (hperm.mem_iff.mpr (mem_append_left _ ho))).2
  have hfits : (os.map Order.escrow).sum < 2 ^ 63 := by
    rw [← hstake]
    cases os with
    | nil =>
      rw [hstake]
      simp
    | cons o os =>
      obtain ⟨hl, hu⟩ := hroom.currency o.owner (hos o mem_cons_self).owner
      omega
  obtain ⟨hcurrency, hsum⟩ := sum_refundCurrency hos hfits
  have hitem : ∀ e ∈ os.flatMap refundItems, ∃ o ∈ os,
      e = ((o.owner, o.itemID), o.quantity) := by
    intro e he
    obtain ⟨o, ho, hmem⟩ := mem_flatMap.mp he
    unfold refundItems at hmem
    split at hmem
    · exact ⟨o, ho, mem_singleton.mp hmem⟩
    · cases hmem
  have hpos : ∀ e ∈ os.flatMap refundItems, 0 ≤ e.2.toInt := by
    intro e he
    obtain ⟨o, ho, rfl⟩ := hitem e he
    exact (hos o ho).quantity.le
  have htotal (w : Order P → ℤ) :
      s.service.total w = (os.map w).sum + service.total w := by
    have h := (hperm.map w).sum_eq
    rwa [map_append, sum_append] at h
  rw [foldl_refund (s := { s with service := service }) fun o ho => (hos o ho).owner]
  refine ⟨_, _, rfl, hservice, fun e he => (hcurrency e he).2, ?_, ?_, ?_,
    fun m hm => absurd hm not_mem_nil, ?_, ?_, ?_, ?_⟩
  · intro e he
    obtain ⟨o, ho, rfl⟩ := hitem e he
    rw [hitems]
    exact ⟨(hos o ho).owner, mem_map_of_mem ho⟩
  · rw [hsum, htotal, map_nil, sum_nil, book_service]
    ring
  · intro i
    rw [unitsOf_refundItems, htotal, book_service]
    ring
  · intro p
    have hle := credits_le (fun e he => (hcurrency e he).1) p
    have hnonneg : 0 ≤ credits Int64.toInt (os.flatMap refundCurrency) p := credits_nonneg _ _
    rw [hsum, ← hstake] at hle
    rw [debits_eq_zero fun e he => (hcurrency e he).1]
    exact ⟨hle, hnonneg.trans hle⟩
  · intro p i
    have hle := credits_le_unitsOf hpos p i
    have hnonneg : 0 ≤ credits toInt (os.flatMap refundItems) (p, i) := credits_nonneg _ _
    rw [unitsOf_refundItems, ← hunits] at hle
    rw [debits_eq_zero hpos]
    exact ⟨hle, hnonneg.trans hle⟩
  · intro p _ i hnonneg
    rw [debits_eq_zero hpos]
    exact hnonneg
  · intro _ p _ hnonneg
    rw [debits_eq_zero fun e he => (hcurrency e he).1]
    exact hnonneg

/-- **Every call that succeeds is its postings**, where there is room. -/
theorem Market.booked_call (hcfg : cfg.TaxRate) (hpriced : c.Priced cfg) (hroom : c.Room s)
    (hwf : s.service.WF s.players) (hplayer : ∀ p ∈ c.player, p ∈ s.players) {out : Outcome P}
    (h : s.call cfg c = .ok out) : ∃ cs bs, Booked cfg s c out cs bs := by
  cases c with
  | placeSellOrder p loc item price qty now =>
    have hp := hplayer p rfl
    simp only [call, placeSellOrder, getBankBalance, if_pos hp] at h
    split at h
    · cases h
    split at h
    · cases h
    next hcover =>
    rw [lt_iff_toInt_lt, not_lt] at hcover
    split at h
    · cases h
    next hok =>
    cases h
    obtain ⟨hqty, hsold⟩ := Service.placeSellOrder_spec hwf hp (hpriced price rfl) hok
    exact booked_sale hcfg hroom hp hqty hsold rfl rfl (fun _ => rfl) hcover rfl _
  | placeBuyOrder p loc item price qty now =>
    have hp := hplayer p rfl
    simp only [call, placeBuyOrder, getCurrency, if_pos hp] at h
    split at h
    · cases h
    split at h
    · cases h
    next hfunds =>
    rw [Int64.lt_iff_toInt_lt, not_lt] at hfunds
    split at h
    · cases h
    next hok =>
    cases h
    obtain ⟨hprice, hqty, hbought, hlimit⟩ :=
      Service.placeBuyOrder_spec hwf hp (hpriced price rfl) hok
    have hcost := cost_le_limit hbought.toTaken hprice hlimit
    have hexact : (price * qty.toInt64).toInt = price.toInt * qty.toInt := by
      obtain ⟨hl, hu⟩ := hroom.currency p hp
      simp only [Call.stake] at hl hu
      exact cost_toInt hprice hqty.le (by omega)
    rw [hexact] at hfunds
    exact booked_purchase hcfg hroom hp hprice hbought hcost rfl (fun _ => rfl)
      (fun _ _ => hcost.trans hfunds) rfl _
  | instantSell p loc item qty =>
    have hp := hplayer p rfl
    simp only [call, instantSell, getBankBalance, if_pos hp] at h
    split at h
    · cases h
    split at h
    · cases h
    next hcover =>
    rw [lt_iff_toInt_lt, not_lt] at hcover
    split at h
    · cases h
    next hok =>
    cases h
    obtain ⟨hqty, hsold⟩ := Service.instantSell_spec hwf hok
    exact booked_sale hcfg hroom hp hqty hsold rfl rfl (fun _ => rfl) hcover rfl _
  | instantBuy p loc item qty =>
    have hp := hplayer p rfl
    simp only [call, instantBuy, getCurrency, if_pos hp] at h
    split at h
    · cases h
    split at h
    · cases h
    next service trades hok =>
    cases h
    have hfits : (((s.service.book ⟨loc, item⟩).sells).map Order.value).sum < 2 ^ 63 := by
      obtain ⟨hl, hu⟩ := hroom.currency p hp
      simp only [Call.stake] at hl hu
      omega
    obtain ⟨hqty, hbought, hbudget⟩ := Service.instantBuy_spec (0 : Int64).toInt hwf hfits hok
    -- nothing rests, so the trades are all there is to pay
    have hnone : (0 : Int64).toInt * restQty (none : Option (Order P)) = 0 := mul_zero _
    refine booked_purchase hcfg hroom hp le_rfl hbought ?_ rfl (fun _ => rfl) ?_ rfl _
    · rw [hnone, add_zero]
      exact hbought.stake
    intro hfunded hnonneg
    rw [hnone, add_zero]
    rcases hfunded with hpos | hempty
    · exact hbudget hpos
    · have hstake := hbought.stake
      rw [hempty, map_nil, sum_nil] at hstake
      omega
  | cancelOrder p orderID =>
    simp only [call, cancelOrder] at h
    split at h
    · cases h
    next service o hok =>
    cases h
    obtain ⟨hfind, hservice, hperm⟩ := Service.cancelOrder_spec hwf hok
    have hcancelled : cancelled s orderID = [o] := by
      unfold cancelled
      rw [hfind]
      rfl
    refine booked_refunds hroom hwf hservice hperm ?_ ?_ ?_
    · rw [Call.stake, hcancelled]
    · rw [Call.items, hcancelled]
    · intro i
      rw [Call.units, hcancelled]
  | expireOrders now =>
    cases h
    obtain ⟨hservice, hperm⟩ := Service.expireOrders_spec hwf now
    exact booked_refunds hroom hwf hservice hperm rfl rfl fun _ => rfl

end Calls

end Mmokit.Marketplace
