/-
What the calls of the service do: incoming sales (`Sold`) and incoming purchases (`Bought`).
-/
import Mmokit.Orderbook.RestingOrders

namespace Mmokit.Orderbook

open List OrderBook MatchEvent

variable {P : Type*}

def Order.escrow (o : Order P) : ℤ := if o.side = .buy then o.value else 0

def Order.stock (i : UInt32) (o : Order P) : ℤ :=
  if o.side = .sell ∧ o.itemID = i then o.quantity.toInt else 0

def MatchEvent.value (m : MatchEvent P) : ℤ := m.price.toInt * m.quantity.toInt

def restQty (resting : Option (Order P)) : ℤ := resting.elim 0 fun o => o.quantity.toInt

def ofItem (itemID : UInt32) (q : ℤ) (i : UInt32) : ℤ := if itemID = i then q else 0

namespace Order.Standing

variable {players : Finset P} {k : BookKey} {o : Order P}

lemma escrow_buy (h : o.Standing players k .buy) : o.escrow = o.value := if_pos h.side

lemma escrow_sell (h : o.Standing players k .sell) : o.escrow = 0 :=
  if_neg fun hbuy => by rw [h.side] at hbuy; cases hbuy

lemma stock_buy (h : o.Standing players k .buy) (i : UInt32) : o.stock i = 0 :=
  if_neg fun hsell => by rw [h.side] at hsell; cases hsell.1

lemma stock_sell (h : o.Standing players k .sell) (i : UInt32) :
    o.stock i = ofItem k.itemID o.quantity.toInt i := by
  obtain rfl := h.key
  have hiff : (o.side = .sell ∧ o.itemID = i) ↔ o.key.itemID = i := by simp [h.side, Order.key]
  unfold Order.stock ofItem
  by_cases hi : o.key.itemID = i
  · rw [if_pos (hiff.mpr hi), if_pos hi]
  · rw [if_neg (hiff.not.mpr hi), if_neg hi]

end Order.Standing

variable {α : Type*}

lemma sum_map_congr {l : List α} {f g : α → ℤ} (h : ∀ a ∈ l, f a = g a) :
    (l.map f).sum = (l.map g).sum := by rw [map_congr_left h]

lemma ofItem_add (itemID : UInt32) (a b : ℤ) (i : UInt32) :
    ofItem itemID (a + b) i = ofItem itemID a i + ofItem itemID b i := by
  unfold ofItem
  split
  · rfl
  · exact (add_zero 0).symm

lemma ofItem_le {itemID : UInt32} {a b : ℤ} (h : a ≤ b) (i : UInt32) :
    ofItem itemID a i ≤ ofItem itemID b i := by
  unfold ofItem
  split
  · exact h
  · exact le_rfl

lemma sum_ofItem (l : List α) (f : α → ℤ) (itemID i : UInt32) :
    (l.map fun a => ofItem itemID (f a) i).sum = ofItem itemID (l.map f).sum i := by
  unfold ofItem
  split
  · rfl
  · simp

/-! ### Fills of one side -/

section Fills

variable {players : Finset P} {k : BookKey} {os : List (Order P)} {qty : Int32}
  {r : Filled P}

lemma Filled.Spec.values (h : r.Spec os qty) :
    (r.left.map Order.value).sum + (r.fills.map Fill.value).sum = (os.map Order.value).sum :=
  h.split (fun o => o.price.toInt) fun _ _ => rfl

lemma Filled.Spec.quantities (h : r.Spec os qty) :
    (r.left.map fun o => o.quantity.toInt).sum + (r.fills.map fun f => f.quantity.toInt).sum =
      (os.map fun o => o.quantity.toInt).sum := by
  simpa using h.split (fun _ => 1) fun _ _ => rfl

lemma escrow_buys (hos : ∀ o ∈ os, o.Standing players k .buy) :
    (os.map Order.escrow).sum = (os.map Order.value).sum :=
  sum_map_congr fun o ho => (hos o ho).escrow_buy

lemma escrow_sells (hos : ∀ o ∈ os, o.Standing players k .sell) :
    (os.map Order.escrow).sum = 0 := by
  rw [sum_map_congr fun o ho => (hos o ho).escrow_sell]
  simp

lemma stock_buys (hos : ∀ o ∈ os, o.Standing players k .buy) (i : UInt32) :
    (os.map (Order.stock i)).sum = 0 := by
  rw [sum_map_congr fun o ho => (hos o ho).stock_buy i]
  simp

lemma stock_sells (hos : ∀ o ∈ os, o.Standing players k .sell) (i : UInt32) :
    (os.map (Order.stock i)).sum = ofItem k.itemID (os.map fun o => o.quantity.toInt).sum i := by
  rw [sum_map_congr fun o ho => (hos o ho).stock_sell i, sum_ofItem]

lemma stocked_of_standing {side : OrderSide} (hos : ∀ o ∈ os, o.Standing players k side) :
    Stocked os := fun o ho => (hos o ho).quantity

end Fills

variable {qty : Int32} {os : List (Order P)}

lemma exists_trade_of_mem {σ : Type*} {trade : σ → Int32 → Order P → Option (Int32 × σ)} {acc : σ}
    {f : Fill P} (hf : f ∈ (fillLoop trade acc qty os).fills) :
    ∃ acc remaining acc', trade acc remaining f.order = some (f.quantity, acc') := by
  induction os generalizing acc qty with
  | nil => cases hf
  | cons o os ih =>
    rw [fillLoop] at hf
    split at hf
    · split at hf
      · cases hf
      next t acc' htrade =>
      rcases mem_cons.mp hf with rfl | hf
      · exact ⟨acc, qty, acc', htrade⟩
      · exact ih hf
    · cases hf

/-! ### Sales and purchases -/

/-- What an incoming order for `qty` took of the side `os` of a book, whose orders belong to the
players that `owner` reads off the trades; `resting` is what now rests of it. -/
structure Taken (players : Finset P) (owner : MatchEvent P → P)
    (os : List (Order P)) (qty : Int32) (trades : List (MatchEvent P))
    (resting : Option (Order P)) : Prop where
  owner : ∀ m ∈ trades, owner m ∈ players
  price : ∀ m ∈ trades, 0 ≤ m.price.toInt
  positive : ∀ m ∈ trades, 0 < m.quantity.toInt
  rest : 0 ≤ restQty resting
  quantity : (trades.map fun m => m.quantity.toInt).sum + restQty resting ≤ qty.toInt
  stake : (trades.map value).sum ≤ (os.map Order.value).sum

variable {owner : MatchEvent P → P}

lemma Taken.value_nonneg {players : Finset P} {trades : List (MatchEvent P)}
    {resting : Option (Order P)} (h : Taken players owner os qty trades resting) :
    ∀ x ∈ trades.map value, 0 ≤ x := by
  intro x hx
  obtain ⟨m, hm, rfl⟩ := mem_map.mp hx
  exact mul_nonneg (h.price m hm) (h.positive m hm).le

/-- An incoming sale: the buy orders of `k` are matched, the rest stands among the sell orders. -/
structure Sold (players : Finset P) (k : BookKey) (qty : Int32) (s s' : Service P)
    (trades : List (MatchEvent P)) (resting : Option (Order P)) : Prop
    extends Taken players (·.buyerID) (s.book k).buys qty trades resting where
  wf : s'.WF players
  escrow : s'.total Order.escrow + (trades.map value).sum = s.total Order.escrow
  stock : ∀ i, s'.total (Order.stock i) =
    s.total (Order.stock i) + ofItem k.itemID (restQty resting) i

/-- An incoming purchase: the sell orders of `k` are matched, the rest stands among the buy orders
at the price `limit`. -/
structure Bought (players : Finset P) (k : BookKey) (qty : Int32) (limit : ℤ)
    (s s' : Service P) (trades : List (MatchEvent P)) (resting : Option (Order P)) : Prop
    extends Taken players (·.sellerID) (s.book k).sells qty trades resting where
  wf : s'.WF players
  escrow : s'.total Order.escrow = s.total Order.escrow + limit * restQty resting
  stock : ∀ i, s'.total (Order.stock i) +
    ofItem k.itemID (trades.map fun m => m.quantity.toInt).sum i = s.total (Order.stock i)

def Reports (owner : MatchEvent P → P) (event : Fill P → MatchEvent P) : Prop :=
  ∀ f, owner (event f) = f.order.owner ∧ (event f).price = f.order.price ∧
    (event f).quantity = f.quantity

lemma reports_sellMatch (seller : P) (k : BookKey) :
    Reports (·.buyerID) (Service.sellMatch seller k) := fun _ => ⟨rfl, rfl, rfl⟩

lemma reports_buyMatch (buyer : P) (k : BookKey) :
    Reports (·.sellerID) (Service.buyMatch buyer k) := fun _ => ⟨rfl, rfl, rfl⟩

variable {event : Fill P → MatchEvent P}

lemma Reports.values (h : Reports owner event) (fills : List (Fill P)) :
    ((fills.map event).map value).sum = (fills.map Fill.value).sum := by
  rw [map_map]
  refine sum_map_congr fun f _ => ?_
  rw [Function.comp_apply, value, (h f).2.1, (h f).2.2, Fill.value]

lemma Reports.quantities (h : Reports owner event) (fills : List (Fill P)) :
    ((fills.map event).map fun m => m.quantity.toInt).sum =
      (fills.map fun f => f.quantity.toInt).sum := by
  rw [map_map]
  refine sum_map_congr fun f _ => ?_
  rw [Function.comp_apply, (h f).2.2]

section Matched

variable {players : Finset P} {s : Service P} {k : BookKey} {qty : Int32}
  {r : Filled P}

lemma taken_of_spec {side : OrderSide} {os : List (Order P)} (hr : r.Spec os qty)
    (hos : ∀ o ∈ os, o.Standing players k side) {owner : MatchEvent P → P}
    {event : Fill P → MatchEvent P} (hevent : Reports owner event) {resting : Option (Order P)}
    (hrest : 0 ≤ restQty resting) (hle : restQty resting ≤ r.remaining.toInt) :
    Taken players owner os qty (r.fills.map event) resting where
  owner m hm := by
    obtain ⟨f, hf, rfl⟩ := mem_map.mp hm
    rw [(hevent f).1]
    exact (hos f.order (hr.fills f hf).1).owner
  price m hm := by
    obtain ⟨f, hf, rfl⟩ := mem_map.mp hm
    rw [(hevent f).2.1]
    exact (hos f.order (hr.fills f hf).1).price
  positive m hm := by
    obtain ⟨f, hf, rfl⟩ := mem_map.mp hm
    rw [(hevent f).2.2]
    exact (hr.fills f hf).2
  rest := hrest
  quantity := by
    have hquantity := hr.quantity
    rw [hevent.quantities]
    omega
  stake := by
    have hleft := hr.standing hos
    have hnonneg := value_sum_nonneg (stocked_of_standing hleft) fun o ho => (hleft o ho).price
    have hsplit := hr.values
    rw [hevent.values]
    linarith

lemma total_buysLeft (w : Order P → ℤ) (left : List (Order P)) :
    (s.setBook k { s.book k with buys := left }).total w + ((s.book k).buys.map w).sum =
      s.total w + (left.map w).sum := by
  have h := s.total_setBook k { s.book k with buys := left } w
  simp only [orders, map_append, sum_append] at h
  linarith

lemma total_sellsLeft (w : Order P → ℤ) (left : List (Order P)) :
    (s.setBook k { s.book k with sells := left }).total w + ((s.book k).sells.map w).sum =
      s.total w + (left.map w).sum := by
  have h := s.total_setBook k { s.book k with sells := left } w
  simp only [orders, map_append, sum_append] at h
  linarith

variable {o : Order P}

lemma total_rest {ob ob' : OrderBook P} {n : ℕ} (h : ob'.orders.Perm (o :: ob.orders))
    (w : Order P → ℤ) :
    ({ s.setBook k ob' with nextID := n } : Service P).total w =
    (s.setBook k ob).total w + w o := by
  have hnew := s.total_setBook k ob' w
  have hold := s.total_setBook k ob w
  have hperm := (h.map w).sum_eq
  rw [map_cons, sum_cons] at hperm
  have hid : ({ s.setBook k ob' with nextID := n } : Service P).total w =
      (s.setBook k ob').total w := rfl
  linarith

lemma sold_none (hwf : s.WF players) (hr : r.Spec (s.book k).buys qty) (seller : P) :
    Sold players k qty s (s.setBook k { s.book k with buys := r.left })
      (r.fills.map (Service.sellMatch seller k)) none where
  toTaken := taken_of_spec hr (hwf.books k).buys (reports_sellMatch seller k) le_rfl hr.remaining
  wf := by
    refine hwf.setBook ⟨(hwf.books k).sells, hr.standing (hwf.books k).buys⟩
      (List.Perm.refl ([] ++ _)) ?_ nodup_nil (fun i hi => absurd hi not_mem_nil) le_rfl
    simp only [orders, map_append]
    exact hr.ids.append_left _
  escrow := by
    have hbuys := (hwf.books k).buys
    have htotal := total_buysLeft (s := s) (k := k) Order.escrow r.left
    have hsplit := hr.values
    rw [escrow_buys hbuys, escrow_buys (hr.standing hbuys)] at htotal
    rw [(reports_sellMatch seller k).values]
    linarith
  stock i := by
    have hbuys := (hwf.books k).buys
    have htotal := total_buysLeft (s := s) (k := k) (Order.stock i) r.left
    rw [stock_buys hbuys, stock_buys (hr.standing hbuys)] at htotal
    simp only [restQty, Option.elim_none, ofItem, ite_self]
    linarith

lemma sold_some (hwf : s.WF players) (hr : r.Spec (s.book k).buys qty) (seller : P)
    (ho : o.Standing players k .sell) (hid : o.id = s.nextID) (hq : o.quantity = r.remaining) :
    Sold players k qty s
      { s.setBook k (insertSell { s.book k with buys := r.left } o) with
        nextID := s.nextID + 1 }
      (r.fills.map (Service.sellMatch seller k)) (some o) where
  toTaken := by
    have hrest : restQty (some o) = r.remaining.toInt := congrArg Int32.toInt hq
    exact taken_of_spec hr (hwf.books k).buys (reports_sellMatch seller k) (hrest ▸ hr.remaining)
      hrest.le
  wf := by
    have hob : OrderBook.WF players k { s.book k with buys := r.left } :=
      ⟨(hwf.books k).sells, hr.standing (hwf.books k).buys⟩
    have hids : ((insertSell { s.book k with buys := r.left } o).orders.map (·.id)).Perm
        ([o.id] ++ (orders { s.book k with buys := r.left }).map (·.id)) :=
      (insertSell_orders _ o).map (·.id)
    refine hwf.setBook (hob.insertSell ho) hids ?_ (nodup_singleton _) ?_ (Nat.le_succ _)
    · simp only [orders, map_append]
      exact hr.ids.append_left _
    · intro i hi
      rw [mem_singleton.mp hi]
      omega
  escrow := by
    have hnone := (sold_none hwf hr seller).escrow
    rw [total_rest (insertSell_orders _ o), ho.escrow_sell]
    linarith
  stock i := by
    have hnone := (sold_none hwf hr seller).stock i
    rw [total_rest (insertSell_orders _ o), ho.stock_sell]
    simp only [restQty, Option.elim_none, ofItem, ite_self, add_zero] at hnone
    rw [hnone]
    rfl

lemma bought_none (hwf : s.WF players) (hr : r.Spec (s.book k).sells qty) (buyer : P) (limit : ℤ) :
    Bought players k qty limit s (s.setBook k { s.book k with sells := r.left })
      (r.fills.map (Service.buyMatch buyer k)) none where
  toTaken := taken_of_spec hr (hwf.books k).sells (reports_buyMatch buyer k) le_rfl hr.remaining
  wf := by
    refine hwf.setBook ⟨hr.standing (hwf.books k).sells, (hwf.books k).buys⟩
      (List.Perm.refl ([] ++ _)) ?_ nodup_nil (fun i hi => absurd hi not_mem_nil) le_rfl
    simp only [orders, map_append]
    exact hr.ids.append_right _
  escrow := by
    have hsells := (hwf.books k).sells
    have htotal := total_sellsLeft (s := s) (k := k) Order.escrow r.left
    rw [escrow_sells hsells, escrow_sells (hr.standing hsells)] at htotal
    simp only [restQty, Option.elim_none, mul_zero]
    linarith
  stock i := by
    have hsells := (hwf.books k).sells
    have htotal := total_sellsLeft (s := s) (k := k) (Order.stock i) r.left
    rw [stock_sells hsells, stock_sells (hr.standing hsells), ← hr.quantities, ofItem_add] at htotal
    rw [(reports_buyMatch buyer k).quantities]
    linarith

lemma bought_some (hwf : s.WF players) (hr : r.Spec (s.book k).sells qty) (buyer : P)
    (ho : o.Standing players k .buy) (hid : o.id = s.nextID) (hq : o.quantity = r.remaining) :
    Bought players k qty o.price.toInt s
      { s.setBook k (insertBuy { s.book k with sells := r.left } o) with
        nextID := s.nextID + 1 }
      (r.fills.map (Service.buyMatch buyer k)) (some o) where
  toTaken := by
    have hrest : restQty (some o) = r.remaining.toInt := congrArg Int32.toInt hq
    exact taken_of_spec hr (hwf.books k).sells (reports_buyMatch buyer k) (hrest ▸ hr.remaining)
      hrest.le
  wf := by
    have hob : OrderBook.WF players k { s.book k with sells := r.left } :=
      ⟨hr.standing (hwf.books k).sells, (hwf.books k).buys⟩
    have hids : ((insertBuy { s.book k with sells := r.left } o).orders.map (·.id)).Perm
        ([o.id] ++ (orders { s.book k with sells := r.left }).map (·.id)) :=
      (insertBuy_orders _ o).map (·.id)
    refine hwf.setBook (hob.insertBuy ho) hids ?_ (nodup_singleton _) ?_ (Nat.le_succ _)
    · simp only [orders, map_append]
      exact hr.ids.append_right _
    · intro i hi
      rw [mem_singleton.mp hi]
      omega
  escrow := by
    have hnone := (bought_none hwf hr buyer 0).escrow
    rw [total_rest (insertBuy_orders _ o), ho.escrow_buy]
    rw [zero_mul, add_zero] at hnone
    rw [hnone]
    rfl
  stock i := by
    have hnone := (bought_none hwf hr buyer 0).stock i
    rw [total_rest (insertBuy_orders _ o), ho.stock_buy, add_zero]
    exact hnone

end Matched

/-! ### The calls -/

namespace Service

variable {players : Finset P} {s s' : Service P} {player : P}
  {k : BookKey} {price : Int64} {qty : Int32} {now : Int64} {trades : List (MatchEvent P)}
  {resting : Option (Order P)}

variable {cfg : Config}

lemma checkLimit_ok [DecidableEq P] (h : s.checkLimit cfg player price qty = .ok ()) :
    cfg.minPrice.toInt ≤ price.toInt ∧ 0 < qty.toInt := by
  unfold checkLimit at h
  split at h
  · cases h
  next hprice =>
  split at h
  · cases h
  next hqty =>
  rw [Int64.lt_iff_toInt_lt, not_lt] at hprice
  rw [Int32.le_iff_toInt_le, not_le] at hqty
  exact ⟨hprice, hqty⟩

theorem placeSellOrder_spec [DecidableEq P] (hwf : s.WF players) (hplayer : player ∈ players)
    (hprice : cfg.minPrice.toInt ≤ price.toInt → 0 ≤ price.toInt)
    (h : s.placeSellOrder cfg player k price qty now = .ok (s', trades, resting)) :
    0 < qty.toInt ∧ Sold players k qty s s' trades resting := by
  unfold placeSellOrder at h
  split at h
  · cases h
  next hcheck =>
  obtain ⟨hmin, hqty⟩ := checkLimit_ok hcheck
  have hr := fillLoop_spec (fair_sellLimit price) ()
    (stocked_of_standing (hwf.books k).buys) hqty.le
  refine ⟨hqty, ?_⟩
  simp only at h
  split at h
  · next hrest =>
    rw [Int32.lt_iff_toInt_lt] at hrest
    cases h
    exact sold_some hwf hr player ⟨rfl, rfl, hprice hmin, hrest, hplayer⟩ rfl rfl
  · cases h
    exact sold_none hwf hr player

theorem instantSell_spec (hwf : s.WF players)
    (h : s.instantSell player k qty = .ok (s', trades)) :
    0 < qty.toInt ∧ Sold players k qty s s' trades none := by
  unfold instantSell at h
  split at h
  · cases h
  next hqty =>
  rw [Int32.le_iff_toInt_le, not_le] at hqty
  cases h
  have hr := fillLoop_spec fair_atMarket ()
    (stocked_of_standing (hwf.books k).buys) hqty.le
  exact ⟨hqty, sold_none hwf hr player⟩

theorem placeBuyOrder_spec [DecidableEq P] (hwf : s.WF players) (hplayer : player ∈ players)
    (hprice : cfg.minPrice.toInt ≤ price.toInt → 0 ≤ price.toInt)
    (h : s.placeBuyOrder cfg player k price qty now = .ok (s', trades, resting)) :
    0 ≤ price.toInt ∧ 0 < qty.toInt ∧ Bought players k qty price.toInt s s' trades resting ∧
      ∀ m ∈ trades, m.price.toInt ≤ price.toInt := by
  unfold placeBuyOrder at h
  split at h
  · cases h
  next hcheck =>
  obtain ⟨hmin, hqty⟩ := checkLimit_ok hcheck
  have hr := fillLoop_spec (fair_buyLimit price) ()
    (stocked_of_standing (hwf.books k).sells) hqty.le
  have hlimit : ∀ m ∈ (fillLoop (buyLimit price) () qty (s.book k).sells).fills.map
      (buyMatch player k), m.price.toInt ≤ price.toInt := by
    intro m hm
    obtain ⟨f, hf, rfl⟩ := mem_map.mp hm
    obtain ⟨acc, remaining, acc', htrade⟩ := exists_trade_of_mem hf
    unfold buyLimit at htrade
    split at htrade
    · cases htrade
    · next hle =>
      rw [Int64.lt_iff_toInt_lt, not_lt] at hle
      exact hle
  refine ⟨hprice hmin, hqty, ?_⟩
  simp only at h
  split at h
  · next hrest =>
    rw [Int32.lt_iff_toInt_lt] at hrest
    cases h
    have hbought := bought_some hwf hr player
      (o := s.restingOrder cfg .buy player k price _ qty now)
        ⟨rfl, rfl, hprice hmin, hrest, hplayer⟩ rfl rfl
    exact ⟨hbought, hlimit⟩
  · cases h
    exact ⟨bought_none hwf hr player _, hlimit⟩

theorem instantBuy_spec {maxCost : Int64} (limit : ℤ) (hwf : s.WF players)
    (hfits : ((s.book k).sells.map Order.value).sum < 2 ^ 63)
    (h : s.instantBuy player k qty maxCost = .ok (s', trades)) :
    0 < qty.toInt ∧ Bought players k qty limit s s' trades none ∧
      (0 < maxCost.toInt → (trades.map value).sum ≤ maxCost.toInt) := by
  unfold instantBuy at h
  split at h
  · cases h
  next hqty =>
  rw [Int32.le_iff_toInt_le, not_le] at hqty
  cases h
  have hsells := (hwf.books k).sells
  have hafford : Affords 0 (s.book k).sells :=
    ⟨stocked_of_standing hsells, fun o ho => (hsells o ho).price, le_rfl, by
      rw [Int64.toInt_zero, zero_add]
      exact hfits⟩
  have hr := fillLoop_spec (fair_withinBudget maxCost) 0 hafford hqty.le
  refine ⟨hqty, bought_none hwf hr player limit, fun hbudget => ?_⟩
  have hcost := cost_withinBudget qty hbudget hafford (by rw [Int64.toInt_zero]; omega)
  rw [Int64.toInt_zero, zero_add] at hcost
  rwa [(reports_buyMatch player k).values]

theorem cancelOrder_spec [DecidableEq P] {orderID : ℕ} {o : Order P} (hwf : s.WF players)
    (h : s.cancelOrder player orderID = .ok (s', o)) :
    s.orders.find? (·.id = orderID) = some o ∧ s'.WF players ∧
      s.orders.Perm ([o] ++ s'.orders) := by
  unfold cancelOrder at h
  split at h
  · cases h
  next hfind =>
  split at h
  · cases h
  · cases h
    exact ⟨hfind, hwf.removeOrder (mem_of_find?_eq_some hfind)⟩

theorem expireOrders_spec (hwf : s.WF players) (now : Int64) :
    (s.expireOrders now).1.WF players ∧
      s.orders.Perm (s.expired now ++ (s.expireOrders now).1.orders) :=
  hwf.removeOrders (filter_append_perm _ _).symm

end Service

end Mmokit.Orderbook
