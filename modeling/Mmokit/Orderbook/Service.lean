/-
The order book (`pkg/orderbook`: `types.go`, `config.go`, `book.go`, `service.go`).

A `Service` keeps one `OrderBook` for every location and item: the sell orders cheapest first, the
buy orders dearest first, older ones first among equals.

The four matching loops of the source are one loop, `fillLoop`, over the rule that says how much of
a resting order is taken: a limit price (`sellLimit`, `buyLimit`), no limit (`atMarket`), or a
budget (`withinBudget`). The source's `orders` map holds the same pointers as the books; here it is
read off the books. Prices are `int64` and quantities `int32`, with the wraparound they have in the
source.
-/
import Mathlib.Data.Rat.Defs
import Mathlib.Data.List.Nodup

namespace Mmokit.Orderbook

inductive OrderSide
  | sell
  | buy
  deriving DecidableEq

/-- An order in a book. -/
structure Order (P : Type*) where
  id : ℕ
  side : OrderSide
  owner : P
  locationID : UInt32
  itemID : UInt32
  price : Int64
  quantity : Int32
  origQty : Int32
  createdAt : Int64
  expiresAt : Int64
  deriving DecidableEq

structure BookKey where
  locationID : UInt32
  itemID : UInt32
  deriving DecidableEq

structure Config where
  taxPct : ℚ
  orderExpiry : Int64
  minPrice : Int64
  maxOrders : ℤ

/-- A single fill between a buy and a sell order; the incoming order has no id yet and
stands as 0. -/
structure MatchEvent (P : Type*) where
  buyOrderID : ℕ
  sellOrderID : ℕ
  buyerID : P
  sellerID : P
  itemID : UInt32
  locationID : UInt32
  quantity : Int32
  price : Int64
  deriving DecidableEq

variable {P : Type*}

def Order.key (o : Order P) : BookKey := ⟨o.locationID, o.itemID⟩

/-- The two sides, best order first. -/
structure OrderBook (P : Type*) where
  sells : List (Order P) := []
  buys : List (Order P) := []

namespace OrderBook

def insertBefore (later : Order P → Bool) (o : Order P) :
    List (Order P) → List (Order P)
  | [] => [o]
  | x :: xs => if later x then o :: x :: xs else x :: insertBefore later o xs

def insertSell (ob : OrderBook P) (o : Order P) : OrderBook P :=
  { ob with
    sells := insertBefore
      (fun x => if x.price = o.price then o.createdAt < x.createdAt else o.price < x.price)
      o ob.sells }

def insertBuy (ob : OrderBook P) (o : Order P) : OrderBook P :=
  { ob with
    buys := insertBefore
      (fun x => if x.price = o.price then o.createdAt < x.createdAt else x.price < o.price)
      o ob.buys }

def removeOrder (ob : OrderBook P) (orderID : ℕ) : OrderBook P :=
  if ob.sells.any (·.id = orderID) then
    { ob with sells := ob.sells.eraseP (·.id = orderID) }
  else
    { ob with buys := ob.buys.eraseP (·.id = orderID) }

def orders (ob : OrderBook P) : List (Order P) := ob.sells ++ ob.buys

end OrderBook

/-! ### The matching loop -/

/-- What was taken of an order. -/
structure Fill (P : Type*) where
  order : Order P
  quantity : Int32

/-- What a matching loop leaves: the fills, what is still wanted, and the side of the book. -/
structure Filled (P : Type*) where
  fills : List (Fill P)
  remaining : Int32
  left : List (Order P)

/-- Match `remaining` against a side of the book. `trade` says how much of the next order is taken,
or stops the loop; `σ` is what it keeps track of. -/
def fillLoop {σ : Type*} (trade : σ → Int32 → Order P → Option (Int32 × σ)) :
    σ → Int32 → List (Order P) → Filled P
  | _, remaining, [] => ⟨[], remaining, []⟩
  | acc, remaining, o :: os =>
    if 0 < remaining then
      match trade acc remaining o with
      | none => ⟨[], remaining, o :: os⟩
      | some (tradeQty, acc') =>
        let rest := fillLoop trade acc' (remaining - tradeQty) os
        let o' := { o with quantity := o.quantity - tradeQty }
        -- a used up order leaves the book, a partly filled one keeps its place
        ⟨⟨o, tradeQty⟩ :: rest.fills, rest.remaining,
          if o'.quantity ≤ 0 then rest.left else o' :: rest.left⟩
    else ⟨[], remaining, o :: os⟩

def upTo (remaining : Int32) (o : Order P) : Int32 :=
  if o.quantity < remaining then o.quantity else remaining

def sellLimit (price : Int64) (_ : Unit) (remaining : Int32) (buy : Order P) :
    Option (Int32 × Unit) :=
  if buy.price < price then none else some (upTo remaining buy, ())

def buyLimit (price : Int64) (_ : Unit) (remaining : Int32) (sell : Order P) :
    Option (Int32 × Unit) :=
  if price < sell.price then none else some (upTo remaining sell, ())

def atMarket (_ : Unit) (remaining : Int32) (buy : Order P) : Option (Int32 × Unit) :=
  some (upTo remaining buy, ())

/-- An instant purchase takes any sell order; a positive `maxCost` limits the total cost. -/
def withinBudget (maxCost totalCost : Int64) (remaining : Int32) (sell : Order P) :
    Option (Int32 × Int64) :=
  let tradeQty := upTo remaining sell
  if 0 < maxCost then
    let tradeCost := sell.price * tradeQty.toInt64
    if maxCost < totalCost + tradeCost then
      let affordable := maxCost - totalCost
      if affordable ≤ 0 then none
      else
        let tradeQty := (affordable / sell.price).toInt32
        if tradeQty ≤ 0 then none
        else some (tradeQty, totalCost + sell.price * tradeQty.toInt64)
    else some (tradeQty, totalCost + tradeCost)
  else some (tradeQty, totalCost)

/-! ### The service -/

/-- The books by location and item, and the next order id. A book that was never created
is empty. -/
structure Service (P : Type*) where
  keys : List BookKey
  book : BookKey → OrderBook P
  nextID : ℕ
  nodup : keys.Nodup
  absent : ∀ k ∉ keys, book k = {}

/-- Why an order is refused. -/
inductive OrderError (P : Type*)
  | priceBelowMinimum (price minPrice : Int64)
  | quantityNotPositive
  | maxOrdersReached (maxOrders : ℤ)
  | notFound (orderID : ℕ)
  | wrongPlayer (orderID : ℕ) (player : P)

namespace Service

def new : Service P where
  keys := []
  book _ := {}
  nextID := 1
  nodup := List.nodup_nil
  absent _ _ := rfl

def orders (s : Service P) : List (Order P) := s.keys.flatMap fun k => (s.book k).orders

def setBook (s : Service P) (k : BookKey) (ob : OrderBook P) : Service P where
  keys := if k ∈ s.keys then s.keys else k :: s.keys
  book := Function.update s.book k ob
  nextID := s.nextID
  nodup := by
    split
    · exact s.nodup
    · exact List.nodup_cons.mpr ⟨by assumption, s.nodup⟩
  absent k' hk' := by
    split at hk'
    · have hne : k' ≠ k := fun h => hk' (by rw [h]; assumption)
      rw [Function.update_of_ne hne]
      exact s.absent k' hk'
    · rw [List.mem_cons, not_or] at hk'
      rw [Function.update_of_ne hk'.1]
      exact s.absent k' hk'.2

variable [DecidableEq P]

def orderCount (s : Service P) (player : P) : ℤ :=
  (s.orders.filter (·.owner = player)).length

def sellMatch (seller : P) (k : BookKey) (f : Fill P) : MatchEvent P :=
  ⟨f.order.id, 0, f.order.owner, seller, k.itemID, k.locationID, f.quantity, f.order.price⟩

def buyMatch (buyer : P) (k : BookKey) (f : Fill P) : MatchEvent P :=
  ⟨0, f.order.id, buyer, f.order.owner, k.itemID, k.locationID, f.quantity, f.order.price⟩

def checkLimit (cfg : Config) (s : Service P) (player : P) (price : Int64) (qty : Int32) :
    Except (OrderError P) Unit :=
  if price < cfg.minPrice then .error (.priceBelowMinimum price cfg.minPrice)
  else if qty ≤ 0 then .error .quantityNotPositive
  else if cfg.maxOrders ≤ s.orderCount player then .error (.maxOrdersReached cfg.maxOrders)
  else .ok ()

def restingOrder (cfg : Config) (s : Service P) (side : OrderSide) (player : P)
    (k : BookKey) (price : Int64) (remaining qty : Int32) (now : Int64) : Order P where
  id := s.nextID
  side := side
  owner := player
  locationID := k.locationID
  itemID := k.itemID
  price := price
  quantity := remaining
  origQty := qty
  createdAt := now
  expiresAt := now + cfg.orderExpiry

def placeSellOrder (cfg : Config) (s : Service P) (seller : P) (k : BookKey)
    (price : Int64) (qty : Int32) (now : Int64) :
    Except (OrderError P) (Service P × List (MatchEvent P) × Option (Order P)) :=
  match s.checkLimit cfg seller price qty with
  | .error e => .error e
  | .ok () =>
    let filled := fillLoop (sellLimit price) () qty (s.book k).buys
    let ob := { s.book k with buys := filled.left }
    let matched := filled.fills.map (sellMatch seller k)
    if 0 < filled.remaining then
      let resting := s.restingOrder cfg .sell seller k price filled.remaining qty now
      .ok ({ s.setBook k (ob.insertSell resting) with nextID := s.nextID + 1 },
        matched, some resting)
    else .ok (s.setBook k ob, matched, none)

def placeBuyOrder (cfg : Config) (s : Service P) (buyer : P) (k : BookKey)
    (price : Int64) (qty : Int32) (now : Int64) :
    Except (OrderError P) (Service P × List (MatchEvent P) × Option (Order P)) :=
  match s.checkLimit cfg buyer price qty with
  | .error e => .error e
  | .ok () =>
    let filled := fillLoop (buyLimit price) () qty (s.book k).sells
    let ob := { s.book k with sells := filled.left }
    let matched := filled.fills.map (buyMatch buyer k)
    if 0 < filled.remaining then
      let resting := s.restingOrder cfg .buy buyer k price filled.remaining qty now
      .ok ({ s.setBook k (ob.insertBuy resting) with nextID := s.nextID + 1 },
        matched, some resting)
    else .ok (s.setBook k ob, matched, none)

def instantSell (s : Service P) (seller : P) (k : BookKey) (qty : Int32) :
    Except (OrderError P) (Service P × List (MatchEvent P)) :=
  if qty ≤ 0 then .error .quantityNotPositive
  else
    let filled := fillLoop atMarket () qty (s.book k).buys
    .ok (s.setBook k { s.book k with buys := filled.left }, filled.fills.map (sellMatch seller k))

def instantBuy (s : Service P) (buyer : P) (k : BookKey) (qty : Int32) (maxCost : Int64) :
    Except (OrderError P) (Service P × List (MatchEvent P)) :=
  if qty ≤ 0 then .error .quantityNotPositive
  else
    let filled := fillLoop (withinBudget maxCost) 0 qty (s.book k).sells
    .ok (s.setBook k { s.book k with sells := filled.left }, filled.fills.map (buyMatch buyer k))

def removeOrder (s : Service P) (o : Order P) : Service P :=
  if o.key ∈ s.keys then s.setBook o.key ((s.book o.key).removeOrder o.id) else s

def cancelOrder (s : Service P) (player : P) (orderID : ℕ) :
    Except (OrderError P) (Service P × Order P) :=
  match s.orders.find? (·.id = orderID) with
  | none => .error (.notFound orderID)
  | some o => if o.owner ≠ player then .error (.wrongPlayer orderID player)
    else .ok (s.removeOrder o, o)

def expired (s : Service P) (now : Int64) : List (Order P) :=
  s.orders.filter fun o => 0 < o.expiresAt ∧ o.expiresAt ≤ now

def expireOrders (s : Service P) (now : Int64) : Service P × List (Order P) :=
  ((s.expired now).foldl removeOrder s, s.expired now)

end Service

end Mmokit.Orderbook
