/-
Settling trades (`examples/space/internal/marketplace/settlement.go`).
-/
import Mmokit.Library.Accounts
import Mmokit.Orderbook.Service

namespace Mmokit.Marketplace

open Orderbook Accounts

/-- The order book's settings and the item that is money. -/
structure MarketConfig extends Orderbook.Config where
  currencyID : UInt32

/-- The order book, and the accounts of the registered players. -/
structure Market (P : Type*) where
  service : Service P
  players : Finset P
  bank : P × UInt32 → Int32
  currency : P → Int64

/-- What a call answers its player. -/
structure PlaceResult where
  orderID : ℕ := 0
  filledQty : Int32 := 0
  avgPrice : Int64 := 0
  totalCost : Int64 := 0
  deriving DecidableEq

/-- Why a call is refused. -/
inductive MarketError (P : Type*)
  | currencyNotTradable
  | insufficientBank (balance need : Int32)
  | insufficientCurrency (balance need : Int64)
  | order (e : OrderError P)

/-- The state after a call, its answer and its trades. -/
structure Outcome (P : Type*) where
  market : Market P
  result : Option PlaceResult := none
  trades : List (MatchEvent P) := []

/-- The integer part, as Go converts. -/
def truncate (r : ℚ) : ℤ := r.num.tdiv r.den

variable {P : Type*}

/-- What the seller gets: the price less the tax. -/
def payout (cfg : MarketConfig) (m : MatchEvent P) : Int64 :=
  Int64.ofInt (truncate (m.quantity.toInt * m.price.toInt * (1 - cfg.taxPct)))

/-- What the buyer pays, in 64 bits. -/
def tradeCost (m : MatchEvent P) : Int64 := m.price * m.quantity.toInt64

/-- The answer, summed over the trades. -/
def placeResult (amount : MatchEvent P → Int64) (trades : List (MatchEvent P))
    (resting : Option (Order P)) : PlaceResult :=
  let filledQty := trades.foldl (fun q m => q + m.quantity) 0
  let total := trades.foldl (fun c m => c + amount m) 0
  let orderID := (resting.map (·.id)).getD 0
  if 0 < filledQty then ⟨orderID, filledQty, total / filledQty.toInt64, total⟩
  else ⟨orderID, filledQty, 0, 0⟩

namespace Market

variable [DecidableEq P]

/-! ### The accounts -/

/-- A player that is not known has nothing. -/
def getBankBalance (s : Market P) (player : P) (itemID : UInt32) : Int32 :=
  if player ∈ s.players then s.bank (player, itemID) else 0

def getCurrency (s : Market P) (player : P) : Int64 :=
  if player ∈ s.players then s.currency player else 0

/-- Posts to the balance of a known player. -/
def modifyCurrency (s : Market P) (player : P) (delta : Int64) : Market P :=
  if player ∈ s.players then { s with currency := post s.currency (player, delta) } else s

/-- Adds to a bank entry. -/
def deposit (s : Market P) (player : P) (itemID : UInt32) (q : Int32) : Market P :=
  if player ∈ s.players then { s with bank := post s.bank ((player, itemID), q) } else s

/-- Takes from a bank entry; one that is not positive is deleted. -/
def withdraw (s : Market P) (player : P) (itemID : UInt32) (q : Int32) : Market P :=
  if player ∈ s.players then
    let left := s.bank (player, itemID) - q
    { s with bank := Function.update s.bank (player, itemID) (if left ≤ 0 then 0 else left) }
  else s

/-! ### Booking trades -/

/-- Books a trade of a seller who came last. -/
def settleSell (cfg : MarketConfig) (seller : P) (itemID : UInt32) (s : Market P)
    (m : MatchEvent P) : Market P :=
  (s.modifyCurrency seller (payout cfg m)).deposit m.buyerID itemID m.quantity

/-- Books a trade of a buyer who came last. -/
def settleBuy (cfg : MarketConfig) (buyer : P) (itemID : UInt32) (s : Market P)
    (m : MatchEvent P) : Market P :=
  ((s.deposit buyer itemID m.quantity).modifyCurrency buyer (-tradeCost m)).modifyCurrency
    m.sellerID (payout cfg m)

/-- Gives back what an order holds. -/
def refund (s : Market P) (o : Order P) : Market P :=
  match o.side with
  | .sell => s.deposit o.owner o.itemID o.quantity
  | .buy => s.modifyCurrency o.owner (o.price * o.quantity.toInt64)

/-- Books all trades, then takes the sold items. -/
def settleSale (cfg : MarketConfig) (s : Market P) (seller : P) (itemID : UInt32)
    (trades : List (MatchEvent P)) : Market P :=
  let s := trades.foldl (settleSell cfg seller itemID) s
  let soldQty := (placeResult (payout cfg) trades none).filledQty
  if 0 < soldQty then s.withdraw seller itemID soldQty else s

/-- What rests of a sell order leaves the bank. -/
def escrowItems (s : Market P) (player : P) (itemID : UInt32) :
    Option (Order P) → Market P
  | some resting => s.withdraw player itemID resting.quantity
  | none => s

/-- What rests of a buy order is paid in advance. -/
def escrowCurrency (s : Market P) (player : P) (price : Int64) :
    Option (Order P) → Market P
  | some resting => s.modifyCurrency player (-(price * resting.quantity.toInt64))
  | none => s

/-! ### The calls -/

/-- Checks the bank, matches, settles and sets aside. -/
def placeSellOrder (cfg : MarketConfig) (s : Market P) (player : P)
    (stationID itemID : UInt32) (price : Int64) (qty : Int32) (now : Int64) :
    Except (MarketError P) (Outcome P) :=
  if itemID = cfg.currencyID then .error .currencyNotTradable
  else if s.getBankBalance player itemID < qty then
    .error (.insufficientBank (s.getBankBalance player itemID) qty)
  else
    match s.service.placeSellOrder cfg.toConfig player ⟨stationID, itemID⟩ price qty now with
    | .error e => .error (.order e)
    | .ok (service, trades, resting) =>
      let s := settleSale cfg { s with service := service } player itemID trades
      .ok ⟨s.escrowItems player itemID resting,
        some (placeResult (payout cfg) trades resting), trades⟩

/-- Checks the balance, matches, settles and sets aside. -/
def placeBuyOrder (cfg : MarketConfig) (s : Market P) (player : P)
    (stationID itemID : UInt32) (price : Int64) (qty : Int32) (now : Int64) :
    Except (MarketError P) (Outcome P) :=
  if itemID = cfg.currencyID then .error .currencyNotTradable
  else if s.getCurrency player < price * qty.toInt64 then
    .error (.insufficientCurrency (s.getCurrency player) (price * qty.toInt64))
  else
    match s.service.placeBuyOrder cfg.toConfig player ⟨stationID, itemID⟩ price qty now with
    | .error e => .error (.order e)
    | .ok (service, trades, resting) =>
      let s := trades.foldl (settleBuy cfg player itemID) { s with service := service }
      .ok ⟨s.escrowCurrency player price resting,
        some (placeResult tradeCost trades resting), trades⟩

/-- Sells to the best bids. -/
def instantSell (cfg : MarketConfig) (s : Market P) (player : P)
    (stationID itemID : UInt32) (qty : Int32) : Except (MarketError P) (Outcome P) :=
  if itemID = cfg.currencyID then .error .currencyNotTradable
  else if s.getBankBalance player itemID < qty then
    .error (.insufficientBank (s.getBankBalance player itemID) qty)
  else
    match s.service.instantSell player ⟨stationID, itemID⟩ qty with
    | .error e => .error (.order e)
    | .ok (service, trades) =>
      .ok ⟨settleSale cfg { s with service := service } player itemID trades,
        some (placeResult (payout cfg) trades none), trades⟩

/-- Buys from the best asks within the player's balance. -/
def instantBuy (cfg : MarketConfig) (s : Market P) (player : P)
    (stationID itemID : UInt32) (qty : Int32) : Except (MarketError P) (Outcome P) :=
  if itemID = cfg.currencyID then .error .currencyNotTradable
  else
    match s.service.instantBuy player ⟨stationID, itemID⟩ qty (s.getCurrency player) with
    | .error e => .error (.order e)
    | .ok (service, trades) =>
      .ok ⟨trades.foldl (settleBuy cfg player itemID) { s with service := service },
        some (placeResult tradeCost trades none), trades⟩

/-- Takes an order out of the book and refunds it. -/
def cancelOrder (s : Market P) (player : P) (orderID : ℕ) :
    Except (MarketError P) (Outcome P) :=
  match s.service.cancelOrder player orderID with
  | .error e => .error (.order e)
  | .ok (service, o) => .ok { market := { s with service := service }.refund o }

/-- Refunds all orders whose time is over. -/
def expireOrders (s : Market P) (now : Int64) : Outcome P :=
  let (service, expired) := s.service.expireOrders now
  { market := expired.foldl refund { s with service := service } }

end Market

/-- The requests of players, and the sweep. -/
inductive Call (P : Type*)
  | placeSellOrder (player : P) (stationID itemID : UInt32) (price : Int64) (qty : Int32)
      (now : Int64)
  | placeBuyOrder (player : P) (stationID itemID : UInt32) (price : Int64) (qty : Int32)
      (now : Int64)
  | instantSell (player : P) (stationID itemID : UInt32) (qty : Int32)
  | instantBuy (player : P) (stationID itemID : UInt32) (qty : Int32)
  | cancelOrder (player : P) (orderID : ℕ)
  | expireOrders (now : Int64)

/-- Who calls. -/
def Call.player : Call P → Option P
  | placeSellOrder p .. | placeBuyOrder p .. | instantSell p .. | instantBuy p ..
  | cancelOrder p _ => some p
  | expireOrders _ => none

namespace Market

variable [DecidableEq P]

/-- Carries out a request. -/
def call (cfg : MarketConfig) (s : Market P) : Call P →
    Except (MarketError P) (Outcome P)
  | .placeSellOrder p loc item price qty now => s.placeSellOrder cfg p loc item price qty now
  | .placeBuyOrder p loc item price qty now => s.placeBuyOrder cfg p loc item price qty now
  | .instantSell p loc item qty => s.instantSell cfg p loc item qty
  | .instantBuy p loc item qty => s.instantBuy cfg p loc item qty
  | .cancelOrder p orderID => s.cancelOrder p orderID
  | .expireOrders now => .ok (s.expireOrders now)

/-- A refused call changes nothing. -/
def after (cfg : MarketConfig) (s : Market P) (c : Call P) : Outcome P :=
  match s.call cfg c with
  | .ok out => out
  | .error _ => { market := s }

end Market

end Mmokit.Marketplace
