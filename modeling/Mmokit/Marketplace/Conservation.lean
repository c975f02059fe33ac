/-
What the marketplace conserves, and that it does not overdraw.

A call moves money and items around and loses only the tax on its trades, as long as the
fixed-width accounts have room for what it moves; without room a product wraps, and a buy order
that nobody can pay for is accepted as free.
-/
import Mmokit.Library.Runs
import Mmokit.Marketplace.Bookings

namespace Mmokit.Marketplace

open Orderbook Accounts

variable {P : Type*} [DecidableEq P]

namespace Market

def holdings (s : Market P) (i : UInt32) : ℤ :=
  ∑ p ∈ s.players, (s.bank (p, i)).toInt + s.service.total (Order.stock i)

def wealth (s : Market P) : ℤ :=
  ∑ p ∈ s.players, (s.currency p).toInt + s.service.total Order.escrow

def step (cfg : MarketConfig) (s : Market P) (c : Call P) : Option (Market P) :=
  if ∀ p ∈ c.player, p ∈ s.players then some (s.after cfg c).market else none

def Solvent (s : Market P) : Prop :=
  ∀ p ∈ s.players, 0 ≤ (s.currency p).toInt ∧ ∀ i, 0 ≤ (s.bank (p, i)).toInt

end Market

namespace Booked

variable {cfg : MarketConfig} {s : Market P} {c : Call P} {out : Outcome P}
  {cs : List (P × Int64)} {bs : List ((P × UInt32) × Int32)}

lemma players (h : Booked cfg s c out cs bs) : out.market.players = s.players := by
  rw [h.market]
  rfl

lemma currency_eq (h : Booked cfg s c out cs bs) (hroom : c.Room s) {p : P} (hp : p ∈ s.players) :
    (out.market.currency p).toInt = (s.currency p).toInt + posted Int64.toInt cs p := by
  rw [h.market]
  exact foldl_post fixedWidth_int64 ((hroom.currency p hp).mono (h.currency p).1 (h.currency p).2)

lemma bank_eq (h : Booked cfg s c out cs bs) (hroom : c.Room s) {p : P} (hp : p ∈ s.players)
    (i : UInt32) :
    (out.market.bank (p, i)).toInt = (s.bank (p, i)).toInt + posted Int32.toInt bs (p, i) := by
  rw [h.market]
  refine foldl_post fixedWidth_int32 ?_
  by_cases hi : i ∈ c.items s
  · exact (hroom.bank p hp i hi).mono (h.bank p i).1 (h.bank p i).2
  -- nothing is posted to an entry of another item
  have hne : ∀ e ∈ bs, e.1 ≠ (p, i) := fun e he heq => hi (by
    have hmem := (h.holder e he).2
    rwa [heq] at hmem)
  rw [credits_of_ne hne, debits_of_ne hne]
  have hl := (s.bank (p, i)).le_toInt
  have hu := (s.bank (p, i)).toInt_lt
  have hwidth : InRange (2 ^ 31) (s.bank (p, i)).toInt 0 0 := ⟨by omega, by omega⟩
  exact hwidth

lemma holdings_eq (h : Booked cfg s c out cs bs) (hroom : c.Room s) (i : UInt32) :
    out.market.holdings i = s.holdings i := by
  have hsum : ∑ p ∈ s.players, (out.market.bank (p, i)).toInt =
      ∑ p ∈ s.players, (s.bank (p, i)).toInt + unitsOf bs i := by
    rw [← sum_posted_item (fun e he => (h.holder e he).1), ← Finset.sum_add_distrib]
    exact Finset.sum_congr rfl fun p hp => h.bank_eq hroom hp i
  have hstock := h.stock i
  unfold Market.holdings
  rw [h.players]
  linarith

lemma wealth_eq (h : Booked cfg s c out cs bs) (hroom : c.Room s) :
    out.market.wealth + (out.trades.map (Marketplace.withheld cfg)).sum = s.wealth := by
  have hsum : ∑ p ∈ s.players, (out.market.currency p).toInt =
      ∑ p ∈ s.players, (s.currency p).toInt + (cs.map fun e => e.2.toInt).sum := by
    rw [← sum_posted h.payee, ← Finset.sum_add_distrib]
    exact Finset.sum_congr rfl fun p hp => h.currency_eq hroom hp
  have hescrow := h.escrow
  unfold Market.wealth
  rw [h.players]
  linarith

lemma solvent (h : Booked cfg s c out cs bs) (hroom : c.Room s) (hfunded : c.Funded s)
    (hs : s.Solvent) : out.market.Solvent := by
  intro p hp
  rw [h.players] at hp
  obtain ⟨hcurrency, hbank⟩ := hs p hp
  refine ⟨?_, fun i => ?_⟩
  · have hcredits : 0 ≤ credits Int64.toInt cs p := credits_nonneg _ _
    have hdebits := h.funded hfunded p hp hcurrency
    rw [h.currency_eq hroom hp, posted_eq]
    omega
  · have hcredits : 0 ≤ credits Int32.toInt bs (p, i) := credits_nonneg _ _
    have hdebits := h.covered p hp i (hbank i)
    rw [h.bank_eq hroom hp, posted_eq]
    omega

end Booked

namespace Market

variable {cfg : MarketConfig} {start s s' : Market P} {c : Call P}

lemma booked_after (hcfg : cfg.TaxRate) (hpriced : c.Priced cfg) (hroom : c.Room s)
    (hwf : s.service.WF s.players) (hplayer : ∀ p ∈ c.player, p ∈ s.players) :
    s.after cfg c = { market := s } ∨ ∃ cs bs, Booked cfg s c (s.after cfg c) cs bs := by
  unfold after
  cases hcall : s.call cfg c with
  | error e => exact .inl rfl
  | ok out => exact .inr (booked_call hcfg hpriced hroom hwf hplayer hcall)

lemma wf_step (hcfg : cfg.TaxRate) (hpriced : c.Priced cfg) (hroom : c.Room s)
    (hwf : s.service.WF s.players) (hstep : Steps (step cfg) s c s') :
    s'.service.WF s'.players := by
  unfold Steps step at hstep
  split at hstep
  · next hplayer =>
    cases hstep
    rcases booked_after hcfg hpriced hroom hwf hplayer with heq | ⟨cs, bs, hbooked⟩
    · rw [heq]
      exact hwf
    · rw [hbooked.players]
      exact hbooked.wf
  · cases hstep

/-- **Value is conserved.** In a run of calls by registered players, at prices that are not negative
and with room for what they move, every call leaves the number of each item as it was, and takes
from the currency just the tax withheld on its trades. -/
theorem conserves_value (hcfg : cfg.TaxRate) (hstart : start.service.WF start.players)
    (hrun : Run (Steps (step cfg)) (fun s c => c.Priced cfg ∧ c.Room s) start s)
    (hplayer : ∀ p ∈ c.player, p ∈ s.players) (hpriced : c.Priced cfg) (hroom : c.Room s) :
    (∀ i, (s.after cfg c).market.holdings i = s.holdings i) ∧
      (s.after cfg c).market.wealth + ((s.after cfg c).trades.map (withheld cfg)).sum = s.wealth ∧
      ∀ m ∈ (s.after cfg c).trades, 0 ≤ withheld cfg m := by
  have hwf := hrun.invariant (I := fun s => s.service.WF s.players) hstart
    fun hwf hK hstep => wf_step hcfg hK.1 hK.2 hwf hstep
  rcases booked_after hcfg hpriced hroom hwf hplayer with heq | ⟨cs, bs, hbooked⟩
  · rw [heq]
    exact ⟨fun _ => rfl, by simp, by simp⟩
  · exact ⟨hbooked.holdings_eq hroom, hbooked.wealth_eq hroom, hbooked.withheld⟩

def stationConfig : MarketConfig where
  taxPct := mkRat 1 50
  orderExpiry := 604800
  minPrice := 1
  maxOrders := 50
  currencyID := 1

def station (balance : Int64) : Market Bool where
  service := Service.new
  players := {true, false}
  bank e := if e = (true, 7) then 10 else 0
  currency p := if p then 0 else balance

/-- Four of ten items are bought for 20, of which 19 go to the seller. -/
theorem conserves_value_station : ∃ s,
    Run (Steps (step stationConfig)) (fun s c => c.Priced stationConfig ∧ c.Room s)
      (station 100) s ∧
      ((s.after stationConfig (.placeBuyOrder false 1 7 6 4 0)).trades.map
        (withheld stationConfig)) = [1] ∧
      (s.after stationConfig (.placeBuyOrder false 1 7 6 4 0)).market.wealth + 1 = s.wealth ∧
      (s.after stationConfig (.placeBuyOrder false 1 7 6 4 0)).market.holdings 7 =
        s.holdings 7 := by
  obtain ⟨s, hrun, ⟨hplayer, hpriced, hroom⟩, htax⟩ := exists_run (s := station 100)
    (step stationConfig) (fun s c => c.Priced stationConfig ∧ c.Room s)
    (fun s => (false ∈ s.players ∧
        (Call.placeBuyOrder false 1 7 6 4 0).Priced stationConfig ∧
        (Call.placeBuyOrder false 1 7 6 4 0).Room s) ∧
      ((s.after stationConfig (.placeBuyOrder false 1 7 6 4 0)).trades.map
        (withheld stationConfig)) = [1])
    [.placeSellOrder true 1 7 5 10 0] (by decide +kernel)
  obtain ⟨hitems, hwealth, -⟩ := conserves_value ⟨by decide +kernel, by decide +kernel⟩
    Service.WF.new hrun (by simpa [Call.player] using hplayer) hpriced hroom
  rw [htax] at hwealth
  exact ⟨s, hrun, htax, hwealth, hitems 7⟩

/-- **A product that wraps**: four times 2 ^ 62 is nothing, so a player without a balance may place
a buy order of that value, and what the book holds for it is made of nothing. -/
theorem wrapped_order_mints :
    (∀ p ∈ (Call.placeBuyOrder false 1 7 4611686018427387904 4 0).player, p ∈ (station 0).players) ∧
      (station 0).service = Service.new ∧ (station 0).wealth = 0 ∧
      ((station 0).after stationConfig
        (.placeBuyOrder false 1 7 4611686018427387904 4 0)).market.wealth = 2 ^ 64 :=
  ⟨by simp [Call.player, station], rfl, by decide +kernel, by decide +kernel⟩

/-- **No account is overdrawn**, if the calls have room for what they move and instant purchases are
made with a balance. -/
theorem never_overdrawn (hcfg : cfg.TaxRate) (hmin : 0 < cfg.minPrice.toInt)
    (hstart : start.service = Service.new) (hsolvent : start.Solvent)
    (hrun : Run (Steps (step cfg)) (fun s c => c.Room s ∧ c.Funded s) start s) : s.Solvent := by
  have hwf : start.service.WF start.players := hstart ▸ Service.WF.new
  have hpriced (c : Call P) : c.Priced cfg := fun price _ hle => by omega
  refine (hrun.invariant (I := fun s => s.service.WF s.players ∧ s.Solvent) ⟨hwf, hsolvent⟩ ?_).2
  rintro s s' c ⟨hwf, hs⟩ ⟨hroom, hfunded⟩ hstep
  refine ⟨wf_step hcfg (hpriced c) hroom hwf hstep, ?_⟩
  unfold Steps step at hstep
  split at hstep
  · next hplayer =>
    cases hstep
    rcases booked_after hcfg (hpriced c) hroom hwf hplayer with heq | ⟨cs, bs, hbooked⟩
    · rw [heq]
      exact hs
    · exact hbooked.solvent hroom hfunded hs
  · cases hstep

lemma solvent_station {balance : Int64} (h : 0 ≤ balance.toInt) : (station balance).Solvent := by
  intro p _
  refine ⟨?_, fun i => ?_⟩
  · cases p
    · exact h
    · exact le_rfl
  simp only [station]
  split
  · decide
  · exact le_rfl

/-- With a balance of seven, an instant purchase of ten items at five gets one. -/
theorem never_overdrawn_station : ∃ s,
    Run (Steps (step stationConfig)) (fun s c => c.Room s ∧ c.Funded s) (station 7) s ∧
      (s.currency false).toInt = 2 ∧ s.Solvent := by
  obtain ⟨s, hrun, hbalance⟩ := exists_run (s := station 7)
    (step stationConfig) (fun s c => c.Room s ∧ c.Funded s)
    (fun s => (s.currency false).toInt = 2)
    [.placeSellOrder true 1 7 5 10 0, .instantBuy false 1 7 10] (by decide +kernel)
  exact ⟨s, hrun, hbalance, never_overdrawn ⟨by decide +kernel, by decide +kernel⟩ (by decide) rfl
    (solvent_station (by decide)) hrun⟩

/-- **A budget of zero is no limit**: a player without a balance buys the lot and owes its price. -/
theorem empty_balance_overdrawn : 0 < stationConfig.minPrice.toInt ∧
    (station 0).service = Service.new ∧ (station 0).Solvent ∧
      ∃ s, Run (Steps (step stationConfig)) Always (station 0) s ∧
        (s.currency false).toInt = -50 ∧ ¬ s.Solvent := by
  refine ⟨by decide, rfl, solvent_station le_rfl, ?_⟩
  obtain ⟨s, hrun, hbalance, hmem⟩ := exists_run (s := station 0) (step stationConfig) Always
    (fun s => (s.currency false).toInt = -50 ∧ false ∈ s.players)
    [.placeSellOrder true 1 7 5 10 0, .instantBuy false 1 7 10] (by decide +kernel)
  refine ⟨s, hrun, hbalance, fun hsolvent => ?_⟩
  have hnonneg := (hsolvent false hmem).1
  omega

end Market

end Mmokit.Marketplace
