import Mathlib.Tactic.LinearCombination
import Aetheris.Intelligence
import Aetheris.PaperAccounts

namespace Aetheris.BreakEven

open Lib FixedPoint Mutation Money Clock Enums Leverage RiskEngine OrderIdentity PaperRecords PaperGate PaperPricing
  PaperEngine PaperLedger PaperRefinement PaperRuns PaperAccounts Intelligence

variable {config : PaperEngineConfig} {t : EntryTerms} {b x : Decimal}

def direction (t : EntryTerms) : Decimal := if t.isLong then 1 else -1

def feeRate (config : PaperEngineConfig) : Decimal := config.takerFeeBps / 10000

/-- What closing at a price would leave if the close rounded nothing. -/
def exactNet (config : PaperEngineConfig) (t : EntryTerms) (x : Decimal) : Decimal :=
  direction t * ((x - t.entryPrice) * t.quantity) - t.quantity * x * feeRate config - t.entryFee

/-- The price that the break-even price is solved to be, in its own equation. -/
structure Solves (config : PaperEngineConfig) (t : EntryTerms) (b : Decimal) : Prop where
  quantity_pos : 0 < t.quantity
  price_pos : 0 < b
  charged_less : 0 < 1 - direction t * feeRate config
  solved : b * (t.quantity * (direction t - feeRate config)) = direction t * (t.entryPrice * t.quantity) + t.entryFee

/-- The fee of a position is the configured share of what it is worth in whole units. -/
structure Charged (config : PaperEngineConfig) (t : EntryTerms) : Prop where
  notional_pos : 0 < t.notional
  notional : t.notional = quantizeUsdt (t.quantity * t.entryPrice)
  fee : t.entryFee = quantizeUsdt (t.notional * config.takerFeeBps / bps)

section Equation

theorem direction_cases (t : EntryTerms) :
    t.isLong = true ∧ direction t = 1 ∨ t.isLong = false ∧ direction t = -1 := by
  unfold direction
  cases t.isLong <;> simp

theorem direction_mul_self (t : EntryTerms) : direction t * direction t = 1 := by
  rcases direction_cases t with ⟨_, h⟩ | ⟨_, h⟩ <;> rw [h] <;> norm_num

theorem ahead_eq (t : EntryTerms) (x b : Decimal) : ahead t.isLong x b = direction t * (x - b) := by
  unfold ahead
  rcases direction_cases t with ⟨hlong, h⟩ | ⟨hlong, h⟩
  · rw [hlong, h, one_mul]
    rfl
  · rw [hlong, h, neg_one_mul, neg_sub]
    rfl

/-- The two sides are one equation, mirrored. -/
theorem breakEven_eq (config : PaperEngineConfig) (shown : PaperPosition) :
    let denominator := shown.quantity * (1 - direction shown.toEntryTerms * feeRate config)
    let price := (shown.entryPrice * shown.quantity + direction shown.toEntryTerms * shown.entryFee) / denominator
    breakEven shown config.takerFeeBps =
      if shown.quantity ≤ 0 ∨ denominator ≤ 0 then none else if 0 < price then some price else none := by
  intro denominator price
  unfold breakEven
  rcases direction_cases shown.toEntryTerms with ⟨hlong, h⟩ | ⟨hlong, h⟩
  · have hside : shown.side = .long := of_decide_eq_true hlong
    simp only [denominator, price, h, hside, feeRate, if_true, one_mul]
  · have hside : shown.side ≠ .long := of_decide_eq_false hlong
    simp only [denominator, price, h, hside, feeRate, if_false, neg_one_mul, sub_neg_eq_add, ← sub_eq_add_neg]

theorem breakEven_solves {shown : PaperPosition} (h : breakEven shown config.takerFeeBps = some b) :
    Solves config shown.toEntryTerms b := by
  rw [breakEven_eq] at h
  obtain ⟨hdefined, h⟩ := (Option.ite_none_left_eq_some).mp h
  obtain ⟨hprice, h⟩ := (Option.ite_none_right_eq_some).mp h
  obtain rfl := Option.some.inj h
  obtain ⟨hquantity, hdenominator⟩ := not_or.mp hdefined
  rw [not_le] at hquantity hdenominator
  refine ⟨hquantity, hprice, (mul_pos_iff_of_pos_left hquantity).mp hdenominator, ?_⟩
  have hsquare := direction_mul_self shown.toEntryTerms
  have hside : shown.quantity * (direction shown.toEntryTerms - feeRate config) =
      direction shown.toEntryTerms * (shown.quantity * (1 - direction shown.toEntryTerms * feeRate config)) := by
    linear_combination shown.quantity * feeRate config * hsquare
  rw [hside, mul_left_comm, div_mul_cancel₀ _ hdenominator.ne']
  linear_combination shown.entryFee * hsquare

/-- Away from the break-even price, what is left is the way there, at what a unit of it earns after its fee. -/
theorem exactNet_eq (h : Solves config t b) (x : Decimal) :
    exactNet config t x = t.quantity * (1 - direction t * feeRate config) * ahead t.isLong x b := by
  rw [ahead_eq, exactNet]
  linear_combination h.solved + t.quantity * feeRate config * (x - b) * direction_mul_self t

end Equation

section Rate

theorem Charged.fee_places (h : Charged config t) : EightPlaces t.entryFee := by
  rw [h.fee]
  exact eightPlaces_quantizeUsdt _

theorem Charged.unit_le (h : Charged config t) : 1 / usdtUnits ≤ t.notional := by
  by_contra hless
  have hplaces : EightPlaces t.notional := by
    rw [h.notional]
    exact eightPlaces_quantizeUsdt _
  have hzero : t.notional ≤ 0 := Grid.le_of_lt usdtUnits_pos hplaces grid_zero (by linarith)
  exact hzero.not_gt h.notional_pos

/-- Where half of what is traded goes in fees, on either side, no price breaks even. -/
theorem Solves.rate_small (hsolves : Solves config t b) (h : Charged config t) : |feeRate config| < 2 := by
  by_contra hlarge
  have hrate : direction t * feeRate config ≤ -2 := by
    have hsize : |direction t * feeRate config| = |feeRate config| := by
      rcases direction_cases t with ⟨_, hd⟩ | ⟨_, hd⟩ <;> rw [hd] <;> simp
    have hless := hsolves.charged_less
    rcases abs_cases (direction t * feeRate config) with ⟨heq, _⟩ | ⟨heq, _⟩ <;> linarith
  have hplaces : EightPlaces (-(t.notional + t.notional)) := by
    rw [h.notional]
    exact ((eightPlaces_quantizeUsdt _).add (eightPlaces_quantizeUsdt _)).neg
  have hfee : direction t * t.entryFee ≤ -(t.notional + t.notional) := by
    have hrounds : direction t * t.entryFee = quantizeUsdt (t.notional * (direction t * feeRate config)) := by
      have hshare : t.notional * config.takerFeeBps / bps = t.notional * feeRate config := mul_div_assoc ..
      rw [h.fee, hshare]
      rcases direction_cases t with ⟨_, hd⟩ | ⟨_, hd⟩
      · rw [hd, one_mul, one_mul]
      · rw [hd, neg_one_mul, neg_one_mul, mul_neg, quantizeUsdt_neg]
    rw [hrounds, ← quantizeUsdt_of_eightPlaces hplaces]
    refine quantizeUsdt_mono ?_
    have := mul_le_mul_of_nonneg_left hrate h.notional_pos.le
    linarith
  have hworth : t.quantity * t.entryPrice ≤ t.notional + 1 / (2 * usdtUnits) := by
    have hnear := (abs_le.mp (abs_quantizeUsdt_sub_le (t.quantity * t.entryPrice))).1
    rw [← h.notional] at hnear
    linarith
  have hhalf : 1 / (2 * usdtUnits) < 1 / usdtUnits := by norm_num [usdtUnits]
  have hprice : 0 < b * (t.quantity * (1 - direction t * feeRate config)) :=
    mul_pos hsolves.price_pos (mul_pos hsolves.quantity_pos hsolves.charged_less)
  have hbalance : b * (t.quantity * (1 - direction t * feeRate config)) =
      t.quantity * t.entryPrice + direction t * t.entryFee := by
    linear_combination direction t * hsolves.solved + (t.quantity * t.entryPrice - b * t.quantity) * direction_mul_self t
  linarith [h.unit_le]

end Rate

section Closing

variable {p : MutablePosition} {now : Timestamp} {reason : PaperExitReason} {id : String} {balance : Decimal}

theorem netPnl_eq (hfee : EightPlaces p.entryFee) (x : Decimal) :
    (tradeOf now p (exitAt config p x) reason id balance).netPnl =
      quantizeUsdt (direction p.toEntryTerms * ((x - p.entryPrice) * p.quantity)) -
        quantizeUsdt (quantizeUsdt (p.quantity * x) * feeRate config) - p.entryFee := by
  have hgross : (if p.isLong then (x - p.entryPrice) * p.quantity else -((x - p.entryPrice) * p.quantity)) =
      direction p.toEntryTerms * ((x - p.entryPrice) * p.quantity) := by
    unfold direction
    cases p.isLong <;> simp
  have hshare : quantizeUsdt (p.quantity * x) * config.takerFeeBps / bps =
      quantizeUsdt (p.quantity * x) * feeRate config := mul_div_assoc ..
  change quantizeUsdt (quantizeUsdt _ - quantizeUsdt _ - p.entryFee) = _
  rw [hgross, hshare]
  exact quantizeUsdt_of_eightPlaces
    (((eightPlaces_quantizeUsdt _).sub (eightPlaces_quantizeUsdt _)).sub hfee)

/-- Three figures are rounded at a close, and one of them only counts for its share. -/
theorem netPnl_near (hfee : EightPlaces p.entryFee) (x : Decimal) :
    |(tradeOf now p (exitAt config p x) reason id balance).netPnl - exactNet config p.toEntryTerms x| ≤
      (1 + |feeRate config| / 2) / usdtUnits := by
  rw [netPnl_eq hfee]
  let gross := direction p.toEntryTerms * ((x - p.entryPrice) * p.quantity)
  let notional := p.quantity * x
  let f := feeRate config
  have hgross : |quantizeUsdt gross - gross| ≤ 1 / (2 * usdtUnits) := abs_quantizeUsdt_sub_le gross
  have hcharged : |quantizeUsdt (quantizeUsdt notional * f) - quantizeUsdt notional * f| ≤ 1 / (2 * usdtUnits) :=
    abs_quantizeUsdt_sub_le _
  have hshare : |(quantizeUsdt notional - notional) * f| ≤ 1 / (2 * usdtUnits) * |f| := by
    rw [abs_mul]
    exact mul_le_mul_of_nonneg_right (abs_quantizeUsdt_sub_le notional) (abs_nonneg f)
  have hsplit : quantizeUsdt gross - quantizeUsdt (quantizeUsdt notional * f) - p.entryFee -
      exactNet config p.toEntryTerms x =
      (quantizeUsdt gross - gross) - (quantizeUsdt (quantizeUsdt notional * f) - quantizeUsdt notional * f) -
        (quantizeUsdt notional - notional) * f := by
    rw [exactNet]
    ring
  calc |quantizeUsdt gross - quantizeUsdt (quantizeUsdt notional * f) - p.entryFee - exactNet config p.toEntryTerms x|
      ≤ |quantizeUsdt gross - gross| + |quantizeUsdt (quantizeUsdt notional * f) - quantizeUsdt notional * f| +
          |(quantizeUsdt notional - notional) * f| := by
        rw [hsplit]
        exact (abs_sub _ _).trans (add_le_add_left (abs_sub _ _) _)
    _ ≤ 1 / (2 * usdtUnits) + 1 / (2 * usdtUnits) + 1 / (2 * usdtUnits) * |f| :=
        add_le_add (add_le_add hgross hcharged) hshare
    _ = (1 + |f| / 2) / usdtUnits := by
        field_simp
        ring

theorem close_returned {r : Repository} {mark : MarkPrice} {trade : PaperTrade}
    (h : ((close config now p mark reason).run r).1 = .ok trade) :
    ∃ x id balance, trade = tradeOf now p (exitAt config p x) reason id balance := by
  obtain ⟨⟨x, source⟩, _, _, h⟩ := of_run_bind h
  dsimp only at h
  obtain ⟨_, _, _, h⟩ := of_run_bind h
  obtain ⟨number, _, _, h⟩ := of_run_bind h
  exact ⟨x, s!"paper-trade-{number}", _, (Except.ok.inj h).symm⟩

/-- How a trade compares with a price that was said to break even. -/
structure BreaksEven (b : Decimal) (trade : PaperTrade) : Prop where
  even : trade.exitPrice = b → |trade.netPnl| ≤ 1 / 100000000
  better : 0 < ahead (trade.side = .long) trade.exitPrice b → -(1 / 100000000) ≤ trade.netPnl
  worse : ahead (trade.side = .long) trade.exitPrice b < 0 → trade.netPnl ≤ 1 / 100000000

theorem breaksEven_tradeOf (hcharged : Charged config p.toEntryTerms) (hsolves : Solves config p.toEntryTerms b)
    (x : Decimal) : BreaksEven b (tradeOf now p (exitAt config p x) reason id balance) := by
  have hside : decide ((tradeOf now p (exitAt config p x) reason id balance).side = .long) = p.isLong := by
    change decide ((if p.isLong then PositionSide.long else .short) = .long) = p.isLong
    cases p.isLong <;> rfl
  have hplaces : EightPlaces (tradeOf now p (exitAt config p x) reason id balance).netPnl := eightPlaces_quantizeUsdt _
  have hunit : EightPlaces (1 / usdtUnits) := ⟨1, by norm_num⟩
  have hearns : 0 < p.quantity * (1 - direction p.toEntryTerms * feeRate config) :=
    mul_pos hsolves.quantity_pos hsolves.charged_less
  have hnear : |(tradeOf now p (exitAt config p x) reason id balance).netPnl - exactNet config p.toEntryTerms x| ≤
      (1 + |feeRate config| / 2) / usdtUnits := netPnl_near hcharged.fee_places x
  rw [exactNet_eq hsolves] at hnear
  -- less than two units off, and a whole number of them
  have hoff : (1 + |feeRate config| / 2) / usdtUnits < 1 / usdtUnits + 1 / usdtUnits := by
    rw [← add_div, div_lt_div_iff_of_pos_right usdtUnits_pos]
    linarith [hsolves.rate_small hcharged]
  obtain ⟨hlow, hhigh⟩ := abs_le.mp hnear
  have hbetter : 0 ≤ ahead p.isLong x b →
      -(1 / usdtUnits) ≤ (tradeOf now p (exitAt config p x) reason id balance).netPnl := by
    intro h
    have hexact := mul_nonneg hearns.le h
    refine neg_le.mp (Grid.le_of_lt usdtUnits_pos hplaces.neg hunit ?_)
    linarith
  have hworse : ahead p.isLong x b ≤ 0 →
      (tradeOf now p (exitAt config p x) reason id balance).netPnl ≤ 1 / usdtUnits := by
    intro h
    have hexact := mul_nonpos_of_nonneg_of_nonpos hearns.le h
    refine Grid.le_of_lt usdtUnits_pos hplaces hunit ?_
    linarith
  refine ⟨fun h => ?_, fun h => hbetter ?_, fun h => hworse ?_⟩
  · have hthere : ahead p.isLong x b = 0 := by
      rw [ahead_eq, show x = b from h, sub_self, mul_zero]
    exact abs_le.mpr ⟨hbetter hthere.ge, hworse hthere.le⟩
  · rw [hside] at h
    exact h.le
  · rw [hside] at h
    exact h.le

end Closing

section Runs

variable [Runtime]

theorem charged_admitted {op : Operation} : op.Admitted (fun _ t => Charged config t) config r := by
  cases op with
  | submitOrder request now mark filters leverage paperEnabled marks detail checks riskMax =>
      intro entry hentry orderId positionId
      have hconsidered := considerOrder_ok (considerOrder_of_entryOf hentry).2
      exact ⟨hconsidered.admitted.notional_pos, hconsidered.notional_eq, rfl⟩
  | _ => trivial

/-- Whatever led to a position and wherever it is closed: at the price that its
metrics give as break-even the trade nets nothing, beyond it nothing is lost and
short of it nothing is won, each to within the last decimal kept. -/
theorem reported_price_breaks_even (config : PaperEngineConfig) (startingBalance : Decimal) (start : Timestamp)
    (durability : Durability) (calls : List Call) :
    let r := runCalls config (opening startingBalance start durability) calls
    ∀ p ∈ r.state.positions.values, ∀ (asked : Timestamp) (marks : Marks) (b : Decimal),
      (computePositionMetrics (positionModel config asked marks p) asked config.takerFeeBps).breakEvenPrice = some b →
      ∀ (q : MutablePosition), q.toEntryTerms = p.toEntryTerms →
      ∀ (later : Repository) (closing : Timestamp) (mark : MarkPrice) (reason : PaperExitReason) (trade : PaperTrade),
        ((close config closing q mark reason).run later).1 = .ok trade → BreaksEven b trade := by
  intro r p hp asked marks b hprice q hterms later closing mark reason trade hclosed
  have hcharged : Charged config p.toEntryTerms :=
    terms_run (P := Charged config) (fun _ _ => charged_admitted) startingBalance start durability calls _ (mem_terms hp)
  have hshown : (positionModel config asked marks p).toEntryTerms = p.toEntryTerms := by
    unfold positionModel
    cases marks.get? p.symbol <;> rfl
  have hsolves : Solves config p.toEntryTerms b := by
    rw [← hshown]
    exact breakEven_solves hprice
  obtain ⟨x, id, balance, rfl⟩ := close_returned hclosed
  rw [← hterms] at hcharged hsolves
  exact breaksEven_tradeOf hcharged hsolves x

end Runs

def quotedAt (price : Decimal) : MarkPrice :=
  { exampleMark with lastPrice := some price, bidPrice := some price, askPrice := some price }

/-- One unit bought at 99, at a fee of a hundredth. -/
def bought : Call :=
  .keep (.submitOrder { symbol := "BTCUSDT", side := .buy, margin := some 99, clientOrderId := some "BTCUSDT" } 0
    (quotedAt 99) none exampleDecision true .empty none [] none)

def holding : Repository := @runCalls referenceRuntime exampleConfig (opening 1000 0 .inMemory) [bought]

/-- A close at 101, which is what 99 and a hundredth on each side come to. -/
def soldAt101 (p : MutablePosition) : Except PaperError PaperTrade :=
  ((close exampleConfig 60 p (quotedAt 101) .manualClose).run holding).1

theorem holding_sold : ∃ p ∈ holding.state.positions.values,
    (computePositionMetrics (positionModel exampleConfig 0 .empty p) 0 exampleConfig.takerFeeBps).breakEvenPrice =
      some 101 ∧
    (soldAt101 p).toOption.map PaperTrade.exitPrice = some 101 := by
  decide +kernel

theorem reported_price_breaks_even_bought : ∃ p ∈ holding.state.positions.values, ∃ trade,
    soldAt101 p = .ok trade ∧ trade.exitPrice = 101 ∧ BreaksEven 101 trade := by
  obtain ⟨p, hp, hprice, hsold⟩ := holding_sold
  obtain ⟨trade, htrade, hexit⟩ := Option.map_eq_some_iff.mp hsold
  have hok : soldAt101 p = .ok trade := by
    cases h : soldAt101 p with
    | error e =>
        rw [h] at htrade
        cases htrade
    | ok found =>
        rw [h] at htrade
        exact congrArg Except.ok (Option.some.inj htrade)
  exact ⟨p, hp, trade, hok, hexit, @reported_price_breaks_even referenceRuntime exampleConfig 1000 0 .inMemory [bought] p
    hp 0 .empty 101 hprice p rfl holding 60 (quotedAt 101) .manualClose trade hok⟩

end Aetheris.BreakEven
