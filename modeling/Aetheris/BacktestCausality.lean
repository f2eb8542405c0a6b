import Aetheris.BacktestLoop
import Aetheris.Lib.Extreme

namespace Aetheris.Backtest

open Lib Money Clock Enums Autonomous Indicators TrendMomentum Relation

section Levels

theorem maxLevel_mem {levels : List (Decimal × ExitReason)} : ∀ level ∈ maxLevel levels, level ∈ levels := by
  intro level hlevel
  cases levels with
  | nil => exact absurd hlevel (Option.not_mem_none _)
  | cons first rest =>
      obtain rfl := Option.some.inj hlevel
      exact Extreme.foldl_mem (fun x y => (ite_eq_or_eq _ y x).symm) rest first

theorem minLevel_mem {levels : List (Decimal × ExitReason)} : ∀ level ∈ minLevel levels, level ∈ levels := by
  intro level hlevel
  cases levels with
  | nil => exact absurd hlevel (Option.not_mem_none _)
  | cons first rest =>
      obtain rfl := Option.some.inj hlevel
      exact Extreme.foldl_mem (fun x y => (ite_eq_or_eq _ y x).symm) rest first

/-- A bar takes a position out for a reason of its own, which is no flip and no end of the data. -/
theorem triggered_reason {settings : BacktestConfig} {bar : Candle} {p : OpenPosition} {level : Decimal}
    {reason : ExitReason} (h : triggered settings bar p = some (level, reason)) :
    reason ≠ .signalFlip ∧ reason ≠ .endOfData := by
  rw [triggered, resolveIntrabarExit] at h
  have htarget {price : Option Decimal} {keep : Decimal → Bool}
      (htarget : (price.filter keep).map (fun price => (price, ExitReason.takeProfit)) = some (level, reason)) :
      reason ≠ .signalFlip ∧ reason ≠ .endOfData := by
    obtain ⟨_, -, hpair⟩ := Option.map_eq_some_iff.mp htarget
    obtain ⟨-, rfl⟩ := Prod.mk.inj hpair
    exact ⟨ExitReason.noConfusion, ExitReason.noConfusion⟩
  split at h
  · rename_i chosen why hchosen
    split at h
    · obtain ⟨-, rfl⟩ := Prod.mk.inj (Option.some.inj h)
      have hmem : (chosen, why) ∈ (p.stopPrice.map fun price => (price, ExitReason.stopLoss)).toList ++
          (p.liquidationPrice.map fun price => (price, ExitReason.liquidation)).toList ++
          ((trailLevel settings p).map fun price => (price, ExitReason.trailingStop)).toList := by
        split at hchosen
        · exact maxLevel_mem _ hchosen
        · exact minLevel_mem _ hchosen
      have hwhy : why = .stopLoss ∨ why = .liquidation ∨ why = .trailingStop := by
        simp only [List.mem_append, Option.mem_toList, Option.map_eq_some_iff, Prod.mk.injEq] at hmem
        rcases hmem with (⟨_, -, -, h⟩ | ⟨_, -, -, h⟩) | ⟨_, -, -, h⟩
        · exact Or.inl h.symm
        · exact Or.inr (Or.inl h.symm)
        · exact Or.inr (Or.inr h.symm)
      rcases hwhy with rfl | rfl | rfl <;> exact ⟨ExitReason.noConfusion, ExitReason.noConfusion⟩
    · exact htarget h
  · exact htarget h

end Levels

section Provenance

variable (q : Rounding) (candles : List Candle) (settings : BacktestConfig) (params : TrendMomentumParams)

/-- A bar of the series opened the position, on the side that the bar before it had decided for. -/
structure OpenedAt (p : OpenPosition) (i : Nat) (bar : Candle) : Prop where
  bar_eq : candles[i]? = some bar
  decided : Decided settings (warmupBars params) (biasSeries candles params) i p.side
  side_ne_flat : p.side ≠ .flat
  entryIndex : p.entryIndex = i
  entryTime : p.entryTime = bar.openTime
  entryPrice : p.entryPrice = applySlippage bar.open_ p.side true settings.slippageBps

/-- A trade goes from one bar of the series to another. It is entered at the open of the first one, on the side
that the bar before had decided for, and an exit on a flip is made at the open of the second one, where the bar
before had decided for another side. -/
structure Spans (t : Trade) (i j : Nat) (entry exit : Candle) : Prop where
  entry_eq : candles[i]? = some entry
  exit_eq : candles[j]? = some exit
  le : i ≤ j
  decided : Decided settings (warmupBars params) (biasSeries candles params) i t.side
  side_ne_flat : t.side ≠ .flat
  entryTime : t.entryTime = entry.openTime
  exitTime : t.exitTime = exit.openTime
  barsHeld : t.barsHeld = j - i
  entryPrice : t.entryPrice = q.money (applySlippage entry.open_ t.side true settings.slippageBps)
  flip : t.exitReason = .signalFlip →
    (∃ side, Decided settings (warmupBars params) (biasSeries candles params) j side ∧ side ≠ t.side) ∧
      t.exitPrice = q.money (applySlippage exit.open_ t.side false settings.slippageBps)

/-- Before a bar every position and every trade is of the bars before it. -/
structure Sourced (k : Nat) (s : Simulation) : Prop where
  position : ∀ p ∈ s.position, ∃ i bar, i < k ∧ OpenedAt candles settings params p i bar
  trades : ∀ t ∈ s.trades, ∃ i j entry exit, j < k ∧ Spans q candles settings params t i j entry exit

variable {q candles settings params} {k i : Nat} {s s' : Simulation} {p : OpenPosition} {bar entry : Candle}

theorem OpenedAt.spans (h : OpenedAt candles settings params p i entry) (hbar : candles[k]? = some bar) (hle : i ≤ k)
    (rawPrice : Decimal) (reason : ExitReason) (equity : Decimal)
    (hflip : reason = .signalFlip → rawPrice = bar.open_ ∧
      ∃ side, Decided settings (warmupBars params) (biasSeries candles params) k side ∧ side ≠ p.side) :
    Spans q candles settings params (tradeOf q settings p rawPrice reason bar.openTime k equity) i k entry bar where
  entry_eq := h.bar_eq
  exit_eq := hbar
  le := hle
  decided := h.decided
  side_ne_flat := h.side_ne_flat
  entryTime := h.entryTime
  exitTime := rfl
  barsHeld := congrArg (k - ·) h.entryIndex
  entryPrice := congrArg q.money h.entryPrice
  flip hreason := by
    obtain ⟨rfl, hside⟩ := hflip hreason
    exact ⟨hside, rfl⟩

theorem OpenedAt.withRange (h : OpenedAt candles settings params p i entry) (bar : Candle) :
    OpenedAt candles settings params (withRange bar p) i entry :=
  ⟨h.bar_eq, h.decided, h.side_ne_flat, h.entryIndex, h.entryTime, h.entryPrice⟩

theorem OpenedAt.withTrail (h : OpenedAt candles settings params p i entry) (bar : Candle) :
    OpenedAt candles settings params (withTrail bar p) i entry :=
  ⟨h.bar_eq, h.decided, h.side_ne_flat, h.entryIndex, h.entryTime, h.entryPrice⟩

theorem Sourced.next (h : Sourced q candles settings params k s) : Sourced q candles settings params (k + 1) s where
  position p hp := by
    obtain ⟨i, bar, hlt, hopened⟩ := h.position p hp
    exact ⟨i, bar, Nat.lt_succ_of_lt hlt, hopened⟩
  trades t ht := by
    obtain ⟨i, j, entry, exit, hlt, hspans⟩ := h.trades t ht
    exact ⟨i, j, entry, exit, Nat.lt_succ_of_lt hlt, hspans⟩

theorem Sourced.move (hbar : candles[k]? = some bar)
    (hmove : Move q settings (warmupBars params) (biasSeries candles params) k bar s s')
    (h : Sourced q candles settings params (k + 1) s) : Sourced q candles settings params (k + 1) s' := by
  have hnone : ∀ p ∈ (none : Option OpenPosition), ∃ i bar, i < k + 1 ∧ OpenedAt candles settings params p i bar :=
    fun p hp => absurd hp (Option.not_mem_none p)
  have hclosed {p : OpenPosition} {rawPrice : Decimal} {reason : ExitReason} {i : Nat} {entry : Candle}
      (hopened : OpenedAt candles settings params p i entry) (hlt : i < k + 1)
      (hflip : reason = .signalFlip → rawPrice = bar.open_ ∧
        ∃ side, Decided settings (warmupBars params) (biasSeries candles params) k side ∧ side ≠ p.side) :
      ∀ t ∈ (closePosition q settings p rawPrice reason bar.openTime k s).trades,
        ∃ i j entry exit, j < k + 1 ∧ Spans q candles settings params t i j entry exit := by
    intro t ht
    rcases List.mem_append.mp ht with ht | ht
    · exact h.trades t ht
    · obtain rfl := List.mem_singleton.mp ht
      exact ⟨i, k, entry, bar, Nat.lt_succ_self k, hopened.spans hbar (Nat.lt_succ_iff.mp hlt) _ _ _ hflip⟩
  cases hmove with
  | flipped p side hdecided hp hside =>
      obtain ⟨i, entry, hlt, hopened⟩ := h.position p hp
      exact ⟨hnone, hclosed hopened hlt fun _ => ⟨rfl, side, hdecided, hside⟩⟩
  | entered side hdecided _ hside _ _ =>
      refine ⟨fun p hp => ?_, h.trades⟩
      obtain rfl := Option.some.inj hp
      exact ⟨k, bar, Nat.lt_succ_self k, hbar, hdecided, hside, rfl, rfl, rfl⟩
  | exited p level reason hp hlevel =>
      obtain ⟨i, entry, hlt, hopened⟩ := h.position p hp
      exact ⟨hnone, hclosed (hopened.withRange bar) hlt fun hflip => absurd hflip (triggered_reason hlevel).1⟩
  | held p hp _ =>
      obtain ⟨i, entry, hlt, hopened⟩ := h.position p hp
      refine ⟨fun p' hp' => ?_, h.trades⟩
      obtain rfl := Option.some.inj hp'
      exact ⟨i, entry, hlt, (hopened.withRange bar).withTrail bar⟩
  | marked => exact ⟨h.position, h.trades⟩
  | scheduled _ => exact ⟨h.position, h.trades⟩

variable (q settings params) in
/-- Every position and every trade of the run comes from the bars before. -/
theorem sourced_stateAfter {n : Nat} (hn : n ≤ candles.length) :
    Sourced q candles settings params n (stateAfter q candles settings params n) :=
  stateAfter_invariant _ ⟨fun p hp => absurd hp (Option.not_mem_none p), fun _ ht => absurd ht List.not_mem_nil⟩
    (fun _ _ h => h.next) (fun _ _ _ _ hbar hmove h => h.move hbar hmove) hn

end Provenance

section Ends

variable (q : Rounding) (candles : List Candle) (settings : BacktestConfig)

/-- The trade that the end of the data makes, if it finds a position. -/
def endTrades (s : Simulation) : List Trade :=
  match s.position, candles.getLast? with
  | some p, some last => [tradeOf q settings p last.close .endOfData last.openTime (candles.length - 1)
      (s.equity + tradeNet settings p (exitFill settings p last.close))]
  | _, _ => []

theorem endOfData_trades (s : Simulation) :
    (endOfData q settings candles s).trades = s.trades ++ endTrades q candles settings s := by
  rw [endOfData, endTrades]
  cases s.position with
  | none => exact (List.append_nil _).symm
  | some p =>
      cases candles.getLast? with
      | none => exact (List.append_nil _).symm
      | some last => rfl

theorem endOfData_curve (s : Simulation) : (endOfData q settings candles s).curve = s.curve := by
  rw [endOfData]
  split <;> rfl

theorem endTrades_length (s : Simulation) : (endTrades q candles settings s).length ≤ 1 := by
  rw [endTrades]
  split
  · exact le_rfl
  · exact Nat.zero_le 1

theorem endTrades_mem {s : Simulation} : ∀ t ∈ endTrades q candles settings s, t.exitReason = .endOfData ∧
    ∃ p last, s.position = some p ∧ candles.getLast? = some last ∧
      t = tradeOf q settings p last.close .endOfData last.openTime (candles.length - 1)
        (s.equity + tradeNet settings p (exitFill settings p last.close)) := by
  intro t ht
  rw [endTrades] at ht
  split at ht
  · rename_i p last hp hlast
    obtain rfl := List.mem_singleton.mp ht
    exact ⟨rfl, p, last, hp, hlast, rfl⟩
  · exact absurd ht List.not_mem_nil

variable {q candles settings} {params : TrendMomentumParams}

variable (q settings) in
theorem simulate_of_length (h : warmupBars params + 2 ≤ candles.length) :
    (simulate q candles settings params).trades =
        (loop q candles settings params).trades ++ endTrades q candles settings (loop q candles settings params) ∧
      (simulate q candles settings params).equityCurve = (loop q candles settings params).curve := by
  rw [simulate]
  dsimp only
  rw [if_neg (Nat.not_lt.mpr h)]
  exact ⟨endOfData_trades q candles settings _, endOfData_curve q candles settings _⟩

variable (q settings) in
theorem simulate_of_short (h : candles.length < warmupBars params + 2) :
    (simulate q candles settings params).trades = [] ∧ (simulate q candles settings params).equityCurve = [] := by
  rw [simulate]
  dsimp only
  rw [if_pos h]
  exact ⟨rfl, rfl⟩

/-- Every trade of a run spans bars of its series. -/
theorem spans_simulate : ∀ t ∈ (simulate q candles settings params).trades, ∃ i j entry exit,
    Spans q candles settings params t i j entry exit := by
  intro t ht
  by_cases hlength : warmupBars params + 2 ≤ candles.length
  · have hsourced := sourced_stateAfter q settings params (le_refl candles.length)
    rw [← loop_eq_stateAfter] at hsourced
    rw [(simulate_of_length q settings hlength).1] at ht
    rcases List.mem_append.mp ht with ht | ht
    · obtain ⟨i, j, entry, exit, -, hspans⟩ := hsourced.trades t ht
      exact ⟨i, j, entry, exit, hspans⟩
    · obtain ⟨-, p, last, hp, hlast, rfl⟩ := endTrades_mem q candles settings t ht
      obtain ⟨i, entry, hlt, hopened⟩ := hsourced.position p hp
      rw [List.getLast?_eq_getElem?] at hlast
      exact ⟨i, candles.length - 1, entry, last, hopened.spans hlast (by omega) _ _ _ ExitReason.noConfusion⟩
  · rw [(simulate_of_short q settings (Nat.lt_of_not_le hlength)).1] at ht
    exact absurd ht List.not_mem_nil

end Ends

section Growth

variable {q : Rounding} {settings : BacktestConfig} {warmup warmup' : Nat} {biases biases' : List (Option StrategyBias)}
  {k last last' : Nat} {s : Simulation}

theorem execute_curve (bar : Candle) : (execute q settings k bar s).curve = s.curve := by
  rw [execute]
  split
  · rfl
  · rename_i pending hpending
    have hflip : (exitFlipped q settings k bar pending s).curve = s.curve := by
      rw [exitFlipped]
      split
      · split <;> rfl
      · rfl
    have henter (s : Simulation) : (enterPending settings k bar pending s).curve = s.curve := by
      rw [enterPending]
      split
      · dsimp only
        split <;> rfl
      · rfl
    exact (henter _).trans hflip

theorem manage_curve (bar : Candle) : (manage q settings k bar s).curve = s.curve := by
  rw [manage]
  split
  · rfl
  · dsimp only
    split <;> rfl

/-- What the loop carries apart from what is pending. -/
def Simulation.settled (s : Simulation) : Simulation := { s with pendingSide := none }

/-- A decision changes only what is pending. -/
theorem decideNext_settled : (decideNext settings warmup biases last k s).settled = s.settled := by
  rw [decideNext]
  split
  · dsimp only
    split <;> rfl
  · rfl

variable (q settings warmup biases k last s) in
theorem onBar_settled (bar : Candle) :
    (onBar q settings warmup biases last k bar s).settled =
      (mark q bar (manage q settings k bar (execute q settings k bar s))).settled := decideNext_settled

variable (q s) in
theorem mark_curve (bar : Candle) : ∃ point, (mark q bar s).curve = s.curve ++ [point] := ⟨_, rfl⟩

variable (q settings warmup biases k last s) in
/-- Each bar adds its own point to the curve. -/
theorem onBar_curve (bar : Candle) :
    ∃ point, (onBar q settings warmup biases last k bar s).curve = s.curve ++ [point] := by
  have hsettled := congrArg Simulation.curve (onBar_settled q settings warmup biases k last s bar)
  obtain ⟨point, hpoint⟩ := mark_curve q (manage q settings k bar (execute q settings k bar s)) bar
  rw [manage_curve, execute_curve] at hpoint
  exact ⟨point, hsettled.trans hpoint⟩

variable (q settings warmup biases k last s) in
theorem onBars_curve (bars : List Candle) :
    ∃ points, (onBars q settings warmup biases last k bars s).curve = s.curve ++ points ∧
      points.length = bars.length := by
  induction bars generalizing k s with
  | nil => exact ⟨[], (List.append_nil _).symm, rfl⟩
  | cons bar bars ih =>
      obtain ⟨point, hpoint⟩ := onBar_curve q settings warmup biases k last s bar
      obtain ⟨points, hpoints, hlength⟩ := ih (k + 1) (onBar q settings warmup biases last k bar s)
      refine ⟨point :: points, ?_, congrArg (· + 1) hlength⟩
      rw [onBars, hpoints, hpoint, List.append_assoc, List.singleton_append]

variable (q settings warmup biases biases' k last last' s) in
/-- The bars that two runs both decide at, by the same biases, they treat alike. -/
theorem onBars_congr (bars : List Candle)
    (hsame : ∀ j < bars.length, (k + j < last ↔ k + j < last') ∧ biases[k + j]? = biases'[k + j]?) :
    onBars q settings warmup biases last k bars s = onBars q settings warmup biases' last' k bars s := by
  induction bars generalizing k s with
  | nil => rfl
  | cons bar bars ih =>
      have hbar := hsame 0 (Nat.zero_lt_succ _)
      have hdecision (s : Simulation) :
          decideNext settings warmup biases last k s = decideNext settings warmup biases' last' k s := by
        rw [decideNext, decideNext]
        simp only [Nat.add_zero] at hbar
        simp only [hbar.1, hbar.2]
      rw [onBars, onBars, onBar, hdecision, ← onBar]
      refine ih (k + 1) _ fun j hj => ?_
      have hlater := hsame (j + 1) (Nat.succ_lt_succ hj)
      rwa [Nat.add_comm j 1, ← Nat.add_assoc] at hlater

/-- A move ends a trade at its bar, or none. -/
theorem Move.trades {bar : Candle} {s' : Simulation} (h : Move q settings warmup biases k bar s s') :
    s'.trades = s.trades ∨ ∃ t, s'.trades = s.trades ++ [t] ∧ t.exitTime = bar.openTime := by
  cases h with
  | flipped => exact Or.inr ⟨_, rfl, rfl⟩
  | exited => exact Or.inr ⟨_, rfl, rfl⟩
  | entered | held | marked | scheduled => exact Or.inl rfl

end Growth

section TwoRuns

variable {q : Rounding} {candles short rest : List Candle} {settings : BacktestConfig} {params : TrendMomentumParams}

variable (q settings params) in
/-- The trades that end after so many bars end at later ones. -/
theorem loop_trades {n : Nat} (hn : n ≤ candles.length) :
    ∃ later, (loop q candles settings params).trades = (stateAfter q candles settings params n).trades ++ later ∧
      ∀ t ∈ later, ∃ j bar, n ≤ j ∧ candles[j]? = some bar ∧ t.exitTime = bar.openTime := by
  let P (k : Nat) (s : Simulation) : Prop :=
    n ≤ k ∧ ∃ later, s.trades = (stateAfter q candles settings params n).trades ++ later ∧
      ∀ t ∈ later, ∃ j bar, n ≤ j ∧ candles[j]? = some bar ∧ t.exitTime = bar.openTime
  have hkept := onBars_invariant q (candles.length - 1) P P (fun _ _ h => h)
    (fun k bar s s' hbar hmove h => by
      obtain ⟨hk, later, hs, hlater⟩ := h
      rcases hmove.trades with hsame | ⟨t, ht, hexit⟩
      · exact ⟨hk, later, hsame.trans hs, hlater⟩
      · refine ⟨hk, later ++ [t], by rw [ht, hs, List.append_assoc], fun u hu => ?_⟩
        rcases List.mem_append.mp hu with hu | hu
        · exact hlater u hu
        · obtain rfl := List.mem_singleton.mp hu
          exact ⟨k, bar, hk, hbar, hexit⟩)
    (fun k s h => ⟨Nat.le_succ_of_le h.1, h.2⟩) (candles.drop n)
    (fun j bar hbar => by rwa [List.getElem?_drop] at hbar) (stateAfter_pending hn)
    ⟨le_rfl, [], (List.append_nil _).symm, fun t ht => absurd ht List.not_mem_nil⟩
  rw [loop_eq_onBars hn]
  exact hkept.2

variable (q settings params) in
theorem loop_curve {n : Nat} (hn : n ≤ candles.length) :
    ∃ later, (loop q candles settings params).curve = (stateAfter q candles settings params n).curve ++ later := by
  rw [loop_eq_onBars hn]
  obtain ⟨later, hlater, -⟩ := onBars_curve q settings (warmupBars params) (biasSeries candles params) n
    (candles.length - 1) (stateAfter q candles settings params n) (candles.drop n)
  exact ⟨later, hlater⟩

theorem stateAfter_curve {n : Nat} (hn : n ≤ candles.length) :
    (stateAfter q candles settings params n).curve.length = n := by
  obtain ⟨points, hpoints, hlength⟩ := onBars_curve q settings (warmupBars params) (biasSeries candles params) 0
    (candles.length - 1) (initial settings) (candles.take n)
  rw [stateAfter, hpoints, List.length_append, hlength, List.length_take, Nat.min_eq_left hn]
  exact Nat.zero_add n

variable (q rest settings params) in
/-- On the bars of a shorter series the longer one does as the shorter, but that the shorter decides nothing
at its last bar. -/
theorem loop_settled (hshort : short ≠ []) :
    (loop q short settings params).settled =
      (stateAfter q (short ++ rest) settings params short.length).settled := by
  obtain ⟨front, final, rfl⟩ : ∃ front final, short = front ++ [final] :=
    ⟨short.dropLast, short.getLast hshort, (List.dropLast_append_getLast hshort).symm⟩
  have hbiases (j : Nat) (hj : j < (front ++ [final]).length) :
      (biasSeries (front ++ [final]) params)[j]? = (biasSeries (front ++ [final] ++ rest) params)[j]? := by
    have hpast := (causal_biasSeries params).getElem?_take (front ++ [final] ++ rest) hj
    rwa [List.take_left] at hpast
  have hlength : (front ++ [final]).length = front.length + 1 := by rw [List.length_append, List.length_singleton]
  have hlonger : (front ++ [final] ++ rest).length = front.length + 1 + rest.length := by
    rw [List.length_append, hlength]
  have hfront := onBars_congr q settings (warmupBars params) (biasSeries (front ++ [final]) params)
    (biasSeries (front ++ [final] ++ rest) params) 0 ((front ++ [final]).length - 1)
    ((front ++ [final] ++ rest).length - 1) (initial settings) front (fun j hj => by
      refine ⟨?_, hbiases (0 + j) (by omega)⟩
      omega)
  rw [stateAfter, List.take_left, loop, onBars_append, onBars_append, hfront]
  exact (onBar_settled _ _ _ _ _ _ _ final).trans (onBar_settled _ _ _ _ _ _ _ final).symm

/-- A trade exits at one of the bars. -/
def exitsOn (bars : List Candle) (t : Trade) : Bool := bars.any fun bar => bar.openTime = t.exitTime

theorem exitsOn_of_lt {t : Trade}
    (hlt : ∃ j, j < short.length ∧ ∃ bar, (short ++ rest)[j]? = some bar ∧ t.exitTime = bar.openTime) :
    exitsOn short t := by
  obtain ⟨j, hj, bar, hbar, htime⟩ := hlt
  rw [List.getElem?_append_left hj] at hbar
  exact List.any_eq_true.mpr ⟨bar, List.mem_of_getElem? hbar, by simp [htime]⟩

/-- In a series in order of time no later bar is one of the earlier ones. -/
theorem not_exitsOn (hascending : (short ++ rest).Pairwise fun a b => a.openTime < b.openTime) {t : Trade} {j : Nat}
    {bar : Candle} (hj : short.length ≤ j) (hbar : (short ++ rest)[j]? = some bar) (htime : t.exitTime = bar.openTime) :
    exitsOn short t = false := by
  rw [List.getElem?_append_right hj] at hbar
  rw [exitsOn, List.any_eq_false]
  intro early hearly
  have hbefore : early.openTime < bar.openTime :=
    (List.pairwise_append.mp hascending).2.2 early hearly bar (List.mem_of_getElem? hbar)
  rw [decide_eq_true_eq, htime]
  exact hbefore.ne

/-- The run over the first bars agrees on the past with the run over all of them: their curves coincide there,
and its trades are those that the other ends there, and one that the end of its data makes if it finds a position.
Every entry is decided by the bias of the bar before and filled at the open, and so is every exit on a flip. -/
theorem past_is_settled (short rest : List Candle)
    (hascending : (short ++ rest).Pairwise fun a b => a.openTime < b.openTime) (settings : BacktestConfig)
    (params : TrendMomentumParams) (hlength : warmupBars params + 2 ≤ short.length) :
    (runBacktest short settings params).equityCurve =
        (runBacktest (short ++ rest) settings params).equityCurve.take short.length ∧
      (∃ ends, (runBacktest short settings params).trades =
          (runBacktest (short ++ rest) settings params).trades.filter (exitsOn short) ++ ends ∧
        ends.length ≤ 1 ∧ ∀ t ∈ ends, t.exitReason = .endOfData) ∧
      ∀ t ∈ (runBacktest (short ++ rest) settings params).trades, ∃ i j entry exit,
        Spans quantized (short ++ rest) settings params t i j entry exit := by
  have hwhole : short.length ≤ (short ++ rest).length := by rw [List.length_append]; omega
  have hshort : short ≠ [] := by
    rintro rfl
    rw [List.length_nil] at hlength
    omega
  have hsettled := loop_settled quantized rest settings params hshort
  obtain ⟨hshortTrades, hshortCurve⟩ := simulate_of_length quantized settings hlength
  obtain ⟨hlongTrades, hlongCurve⟩ := simulate_of_length quantized settings (hlength.trans hwhole)
  refine ⟨?_, ?_, spans_simulate⟩
  · obtain ⟨later, hlater⟩ := loop_curve quantized settings params hwhole
    have hpast : (loop quantized short settings params).curve =
        (stateAfter quantized (short ++ rest) settings params short.length).curve := by
      have hcurve := congrArg Simulation.curve hsettled
      exact hcurve
    rw [runBacktest, runBacktest, hshortCurve, hlongCurve, hlater, hpast, List.take_left' (stateAfter_curve hwhole)]
  · have hpast : (loop quantized short settings params).trades =
        (stateAfter quantized (short ++ rest) settings params short.length).trades := by
      have htrades := congrArg Simulation.trades hsettled
      exact htrades
    obtain ⟨later, hlater, hexits⟩ := loop_trades quantized settings params hwhole
    have hkeep : ∀ t ∈ (stateAfter quantized (short ++ rest) settings params short.length).trades, exitsOn short t := by
      intro t ht
      obtain ⟨i, j, entry, exit, hj, hspans⟩ := (sourced_stateAfter quantized settings params hwhole).trades t ht
      exact exitsOn_of_lt ⟨j, hj, exit, hspans.exit_eq, hspans.exitTime⟩
    have hdrop : ∀ t ∈ later, ¬ exitsOn short t = true := by
      intro t ht
      obtain ⟨j, bar, hj, hbar, htime⟩ := hexits t ht
      rw [not_exitsOn hascending hj hbar htime]
      exact Bool.false_ne_true
    rcases List.eq_nil_or_concat' rest with rfl | ⟨front, final, rfl⟩
    · refine ⟨[], ?_, Nat.zero_le 1, fun t ht => absurd ht List.not_mem_nil⟩
      have hall : ∀ t ∈ (runBacktest (short ++ []) settings params).trades, exitsOn short t := by
        intro t ht
        obtain ⟨i, j, entry, exit, hspans⟩ := spans_simulate t ht
        have hj : j < short.length := by
          have hbound := (List.getElem?_eq_some_iff.mp hspans.exit_eq).1
          simpa using hbound
        exact exitsOn_of_lt ⟨j, hj, exit, hspans.exit_eq, hspans.exitTime⟩
      rw [List.filter_eq_self.mpr hall, List.append_nil, List.append_nil]
    · refine ⟨endTrades quantized short settings (loop quantized short settings params), ?_,
        endTrades_length quantized short settings _, fun t ht => (endTrades_mem quantized short settings t ht).1⟩
      have hend : ∀ t ∈ endTrades quantized (short ++ (front ++ [final])) settings
          (loop quantized (short ++ (front ++ [final])) settings params), ¬ exitsOn short t = true := by
        intro t ht
        obtain ⟨-, p, last, -, hlast, rfl⟩ := endTrades_mem quantized _ settings t ht
        rw [List.getLast?_eq_getElem?] at hlast
        have hlater : short.length ≤ (short ++ (front ++ [final])).length - 1 := by
          rw [List.length_append, List.length_append, List.length_singleton]
          omega
        rw [not_exitsOn hascending hlater hlast rfl]
        exact Bool.false_ne_true
      rw [runBacktest, runBacktest, hshortTrades, hlongTrades, hlater, List.filter_append, List.filter_append,
        List.filter_eq_self.mpr hkeep, List.filter_eq_nil_iff.mpr hdrop, List.filter_eq_nil_iff.mpr hend, hpast]
      rw [List.append_nil, List.append_nil]

end TwoRuns

section Examples

def exampleCandle (time open_ close : Nat) : Candle where
  openTime := time
  closeTime := time + 1
  open_ := open_
  high := max open_ close
  low := min open_ close
  close := close
  volume := 1
  low_nonneg := by simp
  low_le_open := by simp
  open_le_high := by simp
  low_le_close := by simp
  close_le_high := by simp
  volume_nonneg := by simp
  ordered := by simp

def exampleParams : TrendMomentumParams where
  emaFast := 2
  emaSlow := 3
  rsiPeriod := 2
  rsiOverbought := 99
  rsiOversold := 1
  adxPeriod := 2
  adxMinimum := 0
  macdFast := 2
  macdSlow := 3
  macdSignal := 2
  emaFast_bounds := by decide
  emaSlow_bounds := by decide
  rsiPeriod_bounds := by decide
  rsiOverbought_bounds := by norm_num
  rsiOversold_bounds := by norm_num
  adxPeriod_bounds := by decide
  adxMinimum_bounds := by norm_num
  macdFast_bounds := by decide
  macdSlow_bounds := by decide
  macdSignal_bounds := by decide
  emaFast_lt_emaSlow := by decide
  macdFast_lt_macdSlow := by decide

def exampleConfig : BacktestConfig where
  startingBalance := 1000
  positionSizePercent := 100
  leverage := 2
  feeBps := 100
  slippageBps := 0
  stopLossPercent := none
  takeProfitPercent := none
  trailingStopPercent := none
  allowLong := true
  allowShort := true
  startingBalance_bounds := by norm_num
  positionSizePercent_bounds := by norm_num
  leverage_bounds := by norm_num
  feeBps_bounds := by norm_num
  slippageBps_bounds := by norm_num
  stopLossPercent_bounds := fun _ h => absurd h (Option.not_mem_none _)
  takeProfitPercent_bounds := fun _ h => absurd h (Option.not_mem_none _)
  trailingStopPercent_bounds := fun _ h => absurd h (Option.not_mem_none _)
  atLeastOneDirection := Or.inl rfl

/-- A rise that the rules go long on at its fourth bar. -/
def exampleRise : List Candle :=
  [exampleCandle 0 100 100, exampleCandle 1 100 102, exampleCandle 2 102 101, exampleCandle 3 101 110,
    exampleCandle 4 110 112]

theorem past_is_settled_example :
    (runBacktest exampleRise exampleConfig exampleParams).equityCurve =
        (runBacktest (exampleRise ++ [exampleCandle 5 112 90]) exampleConfig exampleParams).equityCurve.take 5 ∧
      (∃ ends, (runBacktest exampleRise exampleConfig exampleParams).trades =
          (runBacktest (exampleRise ++ [exampleCandle 5 112 90]) exampleConfig exampleParams).trades.filter
            (exitsOn exampleRise) ++ ends ∧
        ends.length ≤ 1 ∧ ∀ t ∈ ends, t.exitReason = .endOfData) ∧
      ∀ t ∈ (runBacktest (exampleRise ++ [exampleCandle 5 112 90]) exampleConfig exampleParams).trades,
        ∃ i j entry exit, Spans quantized (exampleRise ++ [exampleCandle 5 112 90]) exampleConfig exampleParams t i j
          entry exit :=
  past_is_settled exampleRise [exampleCandle 5 112 90] (by decide) exampleConfig exampleParams (by decide)

end Examples

end Aetheris.Backtest
