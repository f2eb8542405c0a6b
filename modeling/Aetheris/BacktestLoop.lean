import Mathlib.Logic.Relation
import Aetheris.Backtest

namespace Aetheris.Backtest

open Lib Money Clock Enums Autonomous Indicators TrendMomentum Relation

section Rounded

/-- The figures of an exact trade as they are reported. -/
def Trade.rounded (q : Rounding) (t : Trade) : Trade :=
  { t with
    entryPrice := q.money t.entryPrice
    exitPrice := q.money t.exitPrice
    quantity := q.money t.quantity
    notional := q.money t.notional
    margin := q.money t.margin
    grossPnl := q.money t.grossPnl
    fees := q.money t.fees
    netPnl := q.money t.netPnl
    returnPercent := q.percent t.returnPercent
    equityAfter := q.money t.equityAfter
    maxAdverseExcursionPercent := q.percent t.maxAdverseExcursionPercent
    maxFavourableExcursionPercent := q.percent t.maxFavourableExcursionPercent }

def EquityPoint.rounded (q : Rounding) (point : EquityPoint) : EquityPoint :=
  { point with equity := q.money point.equity, drawdownPercent := q.percent point.drawdownPercent }

/-- What the loop carries when its reports are rounded. -/
def Simulation.rounded (q : Rounding) (s : Simulation) : Simulation :=
  { s with trades := s.trades.map (Trade.rounded q), curve := s.curve.map (EquityPoint.rounded q) }

variable (q : Rounding) (settings : BacktestConfig) (index : Nat) (bar : Candle) (s : Simulation)

theorem closePosition_rounded (p : OpenPosition) (rawPrice : Decimal) (reason : ExitReason) (exitTime : Timestamp) :
    closePosition q settings p rawPrice reason exitTime index (s.rounded q) =
      (closePosition unrounded settings p rawPrice reason exitTime index s).rounded q := by
  rw [closePosition, closePosition, Simulation.rounded, Simulation.rounded, List.map_append]
  rfl

theorem exitFlipped_rounded (pending : PositionSide) :
    exitFlipped q settings index bar pending (s.rounded q) =
      (exitFlipped unrounded settings index bar pending s).rounded q := by
  rw [exitFlipped, exitFlipped]
  have hposition : (s.rounded q).position = s.position := rfl
  rw [hposition]
  cases s.position with
  | none => rfl
  | some p =>
      dsimp only
      split
      · rw [closePosition_rounded]
        rfl
      · rfl

theorem enterPending_rounded (pending : PositionSide) :
    enterPending settings index bar pending (s.rounded q) = (enterPending settings index bar pending s).rounded q := by
  rw [enterPending, enterPending]
  have hsame : (s.rounded q).position = s.position ∧ (s.rounded q).equity = s.equity := ⟨rfl, rfl⟩
  rw [hsame.1, hsame.2]
  dsimp only
  split
  · split <;> rfl
  · rfl

theorem execute_rounded :
    execute q settings index bar (s.rounded q) = (execute unrounded settings index bar s).rounded q := by
  rw [execute, execute]
  have hpending : (s.rounded q).pendingSide = s.pendingSide := rfl
  rw [hpending]
  cases s.pendingSide with
  | none => rfl
  | some pending =>
      dsimp only
      rw [exitFlipped_rounded, enterPending_rounded]
      rfl

theorem manage_rounded :
    manage q settings index bar (s.rounded q) = (manage unrounded settings index bar s).rounded q := by
  rw [manage, manage]
  have hposition : (s.rounded q).position = s.position := rfl
  rw [hposition]
  cases s.position with
  | none => rfl
  | some p =>
      dsimp only
      split
      · rw [closePosition_rounded]
        rfl
      · rfl

theorem mark_rounded : mark q bar (s.rounded q) = (mark unrounded bar s).rounded q := by
  rw [mark, mark, Simulation.rounded, Simulation.rounded, List.map_append]
  rfl

variable (warmup : Nat) (biases : List (Option StrategyBias)) (last : Nat)

theorem decideNext_rounded :
    decideNext settings warmup biases last index (s.rounded q) =
      (decideNext settings warmup biases last index s).rounded q := by
  rw [decideNext, decideNext]
  have hposition : (s.rounded q).position = s.position := rfl
  rw [hposition]
  dsimp only
  split
  · split <;> rfl
  · rfl

theorem onBar_rounded :
    onBar q settings warmup biases last index bar (s.rounded q) =
      (onBar unrounded settings warmup biases last index bar s).rounded q := by
  rw [onBar, execute_rounded, manage_rounded, mark_rounded, decideNext_rounded, onBar]

/-- The loop does the same whatever its reports are rounded to. -/
theorem onBars_rounded (bars : List Candle) :
    onBars q settings warmup biases last index bars (s.rounded q) =
      (onBars unrounded settings warmup biases last index bars s).rounded q := by
  induction bars generalizing index s with
  | nil => rfl
  | cons bar bars ih => rw [onBars, onBar_rounded, ih, onBars]

end Rounded

section Moves

/-- The side that the bar before this one decided for. -/
def Decided (settings : BacktestConfig) (warmup : Nat) (biases : List (Option StrategyBias)) (k : Nat)
    (side : PositionSide) : Prop :=
  ∃ i, k = i + 1 ∧ warmup ≤ i ∧ side = desiredSide biases[i]?.join settings

/-- What a bar can do. -/
inductive Move (q : Rounding) (settings : BacktestConfig) (warmup : Nat) (biases : List (Option StrategyBias)) (k : Nat)
    (bar : Candle) : Simulation → Simulation → Prop
  | flipped (s) (p) (side) (hdecided : Decided settings warmup biases k side) (hp : s.position = some p)
      (hside : side ≠ p.side) :
      Move q settings warmup biases k bar s
        { closePosition q settings p bar.open_ .signalFlip bar.openTime k s with position := none }
  | entered (s) (side) (hdecided : Decided settings warmup biases k side) (hnone : s.position = none)
      (hside : side ≠ .flat) (hequity : 0 < s.equity)
      (hfill : 0 < applySlippage bar.open_ side true settings.slippageBps) :
      Move q settings warmup biases k bar s
        { s with position := some (enter settings side bar k
            (applySlippage bar.open_ side true settings.slippageBps) s.equity) }
  | exited (s) (p) (level) (reason) (hp : s.position = some p)
      (hlevel : triggered settings bar (withRange bar p) = some (level, reason)) :
      Move q settings warmup biases k bar s
        { closePosition q settings (withRange bar p) level reason bar.openTime k s with position := none }
  | held (s) (p) (hp : s.position = some p) (hlevel : triggered settings bar (withRange bar p) = none) :
      Move q settings warmup biases k bar s { s with position := some (withTrail bar (withRange bar p)) }
  | marked (s) : Move q settings warmup biases k bar s (mark q bar s)
  | scheduled (s) (pending : Option PositionSide) :
      Move q settings warmup biases k bar s { s with pendingSide := pending }

variable {q : Rounding} {settings : BacktestConfig} {warmup : Nat} {biases : List (Option StrategyBias)} {k last : Nat}
  {bar : Candle} {s : Simulation}

variable (q bar) in
theorem execute_moves (hpending : ∀ side ∈ s.pendingSide, Decided settings warmup biases k side) :
    ReflTransGen (Move q settings warmup biases k bar) s (execute q settings k bar s) ∧
      (execute q settings k bar s).pendingSide = none := by
  rw [execute]
  cases hs : s.pendingSide with
  | none => exact ⟨.refl, hs⟩
  | some side =>
      have hdecided := hpending side (by rw [hs]; rfl)
      have hflip : ReflTransGen (Move q settings warmup biases k bar) s (exitFlipped q settings k bar side s) := by
        rw [exitFlipped]
        cases hp : s.position with
        | none => exact .refl
        | some p =>
            dsimp only
            split
            · rename_i hside
              exact .single (.flipped s p side hdecided hp (Ne.symm hside))
            · exact .refl
      have henter (s : Simulation) :
          ReflTransGen (Move q settings warmup biases k bar) s (enterPending settings k bar side s) := by
        rw [enterPending]
        split
        · rename_i h
          dsimp only
          split
          · rename_i hfill
            exact .single (.entered s side hdecided h.1 h.2.1 h.2.2 hfill)
          · exact .refl
        · exact .refl
      exact ⟨(hflip.trans (henter _)).tail (.scheduled _ none), rfl⟩

theorem manage_moves : ReflTransGen (Move q settings warmup biases k bar) s (manage q settings k bar s) := by
  rw [manage]
  cases hp : s.position with
  | none => exact .refl
  | some p =>
      dsimp only
      split
      · rename_i level reason hlevel
        exact .single (.exited s p level reason hp hlevel)
      · rename_i hlevel
        exact .single (.held s p hp hlevel)

theorem manage_pendingSide : (manage q settings k bar s).pendingSide = s.pendingSide := by
  rw [manage]
  split
  · rfl
  · dsimp only
    split <;> rfl

variable (q last bar) in
/-- A bar makes its moves, and what it leaves pending it has decided itself. -/
theorem onBar_moves (hpending : ∀ side ∈ s.pendingSide, Decided settings warmup biases k side) :
    ReflTransGen (Move q settings warmup biases k bar) s (onBar q settings warmup biases last k bar s) ∧
      ∀ side ∈ (onBar q settings warmup biases last k bar s).pendingSide, Decided settings warmup biases (k + 1) side := by
  obtain ⟨hexecute, hnone⟩ := execute_moves q bar hpending
  have hmarked := (hexecute.trans manage_moves).tail (.marked _)
  have hmarkedPending : (mark q bar (manage q settings k bar (execute q settings k bar s))).pendingSide = none :=
    manage_pendingSide.trans hnone
  rw [onBar, decideNext]
  split
  · rename_i hindex
    dsimp only
    split
    · refine ⟨hmarked.tail (.scheduled _ _), ?_⟩
      intro side hside
      obtain rfl := Option.some.inj hside
      exact ⟨k, rfl, hindex.2, rfl⟩
    · refine ⟨hmarked, fun side hside => ?_⟩
      rw [hmarkedPending] at hside
      exact absurd hside (Option.not_mem_none side)
  · refine ⟨hmarked, fun side hside => ?_⟩
    rw [hmarkedPending] at hside
    exact absurd hside (Option.not_mem_none side)

theorem moves_keep {P : Simulation → Prop} {s' : Simulation}
    (hmove : ∀ s s', Move q settings warmup biases k bar s s' → P s → P s')
    (h : ReflTransGen (Move q settings warmup biases k bar) s s') (hP : P s) : P s' := by
  induction h with
  | refl => exact hP
  | tail _ hstep ih => exact hmove _ _ hstep ih

variable (q last) in
/-- What holds at a bar, what every move of the bar keeps, and what then holds at the next bar: so through the loop. -/
theorem onBars_invariant (P Q : Nat → Simulation → Prop) {candles : List Candle} (hstart : ∀ k s, P k s → Q k s)
    (hmove : ∀ k bar s s', candles[k]? = some bar → Move q settings warmup biases k bar s s' → Q k s → Q k s')
    (hend : ∀ k s, Q k s → P (k + 1) s)
    (bars : List Candle) (hbars : ∀ j bar, bars[j]? = some bar → candles[k + j]? = some bar)
    (hpending : ∀ side ∈ s.pendingSide, Decided settings warmup biases k side) (hP : P k s) :
    P (k + bars.length) (onBars q settings warmup biases last k bars s) := by
  induction bars generalizing k s with
  | nil => exact hP
  | cons bar bars ih =>
      obtain ⟨hmoves, hnextPending⟩ := onBar_moves q last bar hpending
      have hbar : candles[k]? = some bar := hbars 0 bar rfl
      have hkept : Q k (onBar q settings warmup biases last k bar s) :=
        moves_keep (fun s s' => hmove k bar s s' hbar) hmoves (hstart k s hP)
      have hrest : ∀ j other, bars[j]? = some other → candles[k + 1 + j]? = some other := by
        intro j other hother
        have hlater := hbars (j + 1) other hother
        rwa [Nat.add_comm j 1, ← Nat.add_assoc] at hlater
      rw [onBars, List.length_cons, Nat.add_comm bars.length 1, ← Nat.add_assoc]
      exact ih hrest hnextPending (hend k _ hkept)

variable (q last) in
/-- What is pending at a bar the bar before it has decided. -/
theorem onBars_pending (bars : List Candle)
    (hpending : ∀ side ∈ s.pendingSide, Decided settings warmup biases k side) :
    ∀ side ∈ (onBars q settings warmup biases last k bars s).pendingSide,
      Decided settings warmup biases (k + bars.length) side := by
  induction bars generalizing k s with
  | nil => exact hpending
  | cons bar bars ih =>
      rw [onBars, List.length_cons, Nat.add_comm bars.length 1, ← Nat.add_assoc]
      exact ih (onBar_moves q last bar hpending).2

variable (q settings warmup biases k last s) in
theorem onBars_append (bars rest : List Candle) :
    onBars q settings warmup biases last k (bars ++ rest) s =
      onBars q settings warmup biases last (k + bars.length) rest (onBars q settings warmup biases last k bars s) := by
  induction bars generalizing k s with
  | nil => rfl
  | cons bar bars ih => rw [List.cons_append, onBars, ih, onBars, List.length_cons, Nat.add_right_comm, Nat.add_assoc]

end Moves

section Runs

variable (q : Rounding) (candles : List Candle) (settings : BacktestConfig) (params : TrendMomentumParams)

/-- What the loop carries after so many bars of the series. -/
def stateAfter (n : Nat) : Simulation :=
  onBars q settings (warmupBars params) (biasSeries candles params) (candles.length - 1) 0 (candles.take n)
    (initial settings)

theorem loop_eq_stateAfter : loop q candles settings params = stateAfter q candles settings params candles.length := by
  rw [stateAfter, List.take_length, loop]

theorem stateAfter_rounded (n : Nat) :
    stateAfter q candles settings params n = (stateAfter unrounded candles settings params n).rounded q :=
  onBars_rounded q settings 0 (initial settings) _ _ _ _

theorem initial_pending (settings : BacktestConfig) (warmup : Nat) (biases : List (Option StrategyBias)) :
    ∀ side ∈ (initial settings).pendingSide, Decided settings warmup biases 0 side :=
  fun side hside => absurd hside (Option.not_mem_none side)

variable {q candles settings params}

theorem stateAfter_invariant (P : Nat → Simulation → Prop) (hinit : P 0 (initial settings))
    (hnext : ∀ k s, P k s → P (k + 1) s)
    (hmove : ∀ k bar s s', candles[k]? = some bar →
      Move q settings (warmupBars params) (biasSeries candles params) k bar s s' → P (k + 1) s → P (k + 1) s')
    {n : Nat} (hn : n ≤ candles.length) : P n (stateAfter q candles settings params n) := by
  have hkept := onBars_invariant q (candles.length - 1) P (fun k => P (k + 1)) hnext hmove (fun _ _ h => h)
    (candles.take n)
    (fun j bar hbar => by
      rw [List.getElem?_take] at hbar
      rw [Nat.zero_add]
      exact (Option.ite_none_right_eq_some.mp hbar).2)
    (initial_pending _ _ _) hinit
  rwa [List.length_take, Nat.min_eq_left hn, Nat.zero_add] at hkept

/-- The loop goes on from what it carries after so many bars. -/
theorem loop_eq_onBars {n : Nat} (hn : n ≤ candles.length) :
    loop q candles settings params =
      onBars q settings (warmupBars params) (biasSeries candles params) (candles.length - 1) n (candles.drop n)
        (stateAfter q candles settings params n) := by
  have hwhole := onBars_append q settings (warmupBars params) (biasSeries candles params) 0 (candles.length - 1)
    (initial settings) (candles.take n) (candles.drop n)
  rwa [List.take_append_drop, List.length_take, Nat.min_eq_left hn, Nat.zero_add] at hwhole

theorem stateAfter_pending {n : Nat} (hn : n ≤ candles.length) :
    ∀ side ∈ (stateAfter q candles settings params n).pendingSide,
      Decided settings (warmupBars params) (biasSeries candles params) n side := by
  have hkept := onBars_pending q (candles.length - 1) (candles.take n)
    (initial_pending settings (warmupBars params) (biasSeries candles params))
  rwa [List.length_take, Nat.min_eq_left hn, Nat.zero_add] at hkept

end Runs

end Aetheris.Backtest
