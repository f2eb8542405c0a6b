import Aetheris.IndicatorRegistry
import Aetheris.LastBar
import Aetheris.Lib.Raising

namespace Aetheris.IndicatorDivisions

open Lib Money Indicators IndicatorRegistry

/-- A computation in which a division may be by zero. -/
abbrev Dividing := Except DivisionError

section Averages

/-- Simple moving average. -/
def sma (values : Series) (period : Nat) : Dividing Series :=
  (List.range values.length).mapM fun index =>
    if index + 1 < period then pure none
    else
      match total (slice values (index + 1 - period) (index + 1)) with
      | none => pure none
      | some total => return some (← divide total (period : Decimal))

/-- Exponential moving average. -/
def ema (values : Series) (period : Nat) : Dividing Series := do
  let multiplier ← divide (2 : Decimal) (period + 1)
  match seedEnd period 0 0 values with
  | none => return undefinedSeries values.length
  | some seedEnd =>
      let previous ← divide ((total (slice values (seedEnd + 1 - period) (seedEnd + 1))).getD 0) (period : Decimal)
      return undefinedSeries seedEnd ++ some previous ::
        resume (fun previous value => value.map fun value => value * multiplier + previous * (1 - multiplier)) previous
          (values.drop (seedEnd + 1))

/-- The next value of Wilder's smoothing. -/
def smoothed (period : Nat) (previous : Decimal) (value : Option Decimal) : Dividing (Option Decimal) :=
  match value with
  | none => pure none
  | some value => return some (← divide (previous * ((period : Decimal) - 1) + value) (period : Decimal))

/-- Wilder's smoothing. -/
def wilderAverage (values : Series) (period start : Nat) : Dividing Series :=
  let seedEnd := start + period - 1
  if values.length ≤ seedEnd then pure (undefinedSeries values.length)
  else
    match total (slice values start (seedEnd + 1)) with
    | none => pure (undefinedSeries values.length)
    | some total => do
        let previous ← divide total (period : Decimal)
        let rest ← Raising.resumeM (smoothed period) previous (values.drop (seedEnd + 1))
        return undefinedSeries seedEnd ++ some previous :: rest

/-- Population standard deviation. -/
def populationStdev (window : List Decimal) : Dividing Decimal := do
  let count : Decimal := window.length
  let mean ← divide window.sum count
  let variance ← divide (window.map fun value => (value - mean) ^ 2).sum count
  return if 0 < variance then IndicatorLibrary.sqrt variance else 0

variable {values : Series} {period : Nat}

theorem cast_ne_zero (h : 1 ≤ period) : (period : Decimal) ≠ 0 := by exact_mod_cast (by omega : period ≠ 0)

theorem sma_ok (h : 1 ≤ period) : sma values period = .ok (IndicatorLibrary.sma values period) := by
  refine Raising.mapM_ok fun index _ => ?_
  split
  · rfl
  · cases total (slice values (index + 1 - period) (index + 1)) with
    | none => rfl
    | some sum =>
        dsimp only
        rw [divide_ok (cast_ne_zero h)]
        rfl

theorem ema_ok (h : 1 ≤ period) : ema values period = .ok (Indicators.ema values period) := by
  have hnext : (period + 1 : Decimal) ≠ 0 := by exact_mod_cast period.succ_ne_zero
  rw [ema, divide_ok hnext, Indicators.ema]
  dsimp only [bind, Except.bind]
  cases seedEnd period 0 0 values with
  | none => rfl
  | some seedEnd =>
      dsimp only
      rw [divide_ok (cast_ne_zero h)]
      rfl

theorem smoothed_ok (h : 1 ≤ period) (previous : Decimal) (value : Option Decimal) :
    smoothed period previous value =
      .ok (value.map fun value => (previous * ((period : Decimal) - 1) + value) / (period : Decimal)) := by
  cases value with
  | none => rfl
  | some value =>
      rw [smoothed, divide_ok (cast_ne_zero h)]
      rfl

theorem wilderAverage_ok (h : 1 ≤ period) (start : Nat) :
    wilderAverage values period start = .ok (Indicators.wilderAverage values period start) := by
  rw [wilderAverage, Indicators.wilderAverage]
  dsimp only
  split
  · rfl
  · cases total (slice values start (start + period - 1 + 1)) with
    | none => rfl
    | some sum =>
        dsimp only
        rw [divide_ok (cast_ne_zero h)]
        change (Raising.resumeM (smoothed period) _ _).bind _ = _
        rw [Raising.resumeM_ok (smoothed_ok h)]
        rfl

theorem populationStdev_ok {window : List Decimal} (h : window ≠ []) :
    populationStdev window = .ok (IndicatorLibrary.populationStdev window) := by
  have hcount : (window.length : Decimal) ≠ 0 := by exact_mod_cast mt List.length_eq_zero_iff.mp h
  rw [populationStdev, divide_ok hcount]
  change (divide _ _).bind _ = _
  rw [divide_ok hcount]
  rfl

end Averages

section Library

def typicalPrices (candles : List Candle) : Dividing (List Decimal) :=
  candles.mapM fun c => divide (c.high + c.low + c.close) (3 : Decimal)

def smaIndicator (candles : List Candle) (period : Nat) : Dividing Series := sma ((closes candles).map some) period

def emaIndicator (candles : List Candle) (period : Nat) : Dividing Series := ema ((closes candles).map some) period

def relativeStrength (gain loss : Option Decimal) : Dividing (Option Decimal) :=
  match gain, loss with
  | some gain, some loss =>
      if loss = 0 then pure (some (if 0 < gain then 100 else 50))
      else if gain = 0 then pure (some 0)
      else do
        let ratio ← divide gain loss
        let fraction ← divide (100 : Decimal) (1 + ratio)
        return some (100 - fraction)
  | _, _ => pure none

/-- Relative Strength Index. -/
def rsi (candles : List Candle) (period : Nat) : Dividing Series := do
  let price := closes candles
  let avgGain ← wilderAverage (gains price) period 1
  let avgLoss ← wilderAverage (losses price) period 1
  Raising.zipWithM relativeStrength avgGain avgLoss

/-- Moving Average Convergence Divergence. -/
def macd (candles : List Candle) (fast slow signal : Nat) : Dividing Macd := do
  let price := (closes candles).map some
  let fastEma ← ema price fast
  let slowEma ← ema price slow
  let macdLine := List.zipWith difference fastEma slowEma
  let signalLine ← ema macdLine signal
  return { macd := macdLine, signal := signalLine, histogram := List.zipWith difference macdLine signalLine }

/-- The position of a close in its window. -/
def position (windowHigh windowLow close : Option Decimal) : Dividing (Option Decimal) :=
  match windowHigh, windowLow, close with
  | some windowHigh, some windowLow, some close =>
      if windowHigh - windowLow = 0 then pure none
      else return some ((← divide (close - windowLow) (windowHigh - windowLow)) * 100)
  | _, _, _ => pure none

/-- Slow Stochastic Oscillator. -/
def stochastic (candles : List Candle) (period smoothK periodD : Nat) : Dividing IndicatorLibrary.Stochastic := do
  let rawK ← (List.range candles.length).mapM fun index =>
    position (IndicatorLibrary.highest (IndicatorLibrary.highs candles) index period)
      (IndicatorLibrary.lowest (IndicatorLibrary.lows candles) index period) (closes candles)[index]?
  let kLine ← sma rawK smoothK
  return { k := kLine, d := ← sma kLine periodD }

/-- Rate of Change. -/
def roc (candles : List Candle) (period : Nat) : Dividing Series :=
  (List.range candles.length).mapM fun index =>
    if index < period then pure none
    else
      match (closes candles)[index - period]?, (closes candles)[index]? with
      | some base, some close => if base ≤ 0 then pure none else return some ((← divide (close - base) base) * 100)
      | _, _ => pure none

/-- Commodity Channel Index. -/
def cci (candles : List Candle) (period : Nat) : Dividing Series := do
  let typical ← typicalPrices candles
  let typicalSma ← sma (typical.map some) period
  (List.range candles.length).mapM fun index =>
    match valueAt typicalSma index, typical[index]? with
    | some average, some value => do
        let window := slice typical (index + 1 - period) (index + 1)
        let deviation ← divide (window.map fun value => |value - average|).sum (period : Decimal)
        if deviation = 0 then pure none
        else return some (← divide (value - average) (IndicatorLibrary.cciConstant * deviation))
    | _, _ => pure none

/-- Average True Range. -/
def atr (candles : List Candle) (period : Nat) : Dividing Series := wilderAverage (trueRanges candles) period 1

/-- The middle at an index and how far the bands lie from it. -/
def spreadAt (price : List Decimal) (middle : Series) (period : Nat) (deviations : Decimal) (index : Nat) :
    Dividing (Option (Decimal × Decimal)) :=
  match valueAt middle index with
  | none => pure none
  | some centre =>
      return some (centre, (← populationStdev (slice price (index + 1 - period) (index + 1))) * deviations)

/-- Bollinger Bands. -/
def bollingerBands (candles : List Candle) (period : Nat) (deviations : Decimal) :
    Dividing IndicatorLibrary.BollingerBands := do
  let price := closes candles
  let middle ← sma (price.map some) period
  let spreads ← (List.range candles.length).mapM fun index => spreadAt price middle period deviations index
  return {
    upper := spreads.map (Option.map fun spread => spread.1 + spread.2)
    middle := middle
    lower := spreads.map (Option.map fun spread => spread.1 - spread.2) }

/-- Rolling volume-weighted average price. -/
def vwap (candles : List Candle) (period : Nat) : Dividing Series := do
  let typical ← typicalPrices candles
  let volume := IndicatorLibrary.volumes candles
  (List.range candles.length).mapM fun index =>
    if index + 1 < period then pure none
    else
      let start := index + 1 - period
      let totalVolume := (slice volume start (index + 1)).sum
      if totalVolume ≤ 0 then pure none
      else
        let weighted := (List.zipWith (· * ·) (slice typical start (index + 1)) (slice volume start (index + 1))).sum
        return some (← divide weighted totalVolume)

/-- A directional indicator of the smoothed movement over the smoothed range. -/
def directional (range movement other : Option Decimal) : Dividing (Option Decimal) :=
  match range, movement, other with
  | some range, some movement, some _ =>
      if range = 0 then pure none else return some ((← divide movement range) * 100)
  | _, _, _ => pure none

def directionalIndex (positive negative : Option Decimal) : Dividing (Option Decimal) :=
  match positive, negative with
  | some positive, some negative =>
      let total := positive + negative
      if total = 0 then pure none else return some ((← divide |positive - negative| total) * 100)
  | _, _ => pure none

/-- Average Directional Index, with +DI and -DI. -/
def adx (candles : List Candle) (period : Nat) : Dividing Adx := do
  let smoothedPlus ← wilderAverage (plusMoves candles) period 1
  let smoothedMinus ← wilderAverage (minusMoves candles) period 1
  let smoothedTr ← wilderAverage (trueRanges candles) period 1
  let plusDi ← Raising.zipWithM (fun range moves => directional range moves.1 moves.2) smoothedTr (smoothedPlus.zip smoothedMinus)
  let minusDi ← Raising.zipWithM (fun range moves => directional range moves.2 moves.1) smoothedTr (smoothedPlus.zip smoothedMinus)
  let dx ← Raising.zipWithM directionalIndex plusDi minusDi
  let adxLine ← match dx.findIdx? Option.isSome with
    | some firstDx => wilderAverage dx period firstDx
    | none => pure (undefinedSeries candles.length)
  return { adx := adxLine, plusDi := plusDi, minusDi := minusDi }

end Library

section Divisors

variable {candles : List Candle} {period : Nat}

theorem typicalPrices_ok (candles : List Candle) :
    typicalPrices candles = .ok (IndicatorLibrary.typicalPrices candles) :=
  Raising.mapM_ok fun _ _ => divide_ok three_ne_zero

theorem smaIndicator_ok (h : 1 ≤ period) :
    smaIndicator candles period = .ok (IndicatorLibrary.smaIndicator candles period) := sma_ok h

theorem emaIndicator_ok (h : 1 ≤ period) :
    emaIndicator candles period = .ok (IndicatorLibrary.emaIndicator candles period) := ema_ok h

/-- Of gains and losses that are not negative the strength is not negative, so one more than it is not zero. -/
theorem relativeStrength_ok {gain loss : Option Decimal} (hgain : ∀ x ∈ gain, 0 ≤ x) (hloss : ∀ x ∈ loss, 0 ≤ x) :
    relativeStrength gain loss = .ok (Indicators.relativeStrength gain loss) := by
  cases gain with
  | none => rfl
  | some gain =>
      cases loss with
      | none => rfl
      | some loss =>
          rw [relativeStrength, Indicators.relativeStrength]
          split
          · rfl
          · split
            · rfl
            · rename_i hlossNe _
              have hratio : 0 ≤ gain / loss := div_nonneg (hgain gain rfl) (hloss loss rfl)
              have hone : 1 + gain / loss ≠ 0 := by linarith
              rw [divide_ok hlossNe]
              change (divide _ _).bind _ = _
              rw [divide_ok hone]
              rfl

theorem rsi_ok (h : 1 ≤ period) : rsi candles period = .ok (Indicators.rsi candles period) := by
  rw [rsi, wilderAverage_ok h]
  change (wilderAverage _ _ _).bind _ = _
  rw [wilderAverage_ok h, rsi_eq]
  refine Raising.zipWithM_ok fun gain hgain loss hloss => relativeStrength_ok ?_ ?_
  · exact every_wilderAverage h (gains_nonneg _) gain hgain
  · exact every_wilderAverage h (losses_nonneg _) loss hloss

theorem macd_ok {fast slow signal : Nat} (hfast : 1 ≤ fast) (hslow : 1 ≤ slow) (hsignal : 1 ≤ signal) :
    macd candles fast slow signal = .ok (Indicators.macd candles fast slow signal) := by
  rw [macd, ema_ok hfast]
  change (ema _ _).bind _ = _
  rw [ema_ok hslow]
  change (ema _ _).bind _ = _
  rw [ema_ok hsignal]
  rfl

theorem position_ok (windowHigh windowLow close : Option Decimal) :
    position windowHigh windowLow close = .ok (do
      let windowHigh ← windowHigh
      let windowLow ← windowLow
      let close ← close
      let span := windowHigh - windowLow
      if span = 0 then none else some ((close - windowLow) / span * 100)) := by
  cases windowHigh with
  | none => rfl
  | some windowHigh =>
      cases windowLow with
      | none => rfl
      | some windowLow =>
          cases close with
          | none => rfl
          | some close =>
              rw [position]
              dsimp only [bind, Option.bind]
              split
              · rfl
              · rw [divide_ok ‹_›]
                rfl

theorem stochastic_ok {smoothK periodD : Nat} (hsmoothK : 1 ≤ smoothK) (hperiodD : 1 ≤ periodD) :
    stochastic candles period smoothK periodD = .ok (IndicatorLibrary.stochastic candles period smoothK periodD) := by
  rw [stochastic, Raising.mapM_ok fun index _ => position_ok _ _ _]
  change (sma _ _).bind _ = _
  rw [sma_ok hsmoothK]
  change (sma _ _).bind _ = _
  rw [sma_ok hperiodD]
  rfl

theorem roc_ok (candles : List Candle) (period : Nat) :
    roc candles period = .ok (IndicatorLibrary.roc candles period) := by
  refine Raising.mapM_ok fun index _ => ?_
  split
  · rfl
  · cases (closes candles)[index - period]? with
    | none => rfl
    | some base =>
        cases (closes candles)[index]? with
        | none => rfl
        | some close =>
            dsimp only [bind, Option.bind]
            split
            · rfl
            · rename_i hbase
              rw [divide_ok (lt_of_not_ge hbase).ne']
              rfl

theorem cci_ok (h : 1 ≤ period) : cci candles period = .ok (IndicatorLibrary.cci candles period) := by
  rw [cci, typicalPrices_ok]
  change (sma _ _).bind _ = _
  rw [sma_ok h]
  refine Raising.mapM_ok fun index _ => ?_
  cases valueAt (IndicatorLibrary.sma ((IndicatorLibrary.typicalPrices candles).map some) period) index with
  | none => rfl
  | some average =>
      cases (IndicatorLibrary.typicalPrices candles)[index]? with
      | none => rfl
      | some value =>
          dsimp only
          rw [divide_ok (cast_ne_zero h)]
          dsimp only [bind, Option.bind, Except.bind]
          split
          · rfl
          · rename_i hdeviation
            have hconstant : IndicatorLibrary.cciConstant ≠ 0 := by norm_num [IndicatorLibrary.cciConstant]
            rw [divide_ok (mul_ne_zero hconstant hdeviation)]
            rfl

theorem atr_ok (h : 1 ≤ period) : atr candles period = .ok (IndicatorLibrary.atr candles period) := wilderAverage_ok h 1

theorem vwap_ok (candles : List Candle) (period : Nat) :
    vwap candles period = .ok (IndicatorLibrary.vwap candles period) := by
  rw [vwap, typicalPrices_ok]
  refine Raising.mapM_ok fun index _ => ?_
  split
  · rfl
  · dsimp only
    split
    · rfl
    · rename_i htotal
      rw [divide_ok (lt_of_not_ge htotal).ne']
      rfl

theorem directional_ok (range movement other : Option Decimal) :
    directional range movement other = .ok (Indicators.directional range movement other) := by
  cases range with
  | none => rfl
  | some range =>
      cases movement with
      | none => rfl
      | some movement =>
          cases other with
          | none => rfl
          | some other =>
              rw [directional, Indicators.directional]
              split
              · rfl
              · rw [divide_ok ‹_›]
                rfl

theorem directionalIndex_ok (positive negative : Option Decimal) :
    directionalIndex positive negative = .ok (Indicators.directionalIndex positive negative) := by
  cases positive with
  | none => rfl
  | some positive =>
      cases negative with
      | none => rfl
      | some negative =>
          rw [directionalIndex, Indicators.directionalIndex]
          split
          · rfl
          · rw [divide_ok ‹_›]
            rfl

theorem adx_of_line (a : Adx) {line : Series} (h : a.adx = line) :
    { adx := line, plusDi := a.plusDi, minusDi := a.minusDi : Adx } = a := by
  subst h
  rfl

theorem adx_ok (h : 1 ≤ period) : adx candles period = .ok (Indicators.adx candles period) := by
  rw [adx, wilderAverage_ok h]
  change (wilderAverage _ _ _).bind _ = _
  rw [wilderAverage_ok h]
  change (wilderAverage _ _ _).bind _ = _
  rw [wilderAverage_ok h]
  change (Raising.zipWithM _ _ _).bind _ = _
  rw [Raising.zipWithM_ok fun range _ moves _ => directional_ok range moves.1 moves.2]
  change (Raising.zipWithM _ _ _).bind _ = _
  rw [Raising.zipWithM_ok fun range _ moves _ => directional_ok range moves.2 moves.1]
  change (Raising.zipWithM _ _ _).bind _ = _
  rw [Raising.zipWithM_ok fun positive _ negative _ => directionalIndex_ok positive negative]
  have hline := adx_eq candles period
  rw [(causal_dx period).length] at hline
  change (Except.ok (dx candles period)).bind _ = _
  dsimp only [bind, Except.bind]
  cases hfirst : (dx candles period).findIdx? Option.isSome with
  | none =>
      rw [hfirst] at hline
      exact congrArg Except.ok (adx_of_line (Indicators.adx candles period) hline)
  | some firstDx =>
      rw [hfirst] at hline
      dsimp only
      rw [wilderAverage_ok h]
      exact congrArg Except.ok (adx_of_line (Indicators.adx candles period) hline)

theorem window_ne_nil {price : List Decimal} {index : Nat} (h : 1 ≤ period) (hindex : index < price.length) :
    slice price (index + 1 - period) (index + 1) ≠ [] := by
  rw [slice, Ne, List.drop_eq_nil_iff, List.length_take]
  omega

theorem bollingerBands_ok (h : 1 ≤ period) (deviations : Decimal) :
    bollingerBands candles period deviations = .ok (IndicatorLibrary.bollingerBands candles period deviations) := by
  have hspreads : (List.range candles.length).mapM (fun index =>
      spreadAt (closes candles) (IndicatorLibrary.sma ((closes candles).map some) period) period deviations index) =
      .ok ((List.range candles.length).map fun index =>
        (valueAt (IndicatorLibrary.sma ((closes candles).map some) period) index).map fun centre =>
          (centre, IndicatorLibrary.populationStdev (slice (closes candles) (index + 1 - period) (index + 1)) *
            deviations)) := by
    refine Raising.mapM_ok fun index hindex => ?_
    have hwindow : slice (closes candles) (index + 1 - period) (index + 1) ≠ [] :=
      window_ne_nil h (by simpa [closes] using hindex)
    rw [spreadAt]
    cases valueAt (IndicatorLibrary.sma ((closes candles).map some) period) index with
    | none => rfl
    | some centre =>
        dsimp only
        rw [populationStdev_ok hwindow]
        rfl
  rw [bollingerBands, sma_ok h]
  change Except.bind (List.mapM _ _) _ = _
  rw [hspreads]
  refine congrArg Except.ok ?_
  rw [IndicatorLibrary.bollingerBands, List.map_map, List.map_map]
  congr 1
  · refine List.map_congr_left fun index _ => ?_
    exact Option.map_map ..
  · refine List.map_congr_left fun index _ => ?_
    exact Option.map_map ..

end Divisors

section Registry

structure DividingSpec where
  key : String
  compute : List Candle → IndicatorParams → Dividing (List (String × Series))

/-- The registry, with the divisions as they are made. -/
def indicators : List DividingSpec :=
  [{ key := "sma"
     compute := fun candles p => return [("sma", ← smaIndicator candles p.smaPeriod)] },
   { key := "ema"
     compute := fun candles p => return [("ema", ← emaIndicator candles p.emaPeriod)] },
   { key := "bollinger"
     compute := fun candles p => do
       let b ← bollingerBands candles p.bbPeriod p.bbDeviations
       return [("upper", b.upper), ("middle", b.middle), ("lower", b.lower)] },
   { key := "vwap"
     compute := fun candles p => return [("vwap", ← vwap candles p.vwapPeriod)] },
   { key := "rsi"
     compute := fun candles p => return [("rsi", ← rsi candles p.rsiPeriod)] },
   { key := "macd"
     compute := fun candles p => do
       let m ← macd candles p.macdFast p.macdSlow p.macdSignal
       return [("macd", m.macd), ("signal", m.signal), ("histogram", m.histogram)] },
   { key := "stochastic"
     compute := fun candles p => do
       let s ← stochastic candles p.stochPeriod p.stochSmoothK p.stochPeriodD
       return [("k", s.k), ("d", s.d)] },
   { key := "atr"
     compute := fun candles p => return [("atr", ← atr candles p.atrPeriod)] },
   { key := "adx"
     compute := fun candles p => do
       let a ← adx candles p.adxPeriod
       return [("adx", a.adx), ("plus_di", a.plusDi), ("minus_di", a.minusDi)] },
   { key := "roc"
     compute := fun candles p => return [("roc", ← roc candles p.rocPeriod)] },
   { key := "cci"
     compute := fun candles p => return [("cci", ← cci candles p.cciPeriod)] }]

/-- What an indicator of the registry computes, it computes with no division by zero. -/
def NoneByZero (spec : IndicatorSpec) (dividing : DividingSpec) : Prop :=
  spec.key = dividing.key ∧ ∀ candles params, dividing.compute candles params = .ok (spec.compute candles params)

theorem noneByZero_of_ok {key : String} {valueKeys : List String} {α : Type}
    {compute : List Candle → IndicatorParams → Dividing α} {value : List Candle → IndicatorParams → α}
    (lines : α → List (String × Series)) (h : ∀ candles params, compute candles params = .ok (value candles params)) :
    NoneByZero ⟨key, valueKeys, fun candles p => lines (value candles p)⟩
      ⟨key, fun candles p => return lines (← compute candles p)⟩ := by
  refine ⟨rfl, fun candles params => ?_⟩
  dsimp only
  rw [h]
  rfl

/-- No indicator of the registry divides by zero. -/
theorem registered_noneByZero : List.Forall₂ NoneByZero IndicatorRegistry.indicators indicators := by
  have hone {n m : Nat} (h : 2 ≤ n ∧ n ≤ m) : 1 ≤ n := le_trans (by decide) h.1
  refine .cons ?_ <| .cons ?_ <| .cons ?_ <| .cons ?_ <| .cons ?_ <| .cons ?_ <| .cons ?_ <| .cons ?_ <| .cons ?_ <|
    .cons ?_ <| .cons ?_ .nil
  · exact noneByZero_of_ok (fun sma => [("sma", sma)]) fun _ params => smaIndicator_ok (hone params.smaPeriod_bounds)
  · exact noneByZero_of_ok (fun ema => [("ema", ema)]) fun _ params => emaIndicator_ok (hone params.emaPeriod_bounds)
  · exact noneByZero_of_ok (fun b : IndicatorLibrary.BollingerBands => [("upper", b.upper), ("middle", b.middle),
      ("lower", b.lower)]) fun _ params => bollingerBands_ok (hone params.bbPeriod_bounds) params.bbDeviations
  · exact noneByZero_of_ok (fun vwap => [("vwap", vwap)]) fun candles params => vwap_ok candles params.vwapPeriod
  · exact noneByZero_of_ok (fun rsi => [("rsi", rsi)]) fun _ params => rsi_ok (hone params.rsiPeriod_bounds)
  · exact noneByZero_of_ok (fun m : Macd => [("macd", m.macd), ("signal", m.signal), ("histogram", m.histogram)])
      fun _ params => macd_ok (hone params.macdFast_bounds) (le_trans (by decide) params.macdSlow_bounds.1)
        (hone params.macdSignal_bounds)
  · exact noneByZero_of_ok (fun s : IndicatorLibrary.Stochastic => [("k", s.k), ("d", s.d)])
      fun _ params => stochastic_ok params.stochSmoothK_bounds.1 params.stochPeriodD_bounds.1
  · exact noneByZero_of_ok (fun atr => [("atr", atr)]) fun _ params => atr_ok (hone params.atrPeriod_bounds)
  · exact noneByZero_of_ok (fun a : Adx => [("adx", a.adx), ("plus_di", a.plusDi), ("minus_di", a.minusDi)])
      fun _ params => adx_ok (hone params.adxPeriod_bounds)
  · exact noneByZero_of_ok (fun roc => [("roc", roc)]) fun candles params => roc_ok candles params.rocPeriod
  · exact noneByZero_of_ok (fun cci => [("cci", cci)]) fun _ params => cci_ok (hone params.cciPeriod_bounds)

end Registry

end Aetheris.IndicatorDivisions
