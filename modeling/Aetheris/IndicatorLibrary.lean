import Aetheris.IndicatorCausality
import Mathlib.Data.Int.Log

namespace Aetheris.IndicatorLibrary

open Lib Money Indicators

def highs (candles : List Candle) : List Decimal := candles.map Candle.high

def lows (candles : List Candle) : List Decimal := candles.map Candle.low

def volumes (candles : List Candle) : List Decimal := candles.map Candle.volume

/-- (High + Low + Close) / 3. -/
def typicalPrices (candles : List Candle) : List Decimal := candles.map fun c => (c.high + c.low + c.close) / 3

/-- Simple moving average. A window with a gap in it has none. -/
def sma (values : Series) (period : Nat) : Series :=
  (List.range values.length).map fun index =>
    if index + 1 < period then none
    else (total (slice values (index + 1 - period) (index + 1))).map fun total => total / period

/-- `Decimal.sqrt`: the root to 28 digits, half even. -/
def sqrt (x : Decimal) : Decimal :=
  let scale : Int := 27 - Int.log 10 x / 2
  let square := x * 10 ^ (2 * scale)
  let root := Nat.sqrt ⌊square⌋₊
  let rest := square - root ^ 2
  let digits := if root + 1 / 4 < rest ∨ rest = root + 1 / 4 ∧ root % 2 = 1 then root + 1 else root
  digits / 10 ^ scale

/-- Population standard deviation: divided by the size of the window. -/
def populationStdev (window : List Decimal) : Decimal :=
  let count : Decimal := window.length
  let mean := window.sum / count
  let variance := (window.map fun value => (value - mean) ^ 2).sum / count
  if 0 < variance then sqrt variance else 0

/-- Highest value in the `period` bars ending at `index`. -/
def highest (values : List Decimal) (index period : Nat) : Option Decimal :=
  if index + 1 < period then none else (slice values (index + 1 - period) (index + 1)).max?

def lowest (values : List Decimal) (index period : Nat) : Option Decimal :=
  if index + 1 < period then none else (slice values (index + 1 - period) (index + 1)).min?

def smaIndicator (candles : List Candle) (period : Nat) : Series := sma ((closes candles).map some) period

def emaIndicator (candles : List Candle) (period : Nat) : Series := ema ((closes candles).map some) period

structure Stochastic where
  k : Series
  d : Series

/-- Slow Stochastic Oscillator. Where the window's high is its low there is no position in it. -/
def stochastic (candles : List Candle) (period smoothK periodD : Nat) : Stochastic :=
  let rawK := (List.range candles.length).map fun index => do
    let windowHigh ← highest (highs candles) index period
    let windowLow ← lowest (lows candles) index period
    let close ← (closes candles)[index]?
    let span := windowHigh - windowLow
    if span = 0 then none else some ((close - windowLow) / span * 100)
  let kLine := sma rawK smoothK
  { k := kLine, d := sma kLine periodD }

/-- Rate of Change, as a percentage. -/
def roc (candles : List Candle) (period : Nat) : Series :=
  let price := closes candles
  (List.range candles.length).map fun index =>
    if index < period then none
    else do
      let base ← price[index - period]?
      let close ← price[index]?
      if base ≤ 0 then none else some ((close - base) / base * 100)

/-- Lambert's constant. -/
def cciConstant : Decimal := 15 / 1000

/-- Commodity Channel Index. -/
def cci (candles : List Candle) (period : Nat) : Series :=
  let typical := typicalPrices candles
  let typicalSma := sma (typical.map some) period
  (List.range candles.length).map fun index => do
    let average ← valueAt typicalSma index
    let value ← typical[index]?
    let window := slice typical (index + 1 - period) (index + 1)
    let deviation := (window.map fun value => |value - average|).sum / period
    if deviation = 0 then none else some ((value - average) / (cciConstant * deviation))

/-- Average True Range, Wilder's smoothing. -/
def atr (candles : List Candle) (period : Nat) : Series := wilderAverage (trueRanges candles) period 1

structure BollingerBands where
  upper : Series
  middle : Series
  lower : Series

/-- Bollinger Bands, `deviations` population standard deviations from the middle. -/
def bollingerBands (candles : List Candle) (period : Nat) (deviations : Decimal) : BollingerBands :=
  let price := closes candles
  let middle := sma (price.map some) period
  let band (edge : Decimal → Decimal → Decimal) : Series := (List.range candles.length).map fun index =>
    (valueAt middle index).map fun centre =>
      let spread := populationStdev (slice price (index + 1 - period) (index + 1)) * deviations
      edge centre spread
  { upper := band (· + ·), middle := middle, lower := band (· - ·) }

/-- Rolling volume-weighted average price. Where nothing was traded there is none. -/
def vwap (candles : List Candle) (period : Nat) : Series :=
  let typical := typicalPrices candles
  let volume := volumes candles
  (List.range candles.length).map fun index =>
    if index + 1 < period then none
    else
      let start := index + 1 - period
      let totalVolume := (slice volume start (index + 1)).sum
      if totalVolume ≤ 0 then none
      else
        let weighted := (List.zipWith (· * ·) (slice typical start (index + 1)) (slice volume start (index + 1))).sum
        some (weighted / totalVolume)

section Causality

/-- A series that is read off at each index, from nothing behind it. -/
theorem causal_read {α β : Type} {f : List α → List β} (read : List α → Nat → β)
    (hf : ∀ xs, f xs = (List.range xs.length).map (read xs))
    (hread : ∀ xs n i, i < n → i < xs.length → read (xs.take n) i = read xs i) : Causal f where
  length xs := by rw [hf, List.length_map, List.length_range]
  take xs n := by
    rw [hf, hf, ← List.map_take, List.take_range, List.length_take]
    refine List.map_congr_left fun i hi => ?_
    have hlt := List.mem_range.mp hi
    exact hread xs n i (hlt.trans_le (Nat.min_le_left _ _)) (hlt.trans_le (Nat.min_le_right _ _))

variable {α : Type} {f : List Candle → List α} {n i : Nat}

/-- The window that ends at an index is of the inputs up to it. -/
theorem slice_of_take (hf : Causal f) (candles : List Candle) (hi : i < n) (start : Nat) :
    slice (f (candles.take n)) start (i + 1) = slice (f candles) start (i + 1) := by
  rw [hf.take, slice_take hi]

theorem causal_highs : Causal highs := .map _

theorem causal_lows : Causal lows := .map _

theorem causal_volumes : Causal volumes := .map _

theorem causal_typicalPrices : Causal typicalPrices := .map _

theorem causal_sma (period : Nat) : Causal fun values => sma values period := by
  refine causal_read (fun values index => if index + 1 < period then none
    else (total (slice values (index + 1 - period) (index + 1))).map fun total => total / period) (fun _ => rfl) ?_
  intro values n i hi _
  rw [slice_take hi]

theorem causal_smaOf {g : List Candle → List Decimal} (hg : Causal g) (period : Nat) :
    Causal fun candles => sma ((g candles).map some) period :=
  (causal_sma period).comp ((Causal.map some).comp hg)

theorem causal_smaIndicator (period : Nat) : Causal fun candles => smaIndicator candles period :=
  causal_smaOf causal_closes period

theorem causal_emaIndicator (period : Nat) : Causal fun candles => emaIndicator candles period :=
  causal_emaOfCloses period

theorem highest_of_take {g : List Candle → List Decimal} (hg : Causal g) (candles : List Candle) (hi : i < n)
    (period : Nat) : highest (g (candles.take n)) i period = highest (g candles) i period := by
  rw [highest, slice_of_take hg candles hi, highest]

theorem lowest_of_take {g : List Candle → List Decimal} (hg : Causal g) (candles : List Candle) (hi : i < n)
    (period : Nat) : lowest (g (candles.take n)) i period = lowest (g candles) i period := by
  rw [lowest, slice_of_take hg candles hi, lowest]

theorem causal_kLine (period smoothK periodD : Nat) :
    Causal fun candles => (stochastic candles period smoothK periodD).k := by
  refine (causal_sma smoothK).comp (causal_read _ (fun _ => rfl) ?_)
  intro candles n i hi _
  dsimp only
  rw [highest_of_take causal_highs candles hi, lowest_of_take causal_lows candles hi,
    causal_closes.getElem?_take candles hi]

theorem causal_dLine (period smoothK periodD : Nat) :
    Causal fun candles => (stochastic candles period smoothK periodD).d :=
  (causal_sma periodD).comp (causal_kLine period smoothK periodD)

theorem causal_roc (period : Nat) : Causal fun candles => roc candles period := by
  refine causal_read _ (fun _ => rfl) ?_
  intro candles n i hi _
  have hbase : i - period < n := (Nat.sub_le i period).trans_lt hi
  rw [causal_closes.getElem?_take candles hi, causal_closes.getElem?_take candles hbase]

theorem causal_cci (period : Nat) : Causal fun candles => cci candles period := by
  refine causal_read _ (fun _ => rfl) ?_
  intro candles n i hi _
  dsimp only
  rw [valueAt_take (causal_smaOf causal_typicalPrices period) candles hi,
    causal_typicalPrices.getElem?_take candles hi, slice_of_take causal_typicalPrices candles hi]

theorem causal_atr (period : Nat) : Causal fun candles => atr candles period :=
  (causal_wilderAverage period 1).comp causal_trueRanges

theorem causal_middle (period : Nat) (deviations : Decimal) :
    Causal fun candles => (bollingerBands candles period deviations).middle :=
  causal_smaOf causal_closes period

/-- Either band is read off the middle and the closes of the window. -/
theorem causal_band (period : Nat) (deviations : Decimal) (edge : Decimal → Decimal → Decimal) : Causal fun candles =>
    (List.range candles.length).map fun index =>
      (valueAt (sma ((closes candles).map some) period) index).map fun centre =>
        edge centre (populationStdev (slice (closes candles) (index + 1 - period) (index + 1)) * deviations) := by
  refine causal_read _ (fun _ => rfl) ?_
  intro candles n i hi _
  rw [valueAt_take (causal_smaOf causal_closes period) candles hi, slice_of_take causal_closes candles hi]

theorem causal_upper (period : Nat) (deviations : Decimal) :
    Causal fun candles => (bollingerBands candles period deviations).upper := causal_band period deviations (· + ·)

theorem causal_lower (period : Nat) (deviations : Decimal) :
    Causal fun candles => (bollingerBands candles period deviations).lower := causal_band period deviations (· - ·)

theorem causal_vwap (period : Nat) : Causal fun candles => vwap candles period := by
  refine causal_read _ (fun _ => rfl) ?_
  intro candles n i hi _
  dsimp only
  rw [slice_of_take causal_typicalPrices candles hi, slice_of_take causal_volumes candles hi]

end Causality

end Aetheris.IndicatorLibrary
