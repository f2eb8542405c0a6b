import Aetheris.Clock
import Aetheris.Lib.Causal
import Aetheris.Money

namespace Aetheris.Indicators

open Lib Money Clock

/-- A single OHLCV bar that is consistent in itself. -/
structure Candle where
  openTime : Timestamp
  closeTime : Timestamp
  open_ : Decimal
  high : Decimal
  low : Decimal
  close : Decimal
  volume : Decimal
  low_nonneg : 0 ≤ low
  low_le_open : low ≤ open_
  open_le_high : open_ ≤ high
  low_le_close : low ≤ close
  close_le_high : close ≤ high
  volume_nonneg : 0 ≤ volume
  ordered : openTime < closeTime

/-- Index for index with the candles, with nothing where a value is not defined. -/
abbrev Series := List (Option Decimal)

/-- `series[index]`, for an index of the series. -/
def valueAt (series : Series) (index : Nat) : Option Decimal := series[index]?.join

def undefinedSeries (n : Nat) : Series := List.replicate n none

def closes (candles : List Candle) : List Decimal := candles.map Candle.close

/-- `values[start:stop]`. -/
def slice {α : Type} (values : List α) (start stop : Nat) : List α := (values.take stop).drop start

/-- The sum of a window with no gap in it. -/
def total (window : Series) : Option Decimal := (window.mapM id).map List.sum

section Averages

/-- Where the first run of `period` values ends, `index` and `run` of the loop being as they are. -/
def seedEnd (period index run : Nat) : Series → Option Nat
  | [] => none
  | value :: rest =>
      let run := if value.isSome then run + 1 else 0
      if run = period then some index else seedEnd period (index + 1) run rest

/-- The average goes on from the seed; a gap breaks the recursion. -/
def ema (values : Series) (period : Nat) : Series :=
  let multiplier : Decimal := 2 / (period + 1)
  match seedEnd period 0 0 values with
  | none => undefinedSeries values.length
  | some seedEnd =>
      let previous := ((total (slice values (seedEnd + 1 - period) (seedEnd + 1))).getD 0) / period
      undefinedSeries seedEnd ++ some previous ::
        resume (fun previous value => value.map fun value => value * multiplier + previous * (1 - multiplier)) previous
          (values.drop (seedEnd + 1))

/-- Wilder's smoothing, seeded with the mean of the `period` values from `start` on. -/
def wilderAverage (values : Series) (period start : Nat) : Series :=
  let seedEnd := start + period - 1
  if values.length ≤ seedEnd then undefinedSeries values.length
  else
    match total (slice values start (seedEnd + 1)) with
    | none => undefinedSeries values.length
    | some total =>
        let previous := total / period
        undefinedSeries seedEnd ++ some previous ::
          resume (fun previous value => value.map fun value => (previous * (period - 1) + value) / period) previous
            (values.drop (seedEnd + 1))

/-- Wilder's true range. -/
def trueRanges (candles : List Candle) : Series :=
  stepwise (fun previous current =>
    max (current.high - current.low) (max |current.high - previous.close| |current.low - previous.close|)) candles

end Averages

section Library

def relativeStrength (gain loss : Option Decimal) : Option Decimal :=
  match gain, loss with
  | some gain, some loss =>
      if loss = 0 then some (if 0 < gain then 100 else 50)
      else if gain = 0 then some 0
      else some (100 - 100 / (1 + gain / loss))
  | _, _ => none

/-- Relative Strength Index, Wilder's smoothing. -/
def rsi (candles : List Candle) (period : Nat) : Series :=
  let price := closes candles
  let gains := stepwise (fun previous current => if 0 < current - previous then current - previous else 0) price
  let losses := stepwise (fun previous current => if current - previous < 0 then -(current - previous) else 0) price
  List.zipWith relativeStrength (wilderAverage gains period 1) (wilderAverage losses period 1)

def difference (x y : Option Decimal) : Option Decimal :=
  match x, y with
  | some x, some y => some (x - y)
  | _, _ => none

structure Macd where
  macd : Series
  signal : Series
  histogram : Series

/-- Moving Average Convergence Divergence. -/
def macd (candles : List Candle) (fast slow signal : Nat) : Macd :=
  let price := (closes candles).map some
  let macdLine := List.zipWith difference (ema price fast) (ema price slow)
  let signalLine := ema macdLine signal
  { macd := macdLine, signal := signalLine, histogram := List.zipWith difference macdLine signalLine }

/-- A directional indicator of the smoothed movement over the smoothed range. -/
def directional (range movement other : Option Decimal) : Option Decimal :=
  match range, movement, other with
  | some range, some movement, some _ => if range = 0 then none else some (movement / range * 100)
  | _, _, _ => none

def directionalIndex (positive negative : Option Decimal) : Option Decimal :=
  match positive, negative with
  | some positive, some negative =>
      let total := positive + negative
      if total = 0 then none else some (|positive - negative| / total * 100)
  | _, _ => none

structure Adx where
  adx : Series
  plusDi : Series
  minusDi : Series

/-- Average Directional Index, with +DI and -DI. -/
def adx (candles : List Candle) (period : Nat) : Adx :=
  let plusDm := stepwise (fun previous current =>
    let upMove := current.high - previous.high
    let downMove := previous.low - current.low
    if downMove < upMove ∧ 0 < upMove then upMove else 0) candles
  let minusDm := stepwise (fun previous current =>
    let upMove := current.high - previous.high
    let downMove := previous.low - current.low
    if upMove < downMove ∧ 0 < downMove then downMove else 0) candles
  let smoothedPlus := wilderAverage plusDm period 1
  let smoothedMinus := wilderAverage minusDm period 1
  let smoothedTr := wilderAverage (trueRanges candles) period 1
  let plusDi := List.zipWith (fun range moves => directional range moves.1 moves.2) smoothedTr
    (smoothedPlus.zip smoothedMinus)
  let minusDi := List.zipWith (fun range moves => directional range moves.2 moves.1) smoothedTr
    (smoothedPlus.zip smoothedMinus)
  let dx := List.zipWith directionalIndex plusDi minusDi
  let adxLine := match dx.findIdx? Option.isSome with
    | some firstDx => wilderAverage dx period firstDx
    | none => undefinedSeries candles.length
  { adx := adxLine, plusDi := plusDi, minusDi := minusDi }

end Library

end Aetheris.Indicators
