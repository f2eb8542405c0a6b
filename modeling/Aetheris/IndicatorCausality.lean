import Aetheris.Indicators

namespace Aetheris.Indicators

open Lib Money

section Windows

variable {α : Type} {values : List α} {start stop n : Nat}

theorem slice_take (h : stop ≤ n) : slice (values.take n) start stop = slice values start stop := by
  rw [slice, slice, List.take_take, Nat.min_eq_left h]

theorem causal_closes : Causal closes := .map _

theorem valueAt_take {f : List Candle → Series} (hf : Causal f) (candles : List Candle) {i : Nat} (hi : i < n) :
    valueAt (f (candles.take n)) i = valueAt (f candles) i :=
  congrArg Option.join (hf.getElem?_take candles hi)

end Windows

section Seeds

variable {period index run : Nat}

theorem seedEnd_mem {values : Series} :
    ∀ k ∈ seedEnd period index run values, index ≤ k ∧ k < index + values.length := by
  induction values generalizing index run with
  | nil => exact fun k hk => nomatch hk
  | cons value rest ih =>
      intro k hk
      rw [List.length_cons]
      rw [seedEnd] at hk
      generalize (if value.isSome then run + 1 else 0) = next at hk
      split at hk
      · obtain rfl := Option.some.inj hk
        omega
      · have hlater := ih k hk
        omega

variable (index run) in
theorem seedEnd_take (values : Series) (n : Nat) :
    seedEnd period index run (values.take n) = (seedEnd period index run values).filter (· < index + n) := by
  induction values generalizing index run n with
  | nil => simp [seedEnd]
  | cons value rest ih =>
      cases n with
      | zero =>
          rw [List.take_zero, seedEnd]
          cases hk : seedEnd period index run (value :: rest) with
          | none => rfl
          | some k => rw [Option.filter_some_neg (by simpa using (seedEnd_mem k hk).1)]
      | succ n =>
          rw [List.take_succ_cons, seedEnd, seedEnd]
          generalize (if value.isSome then run + 1 else 0) = next
          split
          · rw [Option.filter_some_pos (by simp)]
          · rw [ih, Nat.add_right_comm index 1 n, Nat.add_assoc]

theorem causal_ema (period : Nat) : Causal fun values => ema values period := by
  refine causal_seeded (seedEnd period 0 0)
    (fun k values => ((total (slice values (k + 1 - period) (k + 1))).getD 0) / period)
    (fun previous value => value.map fun value =>
      value * (2 / ((period : Decimal) + 1)) + previous * (1 - 2 / ((period : Decimal) + 1))) (fun values => rfl) ?_ ?_ ?_
  · intro values k hk
    simpa using (seedEnd_mem k hk).2
  · intro values n
    simpa using seedEnd_take 0 0 values n
  · intro values n k hk hlt
    rw [slice_take hlt]

/-- Where Wilder's average starts, if it does. -/
def wilderSeed (period start : Nat) (values : Series) : Option Nat :=
  let seedEnd := start + period - 1
  if values.length ≤ seedEnd then none else (total (slice values start (seedEnd + 1))).map fun _ => seedEnd

def wilderMean (period start : Nat) (k : Nat) (values : Series) : Decimal :=
  ((total (slice values start (k + 1))).getD 0) / period

theorem wilderAverage_eq (values : Series) (period start : Nat) :
    wilderAverage values period start = match wilderSeed period start values with
      | none => List.replicate values.length none
      | some k => List.replicate k none ++ some (wilderMean period start k values) ::
          resume (fun previous value => value.map fun value => (previous * ((period : Decimal) - 1) + value) / period)
            (wilderMean period start k values) (values.drop (k + 1)) := by
  rw [wilderAverage, wilderSeed]
  dsimp only
  split
  · rfl
  · cases htotal : total (slice values start (start + period - 1 + 1)) with
    | none => rfl
    | some sum =>
        rw [Option.map_some]
        dsimp only [wilderMean]
        rw [htotal]
        rfl

theorem wilderSeed_mem {start : Nat} {values : Series} :
    ∀ k ∈ wilderSeed period start values, k = start + period - 1 ∧ k < values.length := by
  intro k hk
  rw [wilderSeed] at hk
  split at hk
  · cases hk
  · obtain ⟨_, _, rfl⟩ := Option.mem_map.mp hk
    omega

theorem wilderSeed_take (start : Nat) (values : Series) (n : Nat) :
    wilderSeed period start (values.take n) = (wilderSeed period start values).filter (· < n) := by
  rw [wilderSeed, wilderSeed, List.length_take]
  by_cases hlong : values.length ≤ start + period - 1
  · rw [if_pos hlong, if_pos (by omega)]
    rfl
  · rw [if_neg hlong]
    by_cases hn : start + period - 1 < n
    · rw [if_neg (by omega), slice_take hn]
      cases total (slice values start (start + period - 1 + 1)) with
      | none => rfl
      | some sum => rw [Option.map_some, Option.filter_some_pos (by simpa using hn)]
    · rw [if_pos (by omega)]
      cases total (slice values start (start + period - 1 + 1)) with
      | none => rfl
      | some sum => rw [Option.map_some, Option.filter_some_neg (by simpa using hn)]

theorem causal_wilderAverage (period start : Nat) : Causal fun values => wilderAverage values period start := by
  refine causal_seeded _ _ _ (fun values => wilderAverage_eq values period start) (fun values k hk => (wilderSeed_mem k hk).2)
    (wilderSeed_take start) fun values n k hk hlt => ?_
  rw [wilderMean, slice_take hlt, wilderMean]

end Seeds

section Library

theorem findIdx?_take {α : Type} (p : α → Bool) (xs : List α) (n : Nat) :
    (xs.take n).findIdx? p = (xs.findIdx? p).filter (· < n) := by
  induction xs generalizing n with
  | nil => simp
  | cons x xs ih =>
      cases n with
      | zero => cases List.findIdx? p (x :: xs) <;> rfl
      | succ n =>
          rw [List.take_succ_cons, List.findIdx?_cons, List.findIdx?_cons]
          split
          · rfl
          · rw [ih]
            cases xs.findIdx? p with
            | none => rfl
            | some k => simp [Option.filter]

/-- Where the index has its first value is where its average starts from. -/
theorem causal_adxLine {period : Nat} (hperiod : 1 ≤ period) : Causal fun dx : Series =>
    match dx.findIdx? Option.isSome with
      | some firstDx => wilderAverage dx period firstDx
      | none => undefinedSeries dx.length where
  length dx := by
    split
    · exact (causal_wilderAverage period _).length dx
    · exact List.length_replicate
  take dx n := by
    rw [findIdx?_take]
    cases hfirst : dx.findIdx? Option.isSome with
    | none =>
        dsimp only [Option.filter_none]
        rw [undefinedSeries, undefinedSeries, List.length_take, List.take_replicate]
    | some first =>
        by_cases hn : first < n
        · rw [Option.filter_some_pos (by simpa using hn)]
          exact (causal_wilderAverage period first).take dx n
        · rw [Option.filter_some_neg (by simpa using hn)]
          dsimp only
          have hshort : (dx.take n).length ≤ first + period - 1 := by
            rw [List.length_take]
            omega
          rw [← (causal_wilderAverage period first).take, wilderAverage, if_pos hshort]

theorem causal_rsi (period : Nat) : Causal fun candles => rsi candles period := by
  have hmoves (h : Decimal → Decimal → Decimal) :
      Causal fun candles => wilderAverage (stepwise h (closes candles)) period 1 :=
    (causal_wilderAverage period 1).comp ((causal_stepwise h).comp causal_closes)
  exact (hmoves _).zipWith relativeStrength (hmoves _)

theorem causal_emaOfCloses (period : Nat) : Causal fun candles => ema ((closes candles).map some) period :=
  (causal_ema period).comp ((Causal.map some).comp causal_closes)

theorem causal_macdLine (fast slow signal : Nat) : Causal fun candles => (macd candles fast slow signal).macd :=
  (causal_emaOfCloses fast).zipWith difference (causal_emaOfCloses slow)

theorem causal_signalLine (fast slow signal : Nat) : Causal fun candles => (macd candles fast slow signal).signal :=
  (causal_ema signal).comp (causal_macdLine fast slow signal)

theorem causal_histogram (fast slow signal : Nat) : Causal fun candles => (macd candles fast slow signal).histogram :=
  (causal_macdLine fast slow signal).zipWith difference (causal_signalLine fast slow signal)

theorem causal_smoothed (h : Candle → Candle → Decimal) (period : Nat) :
    Causal fun candles => wilderAverage (stepwise h candles) period 1 :=
  (causal_wilderAverage period 1).comp (causal_stepwise h)

theorem causal_trueRanges : Causal trueRanges := causal_stepwise _

theorem causal_plusDi (period : Nat) : Causal fun candles => (adx candles period).plusDi :=
  ((causal_wilderAverage period 1).comp causal_trueRanges).zipWith _
    ((causal_smoothed _ period).zipWith Prod.mk (causal_smoothed _ period))

theorem causal_minusDi (period : Nat) : Causal fun candles => (adx candles period).minusDi :=
  ((causal_wilderAverage period 1).comp causal_trueRanges).zipWith _
    ((causal_smoothed _ period).zipWith Prod.mk (causal_smoothed _ period))

/-- The directional index, which the average is taken of. -/
def dx (candles : List Candle) (period : Nat) : Series :=
  List.zipWith directionalIndex (adx candles period).plusDi (adx candles period).minusDi

theorem causal_dx (period : Nat) : Causal fun candles => dx candles period :=
  (causal_plusDi period).zipWith directionalIndex (causal_minusDi period)

theorem adx_eq (candles : List Candle) (period : Nat) :
    (adx candles period).adx = match (dx candles period).findIdx? Option.isSome with
      | some firstDx => wilderAverage (dx candles period) period firstDx
      | none => undefinedSeries (dx candles period).length := by
  rw [(causal_dx period).length]
  rfl

theorem causal_adx {period : Nat} (hperiod : 1 ≤ period) : Causal fun candles => (adx candles period).adx := by
  have hline := (causal_adxLine hperiod).comp (causal_dx period)
  simpa only [← adx_eq] using hline

end Library

end Aetheris.Indicators
