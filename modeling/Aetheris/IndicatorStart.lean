import Aetheris.IndicatorRanges
import Aetheris.LastBar
import Aetheris.IndicatorRegistry
import Aetheris.BiasSeries

namespace Aetheris.IndicatorStart

open Lib Money Indicators

section Starts

variable {i k m n period : Nat} {values xs ys : Series}

/-- A series is defined from an index on, and not before it. -/
def From (k : Nat) (series : Series) : Prop := ∀ i, (valueAt series i).isSome ↔ k ≤ i ∧ i < series.length

theorem lt_of_isSome (h : (valueAt values i).isSome) : i < values.length := by
  by_contra hi
  rw [valueAt, List.getElem?_eq_none (Nat.le_of_not_lt hi)] at h
  cases h

theorem from_undefined (h : n ≤ k) : From k (List.replicate n none) := by
  intro i
  rw [valueAt_undefined, List.length_replicate]
  constructor
  · intro hi
    cases hi
  · omega

/-- After values that are undefined, values that are all defined. -/
theorem from_append (hdefined : ∀ x ∈ xs, x.isSome) : From k (List.replicate k none ++ xs) := by
  intro i
  by_cases hi : i < k
  · have hbefore : valueAt (List.replicate k none ++ xs) i = valueAt (List.replicate k none) i := by
      rw [valueAt, List.getElem?_append_left (by simpa using hi), valueAt]
    rw [hbefore, valueAt_undefined]
    constructor
    · intro h
      cases h
    · omega
  · have hafter : valueAt (List.replicate k none ++ xs) i = valueAt xs (i - k) := by
      rw [valueAt, List.getElem?_append_right (by simpa using hi), List.length_replicate, valueAt]
    rw [hafter, List.length_append, List.length_replicate]
    constructor
    · intro h
      have hlt := lt_of_isSome h
      omega
    · rintro ⟨-, hlt⟩
      have hindex : i - k < xs.length := by omega
      have hmem := hdefined _ (List.getElem_mem hindex)
      rwa [valueAt, List.getElem?_eq_getElem hindex]

theorem from_map_some (prices : List Decimal) : From 0 (prices.map some) := by
  refine from_append (k := 0) fun x hx => ?_
  obtain ⟨price, -, rfl⟩ := List.mem_map.mp hx
  rfl

/-- What two successive inputs give is defined from the second on. -/
theorem from_stepwise {α : Type} (f : α → α → Decimal) (inputs : List α) : From 1 (stepwise f inputs) := by
  have hscan (previous : α) (rest : List α) :
      ∀ x ∈ scan (fun previous x => (some x, previous.map fun y => f y x)) (some previous) rest, x.isSome := by
    induction rest generalizing previous with
    | nil => exact fun x hx => absurd hx List.not_mem_nil
    | cons next rest ih =>
        intro x hx
        rcases List.mem_cons.mp hx with rfl | hx
        · rfl
        · exact ih next x hx
  cases inputs with
  | nil => exact from_undefined (Nat.zero_le 1)
  | cons first rest => exact from_append (k := 1) (hscan first rest)

theorem From.isSome_of_mem_drop (h : From m values) (hm : m ≤ n) : ∀ x ∈ values.drop n, x.isSome := by
  intro x hx
  obtain ⟨i, hi, rfl⟩ := List.mem_drop_iff_getElem.mp hx
  have hdefined := (h (n + i)).mpr ⟨by omega, by omega⟩
  rwa [valueAt, List.getElem?_eq_getElem (by omega)] at hdefined

theorem From.tail {value : Option Decimal} (h : From (m + 1) (value :: values)) : From m values := by
  intro i
  have hnext := h (i + 1)
  rw [List.length_cons] at hnext
  have hread : valueAt (value :: values) (i + 1) = valueAt values i := rfl
  rw [hread] at hnext
  rw [hnext]
  omega

/-- Two series that are taken together are defined from where the later one is. -/
theorem From.zipWith {g : Option Decimal → Option Decimal → Option Decimal} {a b : Nat}
    (hg : ∀ x y, (g x y).isSome = (x.isSome && y.isSome)) (hxs : From a xs) (hys : From b ys)
    (hlength : xs.length = ys.length) : From (max a b) (List.zipWith g xs ys) := by
  intro i
  rw [List.length_zipWith, ← hlength, Nat.min_self]
  by_cases hi : i < xs.length
  · rw [valueAt_zipWith hi (hlength ▸ hi), hg, Bool.and_eq_true, hxs i, hys i, ← hlength]
    omega
  · constructor
    · intro h
      have hlt := lt_of_isSome h
      rw [List.length_zipWith, ← hlength, Nat.min_self] at hlt
      exact absurd hlt hi
    · exact fun h => absurd h.2 hi

theorem isSome_resume {f : Decimal → Decimal → Decimal} (hdefined : ∀ x ∈ values, x.isSome) (previous : Decimal) :
    ∀ x ∈ resume (fun previous value => value.map (f previous)) previous values, x.isSome := by
  induction values generalizing previous with
  | nil => exact fun x hx => absurd hx List.not_mem_nil
  | cons value values ih =>
      obtain ⟨v, rfl⟩ := Option.isSome_iff_exists.mp (hdefined value List.mem_cons_self)
      intro x hx
      rcases List.mem_cons.mp hx with rfl | hx
      · rfl
      · exact ih (fun y hy => hdefined y (List.mem_cons_of_mem _ hy)) _ x hx

/-- A series that goes on from a seed over values that are all defined. -/
theorem from_seeded {f : Decimal → Decimal → Decimal} (hdefined : ∀ x ∈ values, x.isSome) (k : Nat) (seed : Decimal) :
    From k (undefinedSeries k ++ some seed ::
      resume (fun previous value => value.map (f previous)) seed values) := by
  refine from_append fun x hx => ?_
  rcases List.mem_cons.mp hx with rfl | hx
  · rfl
  · exact isSome_resume hdefined seed x hx

end Starts

section Averages

variable {index k m period run start : Nat} {values : Series}

/-- A run of values that are all defined ends when it is long enough. -/
theorem seedEnd_of_defined (hdefined : ∀ x ∈ values, x.isSome) (hrun : run < period)
    (hlong : period ≤ run + values.length) : seedEnd period index run values = some (index + (period - run) - 1) := by
  induction values generalizing index run with
  | nil =>
      rw [List.length_nil] at hlong
      omega
  | cons value values ih =>
      rw [seedEnd, hdefined value List.mem_cons_self, if_pos rfl]
      split
      · exact congrArg some (by omega)
      · rw [List.length_cons] at hlong
        rw [ih (fun x hx => hdefined x (List.mem_cons_of_mem _ hx)) (by omega) (by omega)]
        exact congrArg some (by omega)

theorem seedEnd_of_from (hperiod : 1 ≤ period) (h : From m values) (hlong : m + period ≤ values.length) :
    seedEnd period index 0 values = some (index + m + period - 1) := by
  induction m generalizing index values with
  | zero => exact seedEnd_of_defined (h.isSome_of_mem_drop (n := 0) (le_refl 0)) hperiod (by omega)
  | succ m ih =>
      cases values with
      | nil =>
          rw [List.length_nil] at hlong
          omega
      | cons value values =>
          have hvalue : value.isSome = false := by
            have hfirst := (not_congr (h 0)).mpr (by omega)
            simpa [valueAt] using hfirst
          rw [List.length_cons] at hlong
          rw [seedEnd, hvalue, if_neg Bool.false_ne_true, if_neg (by omega), ih h.tail (by omega)]
          exact congrArg some (by omega)

theorem seedEnd_eq_none (hperiod : 1 ≤ period) (h : From m values) (hshort : values.length < m + period) :
    seedEnd period 0 0 values = none := by
  cases hseed : seedEnd period 0 0 values with
  | none => rfl
  | some k =>
      have hlt := (seedEnd_mem k hseed).2
      have hge := seedEnd_ge_of_startsAt hperiod (fun i hi => ((h i).mp hi).1) k hseed
      omega

/-- An exponential average starts a period after its values. -/
theorem From.ema (hperiod : 1 ≤ period) (h : From m values) : From (m + period - 1) (ema values period) := by
  rw [Indicators.ema]
  dsimp only
  by_cases hlong : m + period ≤ values.length
  · rw [seedEnd_of_from hperiod h hlong, Nat.zero_add]
    exact from_seeded (h.isSome_of_mem_drop (by omega)) _ _
  · rw [seedEnd_eq_none hperiod h (by omega)]
    exact from_undefined (by omega)

theorem total_isSome_of (hdefined : ∀ x ∈ values, x.isSome) : (total values).isSome := by
  rw [total_isSome, List.all_eq_true]
  intro b hb
  obtain ⟨x, hx, rfl⟩ := List.mem_map.mp hb
  exact hdefined x hx

/-- Wilder's average starts a period after its values. -/
theorem From.wilderAverage (hperiod : 1 ≤ period) (h : From start values) :
    From (start + period - 1) (wilderAverage values period start) := by
  rw [Indicators.wilderAverage]
  dsimp only
  split
  · exact from_undefined (by omega)
  · have hwindow : ∀ x ∈ slice values start (start + period - 1 + 1), x.isSome := by
      intro x hx
      rw [slice, List.drop_take] at hx
      exact h.isSome_of_mem_drop (le_refl start) x (List.mem_of_mem_take hx)
    obtain ⟨sum, hsum⟩ := Option.isSome_iff_exists.mp (total_isSome_of hwindow)
    rw [hsum]
    exact from_seeded (f := fun previous value => (previous * ((period : Decimal) - 1) + value) / (period : Decimal))
      (h.isSome_of_mem_drop (by omega)) _ _

/-- A simple average of prices starts a period after them. -/
theorem from_sma (hperiod : 1 ≤ period) (prices : List Decimal) :
    From (period - 1) (IndicatorLibrary.sma (prices.map some) period) := by
  intro i
  have hlength : (IndicatorLibrary.sma (prices.map some) period).length = prices.length := by
    simp [IndicatorLibrary.sma]
  rw [hlength]
  by_cases hi : i < prices.length
  · have hvalue : valueAt (IndicatorLibrary.sma (prices.map some) period) i =
        if i + 1 < period then none
        else (total (slice (prices.map some) (i + 1 - period) (i + 1))).map fun total => total / (period : Decimal) := by
      rw [valueAt, IndicatorLibrary.sma, List.getElem?_map, List.length_map, List.getElem?_range hi]
      rfl
    rw [hvalue, slice_map, total_some]
    split
    · constructor
      · intro h
        cases h
      · omega
    · simp only [Option.map_some, Option.isSome_some, true_iff]
      omega
  · constructor
    · intro h
      exact absurd (hlength ▸ lt_of_isSome h) hi
    · exact fun h => absurd h.2 hi

end Averages

section Library

variable {i k m period : Nat} {values xs ys : Series} {candles : List Candle}

theorem From.of_shape (h : From k ys) (hshape : shape xs = shape ys) : From k xs := by
  intro i
  rw [isSome_of_shape hshape, length_of_shape hshape]
  exact h i

theorem isSome_of_rel {R : Decimal → Decimal → Prop} {x y : Option Decimal} (h : Option.Rel R x y) :
    x.isSome = y.isSome := by
  cases h <;> rfl

theorem shape_of_together {R : Decimal → Decimal → Prop} (h : IndicatorRanges.Together R xs ys) : shape xs = shape ys := by
  induction h with
  | nil => rfl
  | cons hxy _ ih => exact congrArg₂ List.cons (isSome_of_rel hxy) ih

theorem from_bands (hperiod : 1 ≤ period) {deviations : Decimal} (hdeviations : 0 ≤ deviations) (candles : List Candle) :
    From (period - 1) (IndicatorLibrary.bollingerBands candles period deviations).upper ∧
      From (period - 1) (IndicatorLibrary.bollingerBands candles period deviations).middle ∧
      From (period - 1) (IndicatorLibrary.bollingerBands candles period deviations).lower := by
  have hmiddle : From (period - 1) (IndicatorLibrary.bollingerBands candles period deviations).middle :=
    from_sma hperiod (closes candles)
  obtain ⟨hlower, hupper⟩ := IndicatorRanges.together_bands hdeviations candles period
  exact ⟨hmiddle.of_shape (shape_of_together hupper).symm, hmiddle, hmiddle.of_shape (shape_of_together hlower)⟩

theorem from_emaOfCloses (hperiod : 1 ≤ period) (candles : List Candle) :
    From (period - 1) (ema ((closes candles).map some) period) := by
  simpa using (from_map_some (closes candles)).ema hperiod

theorem from_rsi (hperiod : 1 ≤ period) (candles : List Candle) : From period (rsi candles period) := by
  have hgain : From (1 + period - 1) (wilderAverage (gains (closes candles)) period 1) :=
    (from_stepwise _ _).wilderAverage hperiod
  have hloss : From (1 + period - 1) (wilderAverage (losses (closes candles)) period 1) :=
    (from_stepwise _ _).wilderAverage hperiod
  rw [Nat.add_sub_cancel_left] at hgain hloss
  have hrsi := hgain.zipWith relativeStrength_isSome hloss
    (by rw [length_wilderAverage, length_wilderAverage, gains, losses, (causal_stepwise _).length, (causal_stepwise _).length])
  rwa [max_self, ← rsi_eq] at hrsi

theorem from_macd {fast slow signal : Nat} (hfast : 1 ≤ fast) (horder : fast < slow) (hsignal : 1 ≤ signal)
    (candles : List Candle) :
    From (slow - 1) (macd candles fast slow signal).macd ∧
      From (slow + signal - 2) (macd candles fast slow signal).signal ∧
      From (slow + signal - 2) (macd candles fast slow signal).histogram := by
  have hline := (from_emaOfCloses hfast candles).zipWith difference_isSome
    (from_emaOfCloses (hfast.trans horder.le) candles)
    (((causal_emaOfCloses fast).length candles).trans ((causal_emaOfCloses slow).length candles).symm)
  have hstart : max (fast - 1) (slow - 1) = slow - 1 := by omega
  rw [hstart] at hline
  have hline : From (slow - 1) (macd candles fast slow signal).macd := hline
  have hsmoothed : From (slow - 1 + signal - 1) (macd candles fast slow signal).signal := hline.ema hsignal
  have hhistogram := hline.zipWith difference_isSome hsmoothed
    (((causal_macdLine fast slow signal).length candles).trans ((causal_signalLine fast slow signal).length candles).symm)
  have hend : slow - 1 + signal - 1 = slow + signal - 2 := by omega
  have hlater : max (slow - 1) (slow + signal - 2) = slow + signal - 2 := by omega
  rw [hend] at hsmoothed hhistogram
  rw [hlater] at hhistogram
  exact ⟨hline, hsmoothed, hhistogram⟩

theorem from_atr (hperiod : 1 ≤ period) (candles : List Candle) : From period (IndicatorLibrary.atr candles period) := by
  have hranges := (from_stepwise (fun previous current : Candle =>
    max (current.high - current.low) (max |current.high - previous.close| |current.low - previous.close|))
      candles).wilderAverage hperiod
  rwa [Nat.add_sub_cancel_left] at hranges

theorem startsAt_sma (hperiod : 1 ≤ period) (h : StartsAt m values) :
    StartsAt (m + period - 1) (IndicatorLibrary.sma values period) := by
  intro i hi
  obtain ⟨value, hvalue⟩ := Option.isSome_iff_exists.mp hi
  have hread := IndicatorRanges.valueAt_read hvalue
  have hlt : i < values.length := by
    have hlength := lt_of_isSome hi
    rwa [(IndicatorLibrary.causal_sma period).length values] at hlength
  split at hread
  · cases hread
  · obtain ⟨sum, hsum, -⟩ := Option.map_eq_some_iff.mp hread
    have hindex : i + 1 - period < values.length := by omega
    have hfirst : values[i + 1 - period] ∈ slice values (i + 1 - period) (i + 1) := by
      rw [slice, List.mem_drop_iff_getElem]
      exact ⟨0, by rw [List.length_take]; omega, by simp⟩
    have hdefined := defined_of_total hsum _ hfirst
    have hstart := h (i + 1 - period) (by rwa [valueAt, List.getElem?_eq_getElem (by omega)])
    omega

theorem startsAt_d (hperiod : 1 ≤ period) {smoothK periodD : Nat} (hsmoothK : 1 ≤ smoothK) (hperiodD : 1 ≤ periodD)
    (candles : List Candle) :
    StartsAt (period + smoothK + periodD - 3) (IndicatorLibrary.stochastic candles period smoothK periodD).d := by
  intro i hi
  have hraw : StartsAt (period - 1) ((List.range candles.length).map fun index => do
      let windowHigh ← IndicatorLibrary.highest (IndicatorLibrary.highs candles) index period
      let windowLow ← IndicatorLibrary.lowest (IndicatorLibrary.lows candles) index period
      let close ← (closes candles)[index]?
      let span := windowHigh - windowLow
      if span = 0 then none else some ((close - windowLow) / span * 100)) := by
    intro i hi
    obtain ⟨value, hvalue⟩ := Option.isSome_iff_exists.mp hi
    obtain ⟨windowHigh, hhigh, -⟩ := Option.bind_eq_some_iff.mp (IndicatorRanges.valueAt_read hvalue)
    rw [IndicatorLibrary.highest] at hhigh
    split at hhigh
    · cases hhigh
    · omega
  have hstart := startsAt_sma hperiodD (startsAt_sma hsmoothK hraw) i hi
  omega

theorem startsAt_vwap (candles : List Candle) (period : Nat) :
    StartsAt (period - 1) (IndicatorLibrary.vwap candles period) := by
  intro i hi
  obtain ⟨value, hvalue⟩ := Option.isSome_iff_exists.mp hi
  have hread := IndicatorRanges.valueAt_read hvalue
  split at hread
  · cases hread
  · omega

theorem startsAt_roc (candles : List Candle) (period : Nat) : StartsAt period (IndicatorLibrary.roc candles period) := by
  intro i hi
  obtain ⟨value, hvalue⟩ := Option.isSome_iff_exists.mp hi
  have hread := IndicatorRanges.valueAt_read hvalue
  split at hread
  · cases hread
  · omega

theorem startsAt_cci (hperiod : 1 ≤ period) (candles : List Candle) :
    StartsAt (period - 1) (IndicatorLibrary.cci candles period) := by
  intro i hi
  obtain ⟨value, hvalue⟩ := Option.isSome_iff_exists.mp hi
  obtain ⟨average, haverage, -⟩ := Option.bind_eq_some_iff.mp (IndicatorRanges.valueAt_read hvalue)
  exact ((from_sma hperiod (IndicatorLibrary.typicalPrices candles) i).mp (by rw [haverage]; rfl)).1

end Library

section Directional

variable {i j k period : Nat} {values : Series} {candles : List Candle}

theorem From.lasts (h : From k values) (hi : (valueAt values i).isSome) (hij : i ≤ j) (hj : j < values.length) :
    (valueAt values j).isSome :=
  (h j).mpr ⟨((h i).mp hi).1.trans hij, hj⟩

/-- A directional index that is there stays there. -/
theorem dx_lasts (hperiod : 2 ≤ period) (hi : (valueAt (dx candles period) i).isSome) (hij : i ≤ j)
    (hj : j < candles.length) : (valueAt (dx candles period) j).isSome := by
  induction j, hij using Nat.le_induction with
  | base => exact hi
  | succ j _ ih =>
      have hprefix : (valueAt (dx (candles.take (j + 1)) period) j).isSome := by
        rw [valueAt_take (causal_dx period) candles (Nat.lt_succ_self j)]
        exact ih (by omega)
      have hlength : (candles.take (j + 1)).length = j + 1 := by
        rw [List.length_take]
        omega
      have hstep := dx_step hperiod hlength hprefix candles[j + 1]
      rwa [List.take_append_getElem hj, valueAt_take (causal_dx period) candles (Nat.lt_succ_self (j + 1))] at hstep

theorem from_dx (hperiod : 2 ≤ period) {first : Nat} (hfirst : (dx candles period).findIdx? Option.isSome = some first) :
    From first (dx candles period) := by
  obtain ⟨hlt, hdefined, hbefore⟩ := List.findIdx?_eq_some_iff_getElem.mp hfirst
  have hstart : (valueAt (dx candles period) first).isSome := by
    rwa [valueAt, List.getElem?_eq_getElem hlt]
  intro i
  constructor
  · intro hi
    have hlength := lt_of_isSome hi
    refine ⟨?_, hlength⟩
    by_contra hlate
    have hundefined := hbefore i (by omega)
    rw [valueAt, List.getElem?_eq_getElem hlength] at hi
    exact hundefined hi
  · rintro ⟨hle, hi⟩
    exact dx_lasts hperiod hstart hle (by rwa [(causal_dx period).length] at hi)

/-- The average of the index has no gap: it starts a period after the index, or never. -/
theorem adx_lasts (hperiod : 2 ≤ period) (hi : (valueAt (adx candles period).adx i).isSome) (hij : i ≤ j)
    (hj : j < candles.length) : (valueAt (adx candles period).adx j).isSome := by
  rw [adx_eq] at hi ⊢
  cases hfirst : (dx candles period).findIdx? Option.isSome with
  | none =>
      rw [hfirst] at hi
      have hnone : (valueAt (undefinedSeries (dx candles period).length) i).isSome := hi
      rw [undefinedSeries, valueAt_undefined] at hnone
      cases hnone
  | some first =>
      rw [hfirst] at hi
      have haverage := (from_dx hperiod hfirst).wilderAverage (le_trans one_le_two hperiod)
      exact haverage.lasts hi hij (by rwa [length_wilderAverage, (causal_dx period).length])

end Directional

section Registry

open IndicatorLibrary IndicatorRegistry

/-- Bars that each indicator of the registry declares to consume before it produces its first value. -/
def warmups : List (String × (IndicatorParams → Nat)) :=
  [("sma", fun p => p.smaPeriod - 1),
   ("ema", fun p => p.emaPeriod - 1),
   ("bollinger", fun p => p.bbPeriod - 1),
   ("vwap", fun p => p.vwapPeriod - 1),
   ("rsi", fun p => p.rsiPeriod),
   ("macd", fun p => p.macdSlow + p.macdSignal - 2),
   ("stochastic", fun p => p.stochPeriod + p.stochSmoothK + p.stochPeriodD - 3),
   ("atr", fun p => p.atrPeriod),
   ("adx", fun p => 2 * p.adxPeriod - 1),
   ("roc", fun p => p.rocPeriod),
   ("cci", fun p => p.cciPeriod - 1)]

/-- Every line of the indicator has a value at the index. -/
def Complete (spec : IndicatorSpec) (candles : List Candle) (params : IndicatorParams) (i : Nat) : Prop :=
  ∀ line ∈ spec.compute candles params, (valueAt line.2 i).isSome

variable {spec : IndicatorSpec} {candles : List Candle} {params : IndicatorParams} {trend : TrendMomentum.TrendMomentumParams}
  {i j k : Nat}

/-- The figures that the strategy reads are missing as long as the slowest of them is. -/
theorem warmupBars_le (h : (Backtest.figuresAt candles trend i).isSome) : TrendMomentum.warmupBars trend ≤ i := by
  obtain ⟨values, hvalues⟩ := Option.isSome_iff_exists.mp h
  obtain ⟨-, hslow, hadx, hrsi, hhistogram⟩ := Backtest.valueAt_of_figuresAt hvalues
  have hemaSlow : 1 ≤ trend.emaSlow := le_trans (by decide) trend.emaSlow_bounds.1
  have hmacdSlow : 1 ≤ trend.macdSlow := le_trans (by decide) trend.macdSlow_bounds.1
  have hmacdSignal : 1 ≤ trend.macdSignal := le_trans (by decide) trend.macdSignal_bounds.1
  have hslow := startsAt_emaOfCloses hemaSlow candles i (by rw [hslow]; rfl)
  have hadx := startsAt_adx candles trend.adxPeriod i (by rw [hadx]; rfl)
  have hrsi := startsAt_rsi candles trend.rsiPeriod i (by rw [hrsi]; rfl)
  have hhistogram := startsAt_histogram hmacdSlow hmacdSignal candles i (by rw [hhistogram]; rfl)
  rw [TrendMomentum.warmupBars]
  omega

/-- Once the strategy has its figures it has them at every later bar. -/
theorem figuresAt_lasts (h : (Backtest.figuresAt candles trend i).isSome) (hij : i ≤ j) (hj : j < candles.length) :
    (Backtest.figuresAt candles trend j).isSome := by
  obtain ⟨values, hvalues⟩ := Option.isSome_iff_exists.mp h
  obtain ⟨hfast, hslow, hadx, hrsi, hhistogram⟩ := Backtest.valueAt_of_figuresAt hvalues
  have hemaFast : 1 ≤ trend.emaFast := le_trans (by decide) trend.emaFast_bounds.1
  have hemaSlow : 1 ≤ trend.emaSlow := le_trans (by decide) trend.emaSlow_bounds.1
  have hrsiPeriod : 1 ≤ trend.rsiPeriod := le_trans (by decide) trend.rsiPeriod_bounds.1
  have hmacdFast : 1 ≤ trend.macdFast := le_trans (by decide) trend.macdFast_bounds.1
  have hmacdSignal : 1 ≤ trend.macdSignal := le_trans (by decide) trend.macdSignal_bounds.1
  have hadxLasts := adx_lasts trend.adxPeriod_bounds.1 (by rw [hadx]; rfl) hij hj
  have hfastLasts := (from_emaOfCloses hemaFast candles).lasts (by rw [hfast]; rfl) hij
    (by rwa [(causal_emaOfCloses _).length])
  have hslowLasts := (from_emaOfCloses hemaSlow candles).lasts (by rw [hslow]; rfl) hij
    (by rwa [(causal_emaOfCloses _).length])
  have hrsiLasts := (from_rsi hrsiPeriod candles).lasts (by rw [hrsi]; rfl) hij
    (by rwa [(causal_rsi _).length])
  have hmacdLasts := (from_macd hmacdFast trend.macdFast_lt_macdSlow hmacdSignal candles).2.2.lasts
    (by rw [hhistogram]; rfl) hij (by rwa [(causal_histogram _ _ _).length])
  rw [Option.isSome_iff_ne_none]
  exact fun hnone =>
    Backtest.required_eq_none.mp hnone ⟨hfastLasts, hslowLasts, hadxLasts, hrsiLasts, hmacdLasts⟩

/-- The indicators that have all their values at every bar once they are warm. -/
def steady : List String := ["sma", "ema", "bollinger", "rsi", "macd", "atr"]

/-- The indicator is never complete before its warm-up and, if it is a steady one, always complete from there on. -/
structure Exact (spec : IndicatorSpec) (candles : List Candle) (params : IndicatorParams) (warmup : Nat) : Prop where
  before : ∀ i, Complete spec candles params i → warmup ≤ i
  after : spec.key ∈ steady → ∀ i, warmup ≤ i → i < candles.length → Complete spec candles params i

theorem exact_of_from {warmup : Nat} {last : String × Series} (hlast : last ∈ spec.compute candles params)
    (hstart : From warmup last.2) (hlines : ∀ line ∈ spec.compute candles params, ∃ k, k ≤ warmup ∧ From k line.2)
    (hspec : spec ∈ indicators) : Exact spec candles params warmup where
  before i hi := ((hstart i).mp (hi last hlast)).1
  after _ i hwarmup hi line hline := by
    obtain ⟨k, hk, hfrom⟩ := hlines line hline
    have hlength := (registered_aligned params spec hspec).length candles line hline
    exact (hfrom i).mpr ⟨hk.trans hwarmup, hlength ▸ hi⟩

theorem exact_of_startsAt {warmup : Nat} {line : String × Series} (hline : line ∈ spec.compute candles params)
    (hstart : StartsAt warmup line.2) (hkey : spec.key ∉ steady) : Exact spec candles params warmup where
  before i hi := hstart i (hi line hline)
  after h := absurd h hkey

variable (candles params)

theorem exact_warmups : List.Forall₂
    (fun spec declared => spec.key = declared.1 ∧ Exact spec candles params (declared.2 params)) indicators warmups := by
  have hsma : 1 ≤ params.smaPeriod := le_trans (by decide) params.smaPeriod_bounds.1
  have hema : 1 ≤ params.emaPeriod := le_trans (by decide) params.emaPeriod_bounds.1
  have hrsi : 1 ≤ params.rsiPeriod := le_trans (by decide) params.rsiPeriod_bounds.1
  have hatr : 1 ≤ params.atrPeriod := le_trans (by decide) params.atrPeriod_bounds.1
  have hcci : 1 ≤ params.cciPeriod := le_trans (by decide) params.cciPeriod_bounds.1
  have hbb : 1 ≤ params.bbPeriod := le_trans (by decide) params.bbPeriod_bounds.1
  have hfast : 1 ≤ params.macdFast := le_trans (by decide) params.macdFast_bounds.1
  have hsignal : 1 ≤ params.macdSignal := le_trans (by decide) params.macdSignal_bounds.1
  have hstoch : 1 ≤ params.stochPeriod := le_trans (by decide) params.stochPeriod_bounds.1
  have hsingle {key : String} {start : Nat} {series : Series} (h : From start series) :
      ∀ line ∈ [(key, series)], ∃ m, m ≤ start ∧ From m line.2 := fun line hline =>
    ⟨start, le_refl start, by rw [List.mem_singleton.mp hline]; exact h⟩
  have hmember {j : Nat} (hj : j < 11) : indicators[j] ∈ indicators := List.getElem_mem _
  obtain ⟨hupper, hmiddle, hlower⟩ := from_bands hbb params.bbDeviations_bounds.1.le candles
  obtain ⟨hline, hsmoothed, hhistogram⟩ := from_macd hfast params.macdFast_lt_macdSlow hsignal candles
  have hmacd : params.macdSlow - 1 ≤ params.macdSlow + params.macdSignal - 2 := by
    have := params.macdSlow_bounds
    omega
  refine .cons ⟨rfl, ?_⟩ <| .cons ⟨rfl, ?_⟩ <| .cons ⟨rfl, ?_⟩ <| .cons ⟨rfl, ?_⟩ <| .cons ⟨rfl, ?_⟩ <|
    .cons ⟨rfl, ?_⟩ <| .cons ⟨rfl, ?_⟩ <| .cons ⟨rfl, ?_⟩ <| .cons ⟨rfl, ?_⟩ <| .cons ⟨rfl, ?_⟩ <|
    .cons ⟨rfl, ?_⟩ .nil
  · exact exact_of_from List.mem_cons_self (from_sma hsma _) (hsingle (from_sma hsma _)) (hmember (j := 0) (by decide))
  · exact exact_of_from List.mem_cons_self (from_emaOfCloses hema candles) (hsingle (from_emaOfCloses hema candles))
      (hmember (j := 1) (by decide))
  · refine exact_of_from List.mem_cons_self hupper ?_ (hmember (j := 2) (by decide))
    rintro line (_ | ⟨_, _ | ⟨_, _ | ⟨_, ⟨⟩⟩⟩⟩)
    · exact ⟨_, le_refl _, hupper⟩
    · exact ⟨_, le_refl _, hmiddle⟩
    · exact ⟨_, le_refl _, hlower⟩
  · exact exact_of_startsAt List.mem_cons_self (startsAt_vwap candles _) (by decide)
  · exact exact_of_from List.mem_cons_self (from_rsi hrsi candles) (hsingle (from_rsi hrsi candles))
      (hmember (j := 4) (by decide))
  · refine exact_of_from (List.mem_cons_of_mem _ List.mem_cons_self) hsmoothed ?_ (hmember (j := 5) (by decide))
    rintro line (_ | ⟨_, _ | ⟨_, _ | ⟨_, ⟨⟩⟩⟩⟩)
    · exact ⟨_, hmacd, hline⟩
    · exact ⟨_, le_refl _, hsmoothed⟩
    · exact ⟨_, le_refl _, hhistogram⟩
  · exact exact_of_startsAt (List.mem_cons_of_mem _ List.mem_cons_self)
      (startsAt_d hstoch params.stochSmoothK_bounds.1 params.stochPeriodD_bounds.1 candles) (by decide)
  · exact exact_of_from List.mem_cons_self (from_atr hatr candles) (hsingle (from_atr hatr candles))
      (hmember (j := 7) (by decide))
  · exact exact_of_startsAt List.mem_cons_self (startsAt_adx candles _) (by decide)
  · exact exact_of_startsAt List.mem_cons_self (startsAt_roc candles _) (by decide)
  · exact exact_of_startsAt List.mem_cons_self (startsAt_cci hcci candles) (by decide)

/-- The declared warm-ups are exact, and the strategy, once warm, reads its figures without a gap. -/
theorem warmup_exact (trend : TrendMomentum.TrendMomentumParams) :
    List.Forall₂ (fun spec declared => spec.key = declared.1 ∧ Exact spec candles params (declared.2 params))
        indicators warmups ∧
      (∀ i, (Backtest.figuresAt candles trend i).isSome → TrendMomentum.warmupBars trend ≤ i) ∧
      ∀ i j, (Backtest.figuresAt candles trend i).isSome → i ≤ j → j < candles.length →
        (Backtest.figuresAt candles trend j).isSome :=
  ⟨exact_warmups candles params, fun _ => warmupBars_le, fun _ _ => figuresAt_lasts⟩

end Registry

end Aetheris.IndicatorStart
