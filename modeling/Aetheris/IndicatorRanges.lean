import Aetheris.IndicatorDivisions

namespace Aetheris.IndicatorRanges

open Lib Money Indicators IndicatorRegistry

section Lines

variable {α β : Type} {P : Decimal → Prop} {R : Decimal → Decimal → Prop}

theorem every_zipWith {f : α → β → Option Decimal} {xs : List α} {ys : List β}
    (h : ∀ x ∈ xs, ∀ y ∈ ys, ∀ value ∈ f x y, P value) : Every P (List.zipWith f xs ys) := by
  have hmap : (xs.zip ys).map (fun pair => f pair.1 pair.2) = List.zipWith f xs ys := List.map_zip_eq_zipWith
  rw [← hmap]
  intro entry hentry value hvalue
  obtain ⟨pair, hpair, rfl⟩ := List.mem_map.mp hentry
  exact h pair.1 (List.of_mem_zip hpair).1 pair.2 (List.of_mem_zip hpair).2 value hvalue

/-- Two lines that are defined together, with related values. -/
abbrev Together (R : Decimal → Decimal → Prop) (xs ys : Series) : Prop := List.Forall₂ (Option.Rel R) xs ys

theorem together_map {series : List α} {f g : α → Option Decimal} (h : ∀ x ∈ series, Option.Rel R (f x) (g x)) :
    Together R (series.map f) (series.map g) := by
  rw [Together, List.forall₂_map_left_iff, List.forall₂_map_right_iff, List.forall₂_same]
  exact h

theorem every_of_together {f : Option Decimal → Option Decimal → Option Decimal} {xs ys : Series}
    (h : Together R xs ys) (hnone : f none none = none) (hf : ∀ x y, R x y → ∀ value ∈ f (some x) (some y), P value) :
    Every P (List.zipWith f xs ys) := by
  induction h with
  | nil => exact fun _ hentry => absurd hentry List.not_mem_nil
  | cons hxy _ ih =>
      intro entry hentry value hvalue
      rcases List.mem_cons.mp hentry with rfl | hentry
      · cases hxy with
        | none =>
            rw [hnone] at hvalue
            cases hvalue
        | some hR => exact hf _ _ hR value hvalue
      · exact ih entry hentry value hvalue

/-- A series is its values, index for index. -/
theorem map_valueAt (series : Series) : (List.range series.length).map (valueAt series) = series := by
  refine List.ext_getElem? fun i => ?_
  by_cases hi : i < series.length
  · rw [List.getElem?_map, List.getElem?_range hi, Option.map_some, valueAt_of_lt hi]
  · rw [List.getElem?_eq_none (by simpa using hi), List.getElem?_eq_none (by simpa using hi)]

end Lines

section Averages

variable {values : Series} {period : Nat} {s : Set Decimal}

/-- A simple moving average stays in every convex set that the values are in. -/
theorem every_sma (hs : Convex Decimal s) (hperiod : 1 ≤ period) (h : Every (· ∈ s) values) :
    Every (· ∈ s) (IndicatorLibrary.sma values period) := by
  intro entry hentry value hvalue
  obtain ⟨index, hindex, rfl⟩ := List.mem_map.mp hentry
  have hlt := List.mem_range.mp hindex
  split at hvalue
  · cases hvalue
  · obtain ⟨sum, hsum, rfl⟩ := Option.map_eq_some_iff.mp hvalue
    obtain ⟨window, hwindow, rfl⟩ := Option.map_eq_some_iff.mp hsum
    have hlength : (slice values (index + 1 - period) (index + 1)).length = period := by
      rw [slice, List.length_drop, List.length_take]
      omega
    refine Smoothing.mean_mem hs hperiod hlength ?_ _ ?_
    · exact fun entry hentry => h entry (List.mem_of_mem_take (List.mem_of_mem_drop hentry))
    · rw [Smoothing.mean, hwindow]
      exact congrArg some (inv_mul_eq_div _ _)

theorem every_wilderAverage_mem (hs : Convex Decimal s) (hperiod : 1 ≤ period) {start : Nat} (h : Every (· ∈ s) values) :
    Every (· ∈ s) (wilderAverage values period start) := by
  rw [wilderAverage_eq_wilder]
  exact Smoothing.wilder_mem hs hperiod h

end Averages

section Oscillators

variable {candles : List Candle} {period : Nat}

theorem relativeStrength_mem {gain loss : Option Decimal} (hgain : ∀ x ∈ gain, 0 ≤ x) (hloss : ∀ x ∈ loss, 0 ≤ x) :
    ∀ value ∈ relativeStrength gain loss, value ∈ Set.Icc (0 : Decimal) 100 := by
  intro value hvalue
  cases gain with
  | none => cases hvalue
  | some gain =>
      cases loss with
      | none => cases hvalue
      | some loss =>
          rw [relativeStrength] at hvalue
          split at hvalue
          · obtain rfl := Option.some.inj hvalue
            split <;> norm_num
          · split at hvalue
            · obtain rfl := Option.some.inj hvalue
              norm_num
            · obtain rfl := Option.some.inj hvalue
              have hratio : 0 ≤ gain / loss := div_nonneg (hgain gain rfl) (hloss loss rfl)
              have hpos : 0 < 1 + gain / loss := by linarith
              have hnonneg : 0 ≤ 100 / (1 + gain / loss) := div_nonneg (by norm_num) hpos.le
              have hle : 100 / (1 + gain / loss) ≤ 100 := div_le_self (by norm_num) (by linarith)
              exact ⟨sub_nonneg_of_le hle, sub_le_self _ hnonneg⟩

theorem every_rsi (hperiod : 1 ≤ period) (candles : List Candle) :
    Every (· ∈ Set.Icc (0 : Decimal) 100) (rsi candles period) := by
  rw [rsi_eq]
  exact every_zipWith fun gain hgain loss hloss => relativeStrength_mem
    (every_wilderAverage hperiod (gains_nonneg _) gain hgain) (every_wilderAverage hperiod (losses_nonneg _) loss hloss)

/-- The extremes of a window lie on either side of what is between the lows and the highs of a candle of it. -/
theorem window_bounds {index : Nat} {windowHigh windowLow : Decimal}
    (hhigh : IndicatorLibrary.highest (IndicatorLibrary.highs candles) index period = some windowHigh)
    (hlow : IndicatorLibrary.lowest (IndicatorLibrary.lows candles) index period = some windowLow) :
    ∀ c ∈ slice candles (index + 1 - period) (index + 1), windowLow ≤ c.low ∧ c.high ≤ windowHigh := by
  intro c hc
  rw [IndicatorLibrary.highest] at hhigh
  rw [IndicatorLibrary.lowest] at hlow
  split at hhigh
  · cases hhigh
  · rw [if_neg ‹_›] at hlow
    rw [IndicatorLibrary.highs, slice_map] at hhigh
    rw [IndicatorLibrary.lows, slice_map] at hlow
    exact ⟨(List.min?_eq_some_iff.mp hlow).2 _ (List.mem_map_of_mem hc),
      (List.max?_eq_some_iff.mp hhigh).2 _ (List.mem_map_of_mem hc)⟩

/-- The candle at an index is in the window that ends there. -/
theorem mem_window {index : Nat} {c : Candle} (hperiod : 1 ≤ period) (hc : candles[index]? = some c) :
    c ∈ slice candles (index + 1 - period) (index + 1) := by
  refine List.mem_iff_getElem?.mpr ⟨index - (index + 1 - period), ?_⟩
  rw [slice, List.getElem?_drop, List.getElem?_take_of_lt (by omega), ← hc]
  congr 1
  omega

theorem every_k (hperiod : 1 ≤ period) {smoothK : Nat} (hsmoothK : 1 ≤ smoothK) (periodD : Nat) (candles : List Candle) :
    Every (· ∈ Set.Icc (0 : Decimal) 100) (IndicatorLibrary.stochastic candles period smoothK periodD).k := by
  refine every_sma (convex_Icc 0 100) hsmoothK ?_
  intro entry hentry value hvalue
  obtain ⟨index, -, rfl⟩ := List.mem_map.mp hentry
  obtain ⟨windowHigh, hhigh, hvalue⟩ := Option.bind_eq_some_iff.mp hvalue
  obtain ⟨windowLow, hlow, hvalue⟩ := Option.bind_eq_some_iff.mp hvalue
  obtain ⟨close, hclose, hvalue⟩ := Option.bind_eq_some_iff.mp hvalue
  rw [closes, List.getElem?_map] at hclose
  obtain ⟨c, hc, rfl⟩ := Option.map_eq_some_iff.mp hclose
  obtain ⟨hbelow, habove⟩ := window_bounds hhigh hlow c (mem_window hperiod hc)
  dsimp only at hvalue
  split at hvalue
  · cases hvalue
  · obtain rfl := Option.some.inj hvalue
    have hclose := c.low_le_close
    have hclose' := c.close_le_high
    have hspan : 0 < windowHigh - windowLow := lt_of_le_of_ne (by linarith) (Ne.symm ‹_›)
    have hle : (c.close - windowLow) / (windowHigh - windowLow) ≤ 1 := (div_le_one hspan).mpr (by linarith)
    have hnonneg : 0 ≤ (c.close - windowLow) / (windowHigh - windowLow) := div_nonneg (by linarith) hspan.le
    exact ⟨by linarith, by linarith⟩

theorem every_d (hperiod : 1 ≤ period) {smoothK periodD : Nat} (hsmoothK : 1 ≤ smoothK) (hperiodD : 1 ≤ periodD)
    (candles : List Candle) :
    Every (· ∈ Set.Icc (0 : Decimal) 100) (IndicatorLibrary.stochastic candles period smoothK periodD).d :=
  every_sma (convex_Icc 0 100) hperiodD (every_k hperiod hsmoothK periodD candles)

end Oscillators

section Direction

variable {candles : List Candle} {period : Nat}

/-- Movements upwards and downwards that fit together into a range. -/
def fitting : Set (Decimal × Decimal × Decimal) := {m | 0 ≤ m.1 ∧ 0 ≤ m.2.1 ∧ m.1 + m.2.1 ≤ m.2.2}

theorem convex_fitting : Convex Decimal fitting := by
  rintro x ⟨hx1, hx2, hx⟩ y ⟨hy1, hy2, hy⟩ a b ha hb -
  refine ⟨add_nonneg (mul_nonneg ha hx1) (mul_nonneg hb hy1), add_nonneg (mul_nonneg ha hx2) (mul_nonneg hb hy2), ?_⟩
  have hax := mul_le_mul_of_nonneg_left hx ha
  have hby := mul_le_mul_of_nonneg_left hy hb
  simp only [Prod.fst_add, Prod.snd_add, Prod.smul_fst, Prod.smul_snd, smul_eq_mul]
  linarith

/-- The two directional movements of a candle with its true range. -/
def move (previous current : Candle) : Decimal × Decimal × Decimal :=
  let upMove := current.high - previous.high
  let downMove := previous.low - current.low
  (if downMove < upMove ∧ 0 < upMove then upMove else 0, if upMove < downMove ∧ 0 < downMove then downMove else 0,
    max (current.high - current.low) (max |current.high - previous.close| |current.low - previous.close|))

def moves (candles : List Candle) : List (Option (Decimal × Decimal × Decimal)) := stepwise move candles

/-- One movement of a candle at most counts, and the close before it lies between the extremes before it. -/
theorem every_moves (candles : List Candle) : Every (· ∈ fitting) (moves candles) := by
  refine every_stepwise (fun previous current => ?_) candles
  have hup : current.high - previous.high ≤
      max (current.high - current.low) (max |current.high - previous.close| |current.low - previous.close|) := by
    refine le_max_of_le_right (le_max_of_le_left (le_trans ?_ (le_abs_self _)))
    linarith [previous.close_le_high]
  have hdown : previous.low - current.low ≤
      max (current.high - current.low) (max |current.high - previous.close| |current.low - previous.close|) := by
    refine le_max_of_le_right (le_max_of_le_right (le_trans ?_ (neg_le_abs _)))
    linarith [previous.low_le_close]
  have hrange : 0 ≤
      max (current.high - current.low) (max |current.high - previous.close| |current.low - previous.close|) :=
    le_max_of_le_left (sub_nonneg_of_le (current.low_le_close.trans current.close_le_high))
  rw [move]
  split
  · rename_i hplus
    rw [if_neg (fun hminus => lt_asymm hplus.1 hminus.1)]
    exact ⟨hplus.2.le, le_refl 0, by simpa using hup⟩
  · split
    · rename_i hminus
      exact ⟨le_refl 0, hminus.2.le, by simpa using hdown⟩
    · exact ⟨le_refl 0, le_refl 0, (add_zero (0 : Decimal)).trans_le hrange⟩

theorem moves_map (f : Decimal × Decimal × Decimal → Decimal) (candles : List Candle) :
    stepwise (fun previous current => f (move previous current)) candles = (moves candles).map (Option.map f) := by
  refine stepwise_related (R := Eq) f (fun y y' x x' hy hx => ?_) (List.forall₂_same.mpr fun _ _ => rfl)
  rw [hy, hx]

/-- The movements and the ranges, smoothed together. -/
def smoothedMoves (candles : List Candle) (period : Nat) : List (Option (Decimal × Decimal × Decimal)) :=
  Smoothing.wilder Decimal period 1 (moves candles)

theorem every_smoothedMoves (hperiod : 1 ≤ period) (candles : List Candle) :
    Every (· ∈ fitting) (smoothedMoves candles period) :=
  Smoothing.wilder_mem convex_fitting hperiod (every_moves candles)

theorem smoothedPlus_eq (candles : List Candle) (period : Nat) :
    wilderAverage (plusMoves candles) period 1 = (smoothedMoves candles period).map (Option.map fun m => m.1) := by
  have hplus : plusMoves candles = (moves candles).map (Option.map (LinearMap.fst Decimal Decimal (Decimal × Decimal))) :=
    moves_map (LinearMap.fst Decimal Decimal (Decimal × Decimal)) candles
  rw [wilderAverage_eq_wilder, hplus, Smoothing.wilder_map]
  rfl

theorem smoothedMinus_eq (candles : List Candle) (period : Nat) :
    wilderAverage (minusMoves candles) period 1 = (smoothedMoves candles period).map (Option.map fun m => m.2.1) := by
  have hminus : minusMoves candles = (moves candles).map (Option.map
      (LinearMap.fst Decimal Decimal Decimal ∘ₗ LinearMap.snd Decimal Decimal (Decimal × Decimal))) :=
    moves_map (LinearMap.fst Decimal Decimal Decimal ∘ₗ LinearMap.snd Decimal Decimal (Decimal × Decimal)) candles
  rw [wilderAverage_eq_wilder, hminus, Smoothing.wilder_map]
  rfl

theorem smoothedRange_eq (candles : List Candle) (period : Nat) :
    wilderAverage (trueRanges candles) period 1 = (smoothedMoves candles period).map (Option.map fun m => m.2.2) := by
  have hrange : trueRanges candles = (moves candles).map (Option.map
      (LinearMap.snd Decimal Decimal Decimal ∘ₗ LinearMap.snd Decimal Decimal (Decimal × Decimal))) :=
    moves_map (LinearMap.snd Decimal Decimal Decimal ∘ₗ LinearMap.snd Decimal Decimal (Decimal × Decimal)) candles
  rw [wilderAverage_eq_wilder, hrange, Smoothing.wilder_map]
  rfl

theorem plusDi_map (candles : List Candle) (period : Nat) : (adx candles period).plusDi =
    (smoothedMoves candles period).map fun m =>
      directional (m.map fun m => m.2.2) (m.map fun m => m.1) (m.map fun m => m.2.1) := by
  rw [plusDi_eq, smoothedPlus_eq, smoothedMinus_eq, smoothedRange_eq, List.zip_map', List.zipWith_map, List.zipWith_self]

theorem minusDi_map (candles : List Candle) (period : Nat) : (adx candles period).minusDi =
    (smoothedMoves candles period).map fun m =>
      directional (m.map fun m => m.2.2) (m.map fun m => m.2.1) (m.map fun m => m.1) := by
  rw [minusDi_eq, smoothedPlus_eq, smoothedMinus_eq, smoothedRange_eq, List.zip_map', List.zipWith_map, List.zipWith_self]

/-- Directional indicators that are not negative, and come to 100 at most. -/
def Shares (plus minus : Decimal) : Prop := 0 ≤ plus ∧ 0 ≤ minus ∧ plus + minus ≤ 100

theorem together_di (hperiod : 1 ≤ period) (candles : List Candle) :
    Together Shares (adx candles period).plusDi (adx candles period).minusDi := by
  rw [plusDi_map, minusDi_map]
  refine together_map fun m hm => ?_
  cases m with
  | none => exact .none
  | some m =>
      obtain ⟨hplus, hminus, hfit⟩ := every_smoothedMoves hperiod candles (some m) hm m rfl
      dsimp only [Option.map_some, directional]
      split
      · exact .none
      · have hrange : 0 < m.2.2 := lt_of_le_of_ne (by linarith) (Ne.symm ‹_›)
        refine .some ⟨mul_nonneg (div_nonneg hplus hrange.le) (by norm_num),
          mul_nonneg (div_nonneg hminus hrange.le) (by norm_num), ?_⟩
        have hle : m.1 / m.2.2 + m.2.1 / m.2.2 ≤ 1 := by
          rw [← add_div]
          exact (div_le_one hrange).mpr hfit
        linarith

theorem every_dx (hperiod : 1 ≤ period) (candles : List Candle) :
    Every (· ∈ Set.Icc (0 : Decimal) 100) (dx candles period) := by
  refine every_of_together (together_di hperiod candles) rfl fun plus minus hshares value hvalue => ?_
  obtain ⟨hplus, hminus, -⟩ := hshares
  rw [directionalIndex] at hvalue
  split at hvalue
  · cases hvalue
  · obtain rfl := Option.some.inj hvalue
    have hpos : 0 < plus + minus := lt_of_le_of_ne (by linarith) (Ne.symm ‹_›)
    have habs : |plus - minus| ≤ plus + minus := abs_le.mpr ⟨by linarith, by linarith⟩
    have hle : |plus - minus| / (plus + minus) ≤ 1 := (div_le_one hpos).mpr habs
    have hnonneg : 0 ≤ |plus - minus| / (plus + minus) := div_nonneg (abs_nonneg _) hpos.le
    exact ⟨by linarith, by linarith⟩

theorem every_adx (hperiod : 1 ≤ period) (candles : List Candle) :
    Every (· ∈ Set.Icc (0 : Decimal) 100) (adx candles period).adx := by
  rw [adx_eq]
  split
  · exact every_wilderAverage_mem (convex_Icc 0 100) hperiod (every_dx hperiod candles)
  · exact every_undefined _

end Direction

section Bands

variable {candles : List Candle} {period : Nat}

theorem sqrt_nonneg (x : Decimal) : 0 ≤ IndicatorLibrary.sqrt x := by
  rw [IndicatorLibrary.sqrt]
  exact div_nonneg (Nat.cast_nonneg _) (zpow_nonneg (by norm_num) _)

theorem populationStdev_nonneg (window : List Decimal) : 0 ≤ IndicatorLibrary.populationStdev window := by
  rw [IndicatorLibrary.populationStdev]
  split
  · exact sqrt_nonneg _
  · exact le_refl 0

theorem middle_eq (candles : List Candle) (period : Nat) (deviations : Decimal) :
    (IndicatorLibrary.bollingerBands candles period deviations).middle = (List.range candles.length).map
      (valueAt (IndicatorLibrary.bollingerBands candles period deviations).middle) := by
  rw [← (IndicatorLibrary.causal_middle period deviations).length candles, map_valueAt]

/-- The middle lies between the bands, where any of them is defined. -/
theorem together_bands {deviations : Decimal} (h : 0 ≤ deviations) (candles : List Candle) (period : Nat) :
    Together (· ≤ ·) (IndicatorLibrary.bollingerBands candles period deviations).lower
        (IndicatorLibrary.bollingerBands candles period deviations).middle ∧
      Together (· ≤ ·) (IndicatorLibrary.bollingerBands candles period deviations).middle
        (IndicatorLibrary.bollingerBands candles period deviations).upper := by
  rw [middle_eq]
  constructor
  · refine together_map fun index _ => ?_
    change Option.Rel _ ((valueAt (IndicatorLibrary.sma ((closes candles).map some) period) index).map _)
      (valueAt (IndicatorLibrary.sma ((closes candles).map some) period) index)
    cases valueAt (IndicatorLibrary.sma ((closes candles).map some) period) index with
    | none => exact .none
    | some centre => exact .some (sub_le_self _ (mul_nonneg (populationStdev_nonneg _) h))
  · refine together_map fun index _ => ?_
    change Option.Rel _ (valueAt (IndicatorLibrary.sma ((closes candles).map some) period) index)
      ((valueAt (IndicatorLibrary.sma ((closes candles).map some) period) index).map _)
    cases valueAt (IndicatorLibrary.sma ((closes candles).map some) period) index with
    | none => exact .none
    | some centre => exact .some (le_add_of_nonneg_right (mul_nonneg (populationStdev_nonneg _) h))

theorem every_atr (hperiod : 1 ≤ period) (candles : List Candle) : Every (0 ≤ ·) (IndicatorLibrary.atr candles period) :=
  every_wilderAverage hperiod (trueRanges_nonneg candles)

theorem valueAt_read {n i : Nat} {f : Nat → Option Decimal} {value : Decimal}
    (h : valueAt ((List.range n).map f) i = some value) : f i = some value := by
  rw [valueAt, List.getElem?_map] at h
  by_cases hi : i < n
  · rwa [List.getElem?_range hi] at h
  · rw [List.getElem?_eq_none (by simpa using hi)] at h
    cases h

/-- The price of a window by its volumes lies between its extremes. -/
theorem weighted_between (window : List Candle) (hpos : 0 < (window.map Candle.volume).sum) :
    ∃ low high, (window.map Candle.low).min? = some low ∧ (window.map Candle.high).max? = some high ∧
      low ≤ (window.map fun c => (c.high + c.low + c.close) / 3 * c.volume).sum / (window.map Candle.volume).sum ∧
      (window.map fun c => (c.high + c.low + c.close) / 3 * c.volume).sum / (window.map Candle.volume).sum ≤ high := by
  have hne : window ≠ [] := by
    rintro rfl
    exact lt_irrefl _ hpos
  obtain ⟨low, hlow⟩ := Option.isSome_iff_exists.mp
    (List.isSome_min?_of_ne_nil (mt List.map_eq_nil_iff.mp hne : window.map Candle.low ≠ []))
  obtain ⟨high, hhigh⟩ := Option.isSome_iff_exists.mp
    (List.isSome_max?_of_ne_nil (mt List.map_eq_nil_iff.mp hne : window.map Candle.high ≠ []))
  have hbelow (c : Candle) (hc : c ∈ window) : low ≤ c.low :=
    (List.min?_eq_some_iff.mp hlow).2 _ (List.mem_map_of_mem hc)
  have habove (c : Candle) (hc : c ∈ window) : c.high ≤ high :=
    (List.max?_eq_some_iff.mp hhigh).2 _ (List.mem_map_of_mem hc)
  have hmem := Smoothing.weighted_mem (convex_Icc low high)
    (window.map fun c => (c.volume, (c.high + c.low + c.close) / 3)) ?_ ?_ ?_
  · have hproducts : (window.map fun c => (c.volume, (c.high + c.low + c.close) / 3)).map (fun p => p.1 • p.2) =
        window.map fun c => (c.high + c.low + c.close) / 3 * c.volume := by
      rw [List.map_map]
      exact List.map_congr_left fun c _ => mul_comm _ _
    rw [hproducts, List.map_map, smul_eq_mul, inv_mul_eq_div] at hmem
    exact ⟨low, high, hlow, hhigh, hmem.1, hmem.2⟩
  · intro p hp
    obtain ⟨c, -, rfl⟩ := List.mem_map.mp hp
    exact c.volume_nonneg
  · intro p hp
    obtain ⟨c, hc, rfl⟩ := List.mem_map.mp hp
    have hlow := hbelow c hc
    have hhigh := habove c hc
    have hclose := c.low_le_close
    have hclose' := c.close_le_high
    exact ⟨by linarith, by linarith⟩
  · rwa [List.map_map]

/-- The average price of what was traded in a window lies between the extremes of the window. -/
theorem vwap_between {i : Nat} {value : Decimal} (h : valueAt (IndicatorLibrary.vwap candles period) i = some value) :
    ∃ low high, IndicatorLibrary.lowest (IndicatorLibrary.lows candles) i period = some low ∧
      IndicatorLibrary.highest (IndicatorLibrary.highs candles) i period = some high ∧ low ≤ value ∧ value ≤ high := by
  have hvalue := valueAt_read h
  split at hvalue
  · cases hvalue
  · rename_i hlong
    dsimp only at hvalue
    split at hvalue
    · cases hvalue
    · rename_i htotal
      obtain rfl := Option.some.inj hvalue
      rw [IndicatorLibrary.volumes, slice_map] at htotal
      rw [IndicatorLibrary.volumes, IndicatorLibrary.typicalPrices, slice_map, slice_map, List.zipWith_map,
        List.zipWith_self]
      rw [IndicatorLibrary.lowest, IndicatorLibrary.highest, if_neg hlong, if_neg hlong, IndicatorLibrary.lows,
        IndicatorLibrary.highs, slice_map, slice_map]
      generalize slice candles (i + 1 - period) (i + 1) = window at htotal ⊢
      exact weighted_between window (lt_of_not_ge htotal)

end Bands

section Registry

/-- The lines of the indicators lie in their ranges. -/
structure InRange (candles : List Candle) (params : IndicatorParams) : Prop where
  rsi : Every (· ∈ Set.Icc (0 : Decimal) 100) (rsi candles params.rsiPeriod)
  adx : Every (· ∈ Set.Icc (0 : Decimal) 100) (adx candles params.adxPeriod).adx
  k : Every (· ∈ Set.Icc (0 : Decimal) 100)
    (IndicatorLibrary.stochastic candles params.stochPeriod params.stochSmoothK params.stochPeriodD).k
  d : Every (· ∈ Set.Icc (0 : Decimal) 100)
    (IndicatorLibrary.stochastic candles params.stochPeriod params.stochSmoothK params.stochPeriodD).d
  di : Together Shares (Indicators.adx candles params.adxPeriod).plusDi (Indicators.adx candles params.adxPeriod).minusDi
  lower : Together (· ≤ ·) (IndicatorLibrary.bollingerBands candles params.bbPeriod params.bbDeviations).lower
    (IndicatorLibrary.bollingerBands candles params.bbPeriod params.bbDeviations).middle
  upper : Together (· ≤ ·) (IndicatorLibrary.bollingerBands candles params.bbPeriod params.bbDeviations).middle
    (IndicatorLibrary.bollingerBands candles params.bbPeriod params.bbDeviations).upper
  atr : Every (0 ≤ ·) (IndicatorLibrary.atr candles params.atrPeriod)
  vwap : ∀ i, ∀ value ∈ valueAt (IndicatorLibrary.vwap candles params.vwapPeriod) i, ∃ low high,
    IndicatorLibrary.lowest (IndicatorLibrary.lows candles) i params.vwapPeriod = some low ∧
      IndicatorLibrary.highest (IndicatorLibrary.highs candles) i params.vwapPeriod = some high ∧
        low ≤ value ∧ value ≤ high

/-- Of all candles and all parameters the indicators lie in their ranges, and none of them divides by zero. -/
theorem indicators_in_range : (∀ candles params, InRange candles params) ∧
    List.Forall₂ IndicatorDivisions.NoneByZero indicators IndicatorDivisions.indicators := by
  refine ⟨fun candles params => ?_, IndicatorDivisions.registered_noneByZero⟩
  have hrsi : 1 ≤ params.rsiPeriod := le_trans (by decide) params.rsiPeriod_bounds.1
  have hadx : 1 ≤ params.adxPeriod := le_trans (by decide) params.adxPeriod_bounds.1
  have hatr : 1 ≤ params.atrPeriod := le_trans (by decide) params.atrPeriod_bounds.1
  have hstoch : 1 ≤ params.stochPeriod := le_trans (by decide) params.stochPeriod_bounds.1
  have hbands := together_bands params.bbDeviations_bounds.1.le candles params.bbPeriod
  exact
    { rsi := every_rsi hrsi candles
      adx := every_adx hadx candles
      k := every_k hstoch params.stochSmoothK_bounds.1 params.stochPeriodD candles
      d := every_d hstoch params.stochSmoothK_bounds.1 params.stochPeriodD_bounds.1 candles
      di := together_di hadx candles
      lower := hbands.1
      upper := hbands.2
      atr := every_atr hatr candles
      vwap := fun _ _ hvalue => vwap_between hvalue }

end Registry

end Aetheris.IndicatorRanges
