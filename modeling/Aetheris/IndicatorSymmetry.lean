import Mathlib.Tactic.FieldSimp
import Mathlib.Tactic.Linarith
import Mathlib.Tactic.Positivity
import Mathlib.Tactic.Ring
import Aetheris.IndicatorWarmup
import Aetheris.Lib.Smoothing

namespace Aetheris.Indicators

open Lib Money

section Series

/-- A series with each of its values replaced. -/
def onValues (f : Decimal → Decimal) (series : Series) : Series := series.map (Option.map f)

variable {f : Decimal → Decimal} {period : Nat} {values : Series}

theorem length_onValues (f : Decimal → Decimal) (series : Series) : (onValues f series).length = series.length :=
  List.length_map _

theorem valueAt_onValues (f : Decimal → Decimal) (series : Series) (i : Nat) :
    valueAt (onValues f series) i = (valueAt series i).map f := by
  rw [valueAt, valueAt, onValues, List.getElem?_map]
  cases series[i]? <;> rfl

theorem drop_onValues (f : Decimal → Decimal) (series : Series) (n : Nat) :
    (onValues f series).drop n = onValues f (series.drop n) := by
  rw [onValues, onValues, List.map_drop]

theorem slice_map {α β : Type} (g : α → β) (xs : List α) (start stop : Nat) :
    slice (xs.map g) start stop = (slice xs start stop).map g := by
  rw [slice, slice, ← List.map_take, ← List.map_drop]

theorem total_cons (value : Option Decimal) (window : Series) :
    total (value :: window) = value.bind fun x => (total window).map (x + ·) := by
  rw [total, total, List.mapM_cons]
  cases value with
  | none => rfl
  | some x => cases List.mapM id window <;> rfl

theorem total_scale (c : Decimal) (window : Series) : total (onValues (c * ·) window) = (total window).map (c * ·) := by
  induction window with
  | nil => exact congrArg some (mul_zero c).symm
  | cons value window ih =>
      rw [onValues, List.map_cons, total_cons, total_cons, ← onValues, ih]
      cases value with
      | none => rfl
      | some x =>
          cases total window with
          | none => rfl
          | some sum => exact congrArg some (mul_add c x sum).symm

theorem total_some (xs : List Decimal) : total (xs.map some) = some xs.sum := by
  induction xs with
  | nil => rfl
  | cons x xs ih => rw [List.map_cons, total_cons, ih, List.sum_cons, Option.bind_some, Option.map_some]

theorem seedEnd_onValues (f : Decimal → Decimal) (index run : Nat) :
    seedEnd period index run (onValues f values) = seedEnd period index run values := by
  induction values generalizing index run with
  | nil => rfl
  | cons value values ih =>
      rw [onValues, List.map_cons, seedEnd, seedEnd, Option.isSome_map, ← onValues]
      simp only [ih]

end Series

section Averages

variable {f : Decimal → Decimal} {period : Nat} {values : Series}

/-- What keeps weighted means keeps the average, once it keeps the mean that the average starts from. -/
theorem ema_onValues (hf : ∀ w x y, f (x * w + y * (1 - w)) = f x * w + f y * (1 - w))
    (hseed : ∀ k ∈ seedEnd period 0 0 values,
      ((total (slice (onValues f values) (k + 1 - period) (k + 1))).getD 0) / period =
        f (((total (slice values (k + 1 - period) (k + 1))).getD 0) / period)) :
    ema (onValues f values) period = onValues f (ema values period) := by
  rw [ema, ema, seedEnd_onValues, length_onValues]
  cases hk : seedEnd period 0 0 values with
  | none => simp [undefinedSeries, onValues]
  | some k =>
      dsimp only
      rw [hseed k hk, drop_onValues]
      refine seeded_map f (Option.map f) (fun previous value => ?_) k _ _
      cases value with
      | none => rfl
      | some x => exact congrArg some (hf _ x previous).symm

theorem ema_scale (c : Decimal) (values : Series) (period : Nat) :
    ema (onValues (c * ·) values) period = onValues (c * ·) (ema values period) := by
  refine ema_onValues (fun w x y => by ring) fun k _ => ?_
  rw [onValues, slice_map, ← onValues, total_scale]
  cases total (slice values (k + 1 - period) (k + 1)) with
  | none => simp
  | some sum => exact mul_div_assoc c sum period

theorem sum_affine (a b : Decimal) (xs : List Decimal) :
    (xs.map fun x => a * x + b).sum = a * xs.sum + b * xs.length := by
  induction xs with
  | nil => simp
  | cons x xs ih =>
      rw [List.map_cons, List.sum_cons, List.sum_cons, List.length_cons, ih]
      push_cast
      ring

/-- The average of prices on another scale is the average of the prices, on that scale. -/
theorem ema_affine (hperiod : 1 ≤ period) (a b : Decimal) (prices : List Decimal) :
    ema ((prices.map fun p => a * p + b).map some) period = onValues (fun p => a * p + b) (ema (prices.map some) period) := by
  have hmap : (prices.map fun p => a * p + b).map some = onValues (fun p => a * p + b) (prices.map some) := by
    simp [onValues]
  rw [hmap]
  refine ema_onValues (fun w x y => by ring) fun k hk => ?_
  have hfirst := seedEnd_ge k hk
  have hlast := (seedEnd_mem k hk).2
  rw [List.length_map] at hlast
  have hlength : (slice prices (k + 1 - period) (k + 1)).length = period := by
    rw [slice, List.length_drop, List.length_take]
    omega
  have hpos : (period : Decimal) ≠ 0 := Nat.cast_ne_zero.mpr (by omega)
  rw [← hmap, slice_map, slice_map, slice_map, total_some, total_some, sum_affine, hlength, Option.getD_some,
    Option.getD_some]
  field_simp

theorem wilderAverage_scale (c : Decimal) (values : Series) (period start : Nat) :
    wilderAverage (onValues (c * ·) values) period start = onValues (c * ·) (wilderAverage values period start) := by
  have hwindow (stop : Nat) : total (slice (onValues (c * ·) values) start stop) = (total (slice values start stop)).map (c * ·) := by
    rw [onValues, slice_map, ← onValues, total_scale]
  rw [wilderAverage, wilderAverage, length_onValues, hwindow]
  dsimp only
  split
  · simp [undefinedSeries, onValues]
  · cases total (slice values start (start + period - 1 + 1)) with
    | none => simp [undefinedSeries, onValues]
    | some sum =>
        rw [Option.map_some]
        dsimp only
        rw [mul_div_assoc, drop_onValues]
        refine seeded_map (c * ·) (Option.map (c * ·)) (fun previous value => ?_) (start + period - 1) _ _
        cases value with
        | none => rfl
        | some x =>
            refine congrArg some ?_
            ring

theorem total_nonneg {window : Series} (h : Every (0 ≤ ·) window) : ∀ sum ∈ total window, 0 ≤ sum := by
  induction window with
  | nil =>
      intro sum hsum
      obtain rfl := Option.some.inj hsum
      exact le_refl 0
  | cons value window ih =>
      intro sum hsum
      rw [total_cons] at hsum
      obtain ⟨x, hx, hrest⟩ := Option.bind_eq_some_iff.mp hsum
      obtain ⟨rest, htotal, rfl⟩ := Option.map_eq_some_iff.mp hrest
      exact add_nonneg (h value List.mem_cons_self x hx)
        (ih (fun entry hentry => h entry (List.mem_cons_of_mem _ hentry)) rest htotal)

/-- Wilder's average is the smoothing of that name, of decimals. -/
theorem wilderAverage_eq_wilder (values : Series) (period start : Nat) :
    wilderAverage values period start = Smoothing.wilder Decimal period start values := by
  have hmean (window : Series) : Smoothing.mean Decimal period window = (total window).map (· / (period : Decimal)) := by
    rw [Smoothing.mean, total, Option.map_map]
    exact congrArg (fun f => (window.mapM id).map f) (funext fun values => inv_mul_eq_div _ _)
  have hnext : Smoothing.next Decimal (V := Decimal) period = fun previous value =>
      value.map fun value => (previous * ((period : Decimal) - 1) + value) / period := by
    funext previous value
    refine congrArg (fun f => value.map f) (funext fun value => ?_)
    rw [smul_eq_mul, smul_eq_mul, inv_mul_eq_div, mul_comm previous]
  rw [wilderAverage, Smoothing.wilder, hmean, hnext]
  dsimp only
  split
  · rfl
  · rw [slice]
    cases total ((values.take (start + period - 1 + 1)).drop start) <;> rfl

/-- Wilder's average of values that are not negative has no negative value. -/
theorem every_wilderAverage (hperiod : 1 ≤ period) {start : Nat} (h : Every (0 ≤ ·) values) :
    Every (0 ≤ ·) (wilderAverage values period start) := by
  rw [wilderAverage_eq_wilder]
  exact Smoothing.wilder_mem (convex_Ici 0) hperiod h

end Averages

section Candles

/-- The candle in another price unit. -/
def Candle.scale (c : Decimal) (hc : 0 < c) (candle : Candle) : Candle where
  openTime := candle.openTime
  closeTime := candle.closeTime
  open_ := c * candle.open_
  high := c * candle.high
  low := c * candle.low
  close := c * candle.close
  volume := candle.volume
  low_nonneg := mul_nonneg hc.le candle.low_nonneg
  low_le_open := mul_le_mul_of_nonneg_left candle.low_le_open hc.le
  open_le_high := mul_le_mul_of_nonneg_left candle.open_le_high hc.le
  low_le_close := mul_le_mul_of_nonneg_left candle.low_le_close hc.le
  close_le_high := mul_le_mul_of_nonneg_left candle.close_le_high hc.le
  volume_nonneg := candle.volume_nonneg
  ordered := candle.ordered

/-- The candle as it is seen from a price above it, where its low is its high. -/
def Candle.reflect (K : Decimal) (candle : Candle) (h : candle.high < K) : Candle where
  openTime := candle.openTime
  closeTime := candle.closeTime
  open_ := K - candle.open_
  high := K - candle.low
  low := K - candle.high
  close := K - candle.close
  volume := candle.volume
  low_nonneg := sub_nonneg_of_le h.le
  low_le_open := sub_le_sub_left candle.open_le_high K
  open_le_high := sub_le_sub_left candle.low_le_open K
  low_le_close := sub_le_sub_left candle.close_le_high K
  close_le_high := sub_le_sub_left candle.low_le_close K
  volume_nonneg := candle.volume_nonneg
  ordered := candle.ordered

def scaled (c : Decimal) (hc : 0 < c) (candles : List Candle) : List Candle := candles.map (Candle.scale c hc)

def reflected (K : Decimal) (candles : List Candle) (h : ∀ candle ∈ candles, candle.high < K) : List Candle :=
  candles.pmap (Candle.reflect K) h

variable {c K : Decimal} {candles : List Candle}

theorem related_scaled (hc : 0 < c) (candles : List Candle) :
    List.Forall₂ (fun candle candle' => candle' = candle.scale c hc) candles (scaled c hc candles) :=
  List.forall₂_map_right_iff.mpr (List.forall₂_same.mpr fun _ _ => rfl)

theorem related_reflected (h : ∀ candle ∈ candles, candle.high < K) :
    List.Forall₂ (fun candle candle' => ∃ hK, candle' = candle.reflect K hK) candles (reflected K candles h) := by
  induction candles with
  | nil => exact .nil
  | cons candle candles ih => exact .cons ⟨h candle List.mem_cons_self, rfl⟩ (ih fun candle hc => h candle (List.mem_cons_of_mem _ hc))

/-- Closes that are the others on another scale. -/
def ClosesOn (a b : Decimal) (candles candles' : List Candle) : Prop :=
  closes candles' = (closes candles).map fun p => a * p + b

theorem closesOn_scaled (hc : 0 < c) (candles : List Candle) : ClosesOn c 0 candles (scaled c hc candles) := by
  rw [ClosesOn, closes, scaled, List.map_map, closes, List.map_map]
  exact List.map_congr_left fun candle _ => (add_zero (c * candle.close)).symm

theorem closesOn_reflected (h : ∀ candle ∈ candles, candle.high < K) : ClosesOn (-1) K candles (reflected K candles h) := by
  rw [ClosesOn, closes, reflected, List.map_pmap, closes, List.map_map, ← List.pmap_eq_map (p := fun candle => candle.high < K) h]
  refine List.pmap_congr_left candles fun candle _ hK _ => ?_
  change K - candle.close = -1 * candle.close + K
  ring

theorem length_scaled (hc : 0 < c) (candles : List Candle) : (scaled c hc candles).length = candles.length :=
  List.length_map _

theorem length_reflected (h : ∀ candle ∈ candles, candle.high < K) : (reflected K candles h).length = candles.length :=
  List.length_pmap

end Candles

section Oscillators

variable {c K a b : Decimal} {candles candles' : List Candle} {period : Nat}

theorem zipWith_onValues {g h : Option Decimal → Option Decimal → Option Decimal} {f k : Decimal → Decimal}
    (hg : ∀ x y, g (x.map f) (y.map f) = (h x y).map k) (xs ys : Series) :
    List.zipWith g (onValues f xs) (onValues f ys) = onValues k (List.zipWith h xs ys) := by
  rw [onValues, onValues, List.zipWith_map, onValues, List.map_zipWith]
  exact congrArg (fun g => List.zipWith g xs ys) (funext fun x => funext fun y => hg x y)

theorem difference_affine (a b : Decimal) (x y : Option Decimal) :
    difference (x.map fun p => a * p + b) (y.map fun p => a * p + b) = (difference x y).map (a * ·) := by
  cases x with
  | none => rfl
  | some x =>
      cases y with
      | none => rfl
      | some y =>
          refine congrArg some ?_
          ring

theorem difference_scale (c : Decimal) (x y : Option Decimal) :
    difference (x.map (c * ·)) (y.map (c * ·)) = (difference x y).map (c * ·) := by
  simpa using difference_affine c 0 x y

theorem emaOfCloses_affine (h : ClosesOn a b candles candles') (hperiod : 1 ≤ period) :
    ema ((closes candles').map some) period = onValues (fun p => a * p + b) (ema ((closes candles).map some) period) := by
  rw [h, ema_affine hperiod]

/-- The histogram loses the shift, and keeps the scale. -/
theorem histogram_affine {fast slow : Nat} (h : ClosesOn a b candles candles') (hfast : 1 ≤ fast) (hslow : 1 ≤ slow)
    (signal : Nat) :
    (macd candles' fast slow signal).histogram = onValues (a * ·) (macd candles fast slow signal).histogram := by
  have hline : (macd candles' fast slow signal).macd = onValues (a * ·) (macd candles fast slow signal).macd := by
    rw [macd, macd]
    dsimp only
    rw [emaOfCloses_affine h hfast, emaOfCloses_affine h hslow, zipWith_onValues (difference_affine a b)]
  have hsignal : (macd candles' fast slow signal).signal = onValues (a * ·) (macd candles fast slow signal).signal := by
    have hema := ema_scale a (macd candles fast slow signal).macd signal
    rwa [← hline] at hema
  have hdifference := zipWith_onValues (difference_scale a) (macd candles fast slow signal).macd
    (macd candles fast slow signal).signal
  rwa [← hline, ← hsignal] at hdifference

/-- The rises of the closes, and their falls. -/
def gains (price : List Decimal) : Series :=
  stepwise (fun previous current => if 0 < current - previous then current - previous else 0) price

def losses (price : List Decimal) : Series :=
  stepwise (fun previous current => if current - previous < 0 then -(current - previous) else 0) price

theorem gains_nonneg (price : List Decimal) : Every (0 ≤ ·) (gains price) := by
  refine every_stepwise (fun y x => ?_) price
  split
  · exact le_of_lt ‹_›
  · exact le_refl 0

theorem losses_nonneg (price : List Decimal) : Every (0 ≤ ·) (losses price) := by
  refine every_stepwise (fun y x => ?_) price
  split
  · exact (neg_pos.mpr ‹_›).le
  · exact le_refl 0

theorem rsi_eq (candles : List Candle) (period : Nat) :
    rsi candles period = List.zipWith relativeStrength (wilderAverage (gains (closes candles)) period 1)
      (wilderAverage (losses (closes candles)) period 1) := rfl

theorem related_closes (h : ClosesOn a b candles candles') :
    List.Forall₂ (fun p p' => p' = a * p + b) (closes candles) (closes candles') := by
  rw [h]
  exact List.forall₂_map_right_iff.mpr (List.forall₂_same.mpr fun _ _ => rfl)

theorem gains_scale (hc : 0 < c) (h : ClosesOn c b candles candles') :
    gains (closes candles') = onValues (c * ·) (gains (closes candles)) := by
  refine stepwise_related (c * ·) ?_ (related_closes h)
  rintro y _ x _ rfl rfl
  have hmove : c * x + b - (c * y + b) = c * (x - y) := by ring
  rw [hmove]
  by_cases hup : 0 < x - y
  · rw [if_pos hup, if_pos (mul_pos hc hup)]
  · rw [if_neg hup, if_neg (fun h => hup ((mul_pos_iff_of_pos_left hc).mp h)), mul_zero]

theorem losses_scale (hc : 0 < c) (h : ClosesOn c b candles candles') :
    losses (closes candles') = onValues (c * ·) (losses (closes candles)) := by
  refine stepwise_related (c * ·) ?_ (related_closes h)
  rintro y _ x _ rfl rfl
  have hmove : c * x + b - (c * y + b) = c * (x - y) := by ring
  rw [hmove]
  by_cases hdown : x - y < 0
  · rw [if_pos hdown, if_pos (mul_neg_of_pos_of_neg hc hdown), mul_neg]
  · rw [if_neg hdown, if_neg (fun h => hdown (neg_of_mul_neg_right h hc.le)), mul_zero]

/-- A rise is a fall of what is seen from above. -/
theorem gains_reflected (h : ClosesOn (-1) K candles candles') : gains (closes candles') = losses (closes candles) := by
  refine stepwise_same ?_ (related_closes h)
  rintro y _ x _ rfl rfl
  have hmove : -1 * x + K - (-1 * y + K) = -(x - y) := by ring
  rw [hmove]
  exact if_congr neg_pos rfl rfl

theorem losses_reflected (h : ClosesOn (-1) K candles candles') : losses (closes candles') = gains (closes candles) := by
  refine stepwise_same ?_ (related_closes h)
  rintro y _ x _ rfl rfl
  have hmove : -1 * x + K - (-1 * y + K) = -(x - y) := by ring
  rw [hmove, neg_neg]
  exact if_congr neg_lt_zero rfl rfl

theorem relativeStrength_scale (hc : 0 < c) (gain loss : Option Decimal) :
    relativeStrength (gain.map (c * ·)) (loss.map (c * ·)) = (relativeStrength gain loss).map id := by
  rw [Option.map_id_fun, id]
  cases gain with
  | none => rfl
  | some gain =>
      cases loss with
      | none => rfl
      | some loss =>
          have hloss : c * loss = 0 ↔ loss = 0 := by simp [hc.ne']
          have hgain : c * gain = 0 ↔ gain = 0 := by simp [hc.ne']
          simp only [Option.map_some, relativeStrength, hloss, hgain, mul_pos_iff_of_pos_left hc,
            mul_div_mul_left gain loss hc.ne']

/-- The two special cases are each other's complement, and so is a ratio that of its inverse. -/
theorem relativeStrength_exchange {gain loss : Option Decimal} (hgain : ∀ x ∈ gain, 0 ≤ x) (hloss : ∀ x ∈ loss, 0 ≤ x) :
    relativeStrength loss gain = (relativeStrength gain loss).map (100 - ·) := by
  cases gain with
  | none => cases loss <;> rfl
  | some gain =>
      cases loss with
      | none => rfl
      | some loss =>
          have hgain : 0 ≤ gain := hgain gain rfl
          have hloss : 0 ≤ loss := hloss loss rfl
          rw [relativeStrength, relativeStrength]
          rcases hgain.eq_or_lt with rfl | hgain
          · rcases hloss.eq_or_lt with rfl | hloss
            · norm_num
            · simp [hloss, hloss.ne']
          · rcases hloss.eq_or_lt with rfl | hloss
            · simp [hgain, hgain.ne']
            · rw [if_neg hgain.ne', if_neg hloss.ne', if_neg hloss.ne', if_neg hgain.ne', Option.map_some]
              refine congrArg some ?_
              field_simp
              ring

theorem rsi_scale (hc : 0 < c) (h : ClosesOn c b candles candles') (period : Nat) :
    rsi candles' period = rsi candles period := by
  rw [rsi_eq, gains_scale hc h, losses_scale hc h, wilderAverage_scale, wilderAverage_scale,
    zipWith_onValues (relativeStrength_scale hc), rsi_eq]
  simp [onValues]

theorem zipWith_congr_of_mem {α β γ : Type} {g h : α → β → γ} {xs : List α} {ys : List β}
    (hgh : ∀ x ∈ xs, ∀ y ∈ ys, g x y = h x y) : List.zipWith g xs ys = List.zipWith h xs ys := by
  induction xs generalizing ys with
  | nil => rfl
  | cons x xs ih =>
      cases ys with
      | nil => rfl
      | cons y ys =>
          rw [List.zipWith_cons_cons, List.zipWith_cons_cons, hgh x List.mem_cons_self y List.mem_cons_self,
            ih fun x hx y hy => hgh x (List.mem_cons_of_mem _ hx) y (List.mem_cons_of_mem _ hy)]

theorem rsi_reflected (hperiod : 1 ≤ period) (h : ClosesOn (-1) K candles candles') :
    rsi candles' period = onValues (100 - ·) (rsi candles period) := by
  have hgains : Every (0 ≤ ·) (wilderAverage (gains (closes candles)) period 1) :=
    every_wilderAverage hperiod (gains_nonneg _)
  have hlosses : Every (0 ≤ ·) (wilderAverage (losses (closes candles)) period 1) :=
    every_wilderAverage hperiod (losses_nonneg _)
  rw [rsi_eq, gains_reflected h, losses_reflected h, List.zipWith_comm, rsi_eq, onValues, List.map_zipWith]
  exact zipWith_congr_of_mem fun gain hgain loss hloss =>
    relativeStrength_exchange (fun x hx => hgains gain hgain x hx) fun x hx => hlosses loss hloss x hx

end Oscillators

section Direction

variable {c K : Decimal} {candles candles' : List Candle} {period : Nat}

/-- The rises of the highs that are larger than the falls of the lows, and the other way round. -/
def plusMoves (candles : List Candle) : Series :=
  stepwise (fun previous current =>
    let upMove := current.high - previous.high
    let downMove := previous.low - current.low
    if downMove < upMove ∧ 0 < upMove then upMove else 0) candles

def minusMoves (candles : List Candle) : Series :=
  stepwise (fun previous current =>
    let upMove := current.high - previous.high
    let downMove := previous.low - current.low
    if upMove < downMove ∧ 0 < downMove then downMove else 0) candles

theorem plusDi_eq (candles : List Candle) (period : Nat) :
    (adx candles period).plusDi = List.zipWith (fun range moves => directional range moves.1 moves.2)
      (wilderAverage (trueRanges candles) period 1)
      ((wilderAverage (plusMoves candles) period 1).zip (wilderAverage (minusMoves candles) period 1)) := rfl

theorem minusDi_eq (candles : List Candle) (period : Nat) :
    (adx candles period).minusDi = List.zipWith (fun range moves => directional range moves.2 moves.1)
      (wilderAverage (trueRanges candles) period 1)
      ((wilderAverage (plusMoves candles) period 1).zip (wilderAverage (minusMoves candles) period 1)) := rfl

theorem trueRanges_scale (hc : 0 < c) (candles : List Candle) :
    trueRanges (scaled c hc candles) = onValues (c * ·) (trueRanges candles) := by
  refine stepwise_related (c * ·) ?_ (related_scaled hc candles)
  rintro y _ x _ rfl rfl
  simp only [Candle.scale, ← mul_sub, abs_mul, abs_of_pos hc, mul_max_of_nonneg _ _ hc.le]

theorem plusMoves_scale (hc : 0 < c) (candles : List Candle) :
    plusMoves (scaled c hc candles) = onValues (c * ·) (plusMoves candles) := by
  refine stepwise_related (c * ·) ?_ (related_scaled hc candles)
  rintro y _ x _ rfl rfl
  simp only [Candle.scale, ← mul_sub, mul_lt_mul_iff_right₀ hc, mul_pos_iff_of_pos_left hc, mul_ite, mul_zero]

theorem minusMoves_scale (hc : 0 < c) (candles : List Candle) :
    minusMoves (scaled c hc candles) = onValues (c * ·) (minusMoves candles) := by
  refine stepwise_related (c * ·) ?_ (related_scaled hc candles)
  rintro y _ x _ rfl rfl
  simp only [Candle.scale, ← mul_sub, mul_lt_mul_iff_right₀ hc, mul_pos_iff_of_pos_left hc, mul_ite, mul_zero]

/-- A bar is as wide seen from above, and as far from the close before it. -/
theorem trueRanges_reflected (h : ∀ candle ∈ candles, candle.high < K) :
    trueRanges (reflected K candles h) = trueRanges candles := by
  refine stepwise_same ?_ (related_reflected h)
  rintro y _ x _ ⟨_, rfl⟩ ⟨_, rfl⟩
  simp only [Candle.reflect, sub_sub_sub_cancel_left]
  rw [abs_sub_comm y.close x.low, abs_sub_comm y.close x.high, max_comm |x.low - y.close|]

/-- Seen from above, the highs rise as the lows fall. -/
theorem plusMoves_reflected (h : ∀ candle ∈ candles, candle.high < K) :
    plusMoves (reflected K candles h) = minusMoves candles := by
  refine stepwise_same ?_ (related_reflected h)
  rintro y _ x _ ⟨_, rfl⟩ ⟨_, rfl⟩
  simp only [Candle.reflect, sub_sub_sub_cancel_left]

theorem minusMoves_reflected (h : ∀ candle ∈ candles, candle.high < K) :
    minusMoves (reflected K candles h) = plusMoves candles := by
  refine stepwise_same ?_ (related_reflected h)
  rintro y _ x _ ⟨_, rfl⟩ ⟨_, rfl⟩
  simp only [Candle.reflect, sub_sub_sub_cancel_left]

theorem directional_scale (hc : 0 < c) (range movement other : Option Decimal) :
    directional (range.map (c * ·)) (movement.map (c * ·)) (other.map (c * ·)) = directional range movement other := by
  cases range with
  | none => rfl
  | some range =>
      cases movement with
      | none => rfl
      | some movement =>
          cases other with
          | none => rfl
          | some other =>
              have hrange : c * range = 0 ↔ range = 0 := by simp [hc.ne']
              simp only [Option.map_some, directional, hrange, mul_div_mul_left movement range hc.ne']

theorem zipWith_moves {g : Option Decimal → Option Decimal → Option Decimal → Option Decimal}
    (hg : ∀ range x y, g (range.map (c * ·)) (x.map (c * ·)) (y.map (c * ·)) = g range x y) (ranges xs ys : Series) :
    List.zipWith (fun range moves => g range moves.1 moves.2) (onValues (c * ·) ranges)
        ((onValues (c * ·) xs).zip (onValues (c * ·) ys)) =
      List.zipWith (fun range moves => g range moves.1 moves.2) ranges (xs.zip ys) := by
  rw [onValues, onValues, onValues, List.zip_map, List.zipWith_map]
  exact congrArg (fun g => List.zipWith g ranges (xs.zip ys)) (funext fun range => funext fun moves => hg _ _ _)

theorem plusDi_scale (hc : 0 < c) (candles : List Candle) (period : Nat) :
    (adx (scaled c hc candles) period).plusDi = (adx candles period).plusDi := by
  rw [plusDi_eq, trueRanges_scale, plusMoves_scale, minusMoves_scale, wilderAverage_scale, wilderAverage_scale,
    wilderAverage_scale, zipWith_moves (directional_scale hc), plusDi_eq]

theorem minusDi_scale (hc : 0 < c) (candles : List Candle) (period : Nat) :
    (adx (scaled c hc candles) period).minusDi = (adx candles period).minusDi := by
  rw [minusDi_eq, trueRanges_scale, plusMoves_scale, minusMoves_scale, wilderAverage_scale, wilderAverage_scale,
    wilderAverage_scale, zipWith_moves (g := fun range x y => directional range y x)
      (fun range x y => directional_scale hc range y x), minusDi_eq]

theorem plusDi_reflected (h : ∀ candle ∈ candles, candle.high < K) (period : Nat) :
    (adx (reflected K candles h) period).plusDi = (adx candles period).minusDi := by
  rw [plusDi_eq, trueRanges_reflected, plusMoves_reflected, minusMoves_reflected, minusDi_eq, ← List.zip_swap,
    List.zipWith_map_right]
  rfl

theorem minusDi_reflected (h : ∀ candle ∈ candles, candle.high < K) (period : Nat) :
    (adx (reflected K candles h) period).minusDi = (adx candles period).plusDi := by
  rw [minusDi_eq, trueRanges_reflected, plusMoves_reflected, minusMoves_reflected, plusDi_eq, ← List.zip_swap,
    List.zipWith_map_right]
  rfl

theorem directionalIndex_comm (positive negative : Option Decimal) :
    directionalIndex negative positive = directionalIndex positive negative := by
  cases positive with
  | none => cases negative <;> rfl
  | some positive =>
      cases negative with
      | none => rfl
      | some negative =>
          rw [directionalIndex, directionalIndex]
          simp only [add_comm negative, abs_sub_comm negative]

theorem dx_scale (hc : 0 < c) (candles : List Candle) (period : Nat) : dx (scaled c hc candles) period = dx candles period := by
  rw [dx, plusDi_scale, minusDi_scale, dx]

theorem dx_reflected (h : ∀ candle ∈ candles, candle.high < K) (period : Nat) :
    dx (reflected K candles h) period = dx candles period := by
  rw [dx, plusDi_reflected, minusDi_reflected, dx, List.zipWith_comm]
  exact zipWith_congr_of_mem fun positive _ negative _ => directionalIndex_comm positive negative

theorem adx_scale (hc : 0 < c) (candles : List Candle) (period : Nat) :
    (adx (scaled c hc candles) period).adx = (adx candles period).adx := by
  rw [adx_eq, dx_scale, adx_eq]

theorem adx_reflected (h : ∀ candle ∈ candles, candle.high < K) (period : Nat) :
    (adx (reflected K candles h) period).adx = (adx candles period).adx := by
  rw [adx_eq, dx_reflected, adx_eq]

end Direction

end Aetheris.Indicators
